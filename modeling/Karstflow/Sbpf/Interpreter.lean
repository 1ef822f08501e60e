import Karstflow.Sbpf.Execution
import Karstflow.Sbpf.Memory

namespace Karstflow.Sbpf

open Data Karstflow.Types

def cuPerInstruction : Nat := 1

def maxInstructions : Nat := 10000000

def instructionSize : Nat := 8

structure LoadedProgram where
  instructions : List Instruction
  rodata : List UInt8
  entryPoint : Nat
  callTargets : Table (BitVec 32) Nat
  sbpfVersion : SbpfVersion
  textBytes : List UInt8
  textFileOffset : Nat

structure CallFrame where
  returnPc : Nat
  savedRegisters : Fin 4 → BitVec 64
  framePointer : BitVec 64

structure VmState where
  registers : Fin 11 → BitVec 64
  pc : Nat
  memory : MemoryMap
  callStack : List CallFrame
  computeMeter : Nat
  instructionCount : Nat
  logs : List String
  logBytesWritten : Nat
  logTruncated : Bool
  returnData : Option (List UInt8)
  heapPosition : BitVec 64
  sysvarSnapshot : SysvarSnapshot
  cpiDepth : Nat
  sbpfVersion : SbpfVersion
  programId : Pubkey
  syscallParameterAddressRestrictions : Bool

structure VmResult where
  returnValue : BitVec 64
  computeUnitsConsumed : Nat
  logs : List String
  returnData : Option (List UInt8)
  inputRegion : List UInt8

/-- `{:0width$X}`. -/
def upperHex (width value : Nat) : String :=
  .ofList (((Nat.toDigits 16 value).map .toUpper).leftpad width '0')

def MemoryError.display : MemoryError → String
  | .unmappedAddress addr => "unmapped virtual address 0x" ++ upperHex 16 addr.toNat
  | .outOfBounds addr size regionLen =>
    "access at 0x" ++ upperHex 16 addr.toNat ++ " size " ++ toString size ++ " exceeds region length " ++
      toString regionLen
  | .readOnlyRegion addr => "write to read-only address 0x" ++ upperHex 16 addr.toNat
  | .stackOverflow => "stack overflow: maximum call depth exceeded"
  | .stackUnderflow => "stack underflow: no frames to pop"

inductive VmError where
  | computeBudgetExceeded
  | accessViolation (addr : BitVec 64) (size pc : Nat)
  | divisionByZero (pc : Nat)
  | callDepthExceeded (pc : Nat)
  | invalidInstruction (pc : Nat) (opcode : UInt8)
  | pcOutOfBounds (pc len : Nat)
  | unknownSyscall (id : BitVec 32)
  | syscallError (message : String)
  | instructionLimitExceeded
  | memoryError (message : String)
  | stackUnderflow
deriving Repr, DecidableEq

def VmError.display : VmError → String
  | .computeBudgetExceeded => "compute budget exceeded"
  | .accessViolation addr size pc =>
    "PC " ++ toString pc ++ ": access violation at 0x" ++ upperHex 16 addr.toNat ++ " size " ++ toString size
  | .divisionByZero pc => "PC " ++ toString pc ++ ": division by zero"
  | .callDepthExceeded pc => "PC " ++ toString pc ++ ": call depth exceeded"
  | .invalidInstruction pc opcode =>
    "PC " ++ toString pc ++ ": invalid instruction 0x" ++ upperHex 2 opcode.toNat
  | .pcOutOfBounds pc len => "PC " ++ toString pc ++ " out of bounds (program length: " ++ toString len ++ ")"
  | .unknownSyscall id => "unknown syscall 0x" ++ upperHex 8 id.toNat
  | .syscallError message => "syscall error: " ++ message
  | .instructionLimitExceeded => "instruction limit exceeded"
  | .memoryError message => "memory error: " ++ message
  | .stackUnderflow => "stack underflow on EXIT"

inductive Halt where
  | returned (result : VmResult)
  | failed (error : VmError)
  | panicked

/-- Where a pass of the loop leaves off: for good, or with a question to the
syscall dispatcher. `atCall` tells a call from the dedicated instruction. -/
inductive Stop where
  | halt (halt : Halt)
  | syscall (atCall : Bool) (id : BitVec 32) (vm : VmState)

def Stop.fail (error : VmError) : Stop := .halt (.failed error)

/-- The state of the loop: the machine, and the units of the current
straight-line segment, which are deducted at its end. -/
structure Machine where
  vm : VmState
  segmentCu : Nat

/-- What an execution is given and never changes. -/
structure Setting where
  program : LoadedProgram
  computeBudget : Nat
  hasHandler : BitVec 32 → Bool
  overflowChecks : Bool

section

variable (setting : Setting) (machine : Machine) (vm : VmState)

/-- A plain arithmetic operator whose result wraps to `value`. -/
def Setting.plain {α : Type} (setting : Setting) (overflows : Prop) [Decidable overflows] (value : α) :
    Except Stop α :=
  if overflows ∧ setting.overflowChecks = true then .error (.halt .panicked) else .ok value

def VmState.readRegister (index : Nat) : Except Stop (BitVec 64) :=
  if within : index < 11 then .ok (vm.registers ⟨index, within⟩) else .error (.halt .panicked)

def VmState.setRegister (index : Nat) (value : BitVec 64) : VmState :=
  { vm with registers := fun place => if place.val = index then value else vm.registers place }

/-- `vm.pc += 1` at the end of the loop. -/
def Setting.advance : Except Stop Machine :=
  setting.plain (u64Max ≤ machine.vm.pc)
    { machine with vm := { machine.vm with pc := (machine.vm.pc + 1) % (u64Max + 1) } }

def Machine.setRegister (machine : Machine) (index : Nat) (value : BitVec 64) : Machine :=
  { machine with vm := machine.vm.setRegister index value }

def Setting.countInstruction : Except Stop Machine :=
  setting.plain (u64Max ≤ machine.vm.instructionCount)
    { vm := { machine.vm with instructionCount := (machine.vm.instructionCount + 1) % (u64Max + 1) }
      segmentCu := machine.segmentCu + cuPerInstruction }

def checkpointCu : Except Stop Machine :=
  if machine.vm.computeMeter < machine.segmentCu then .error (.fail .computeBudgetExceeded)
  else if maxInstructions < machine.vm.instructionCount then .error (.fail .instructionLimitExceeded)
  else .ok
    { vm := { machine.vm with computeMeter := machine.vm.computeMeter - machine.segmentCu }
      segmentCu := 0 }

def jumpTarget (pc : Nat) (offset : BitVec 16) : Nat :=
  (((pc : Int) + 1 + offset.toInt) % ((u64Max : Int) + 1)).toNat

/-- The result, unless it divides by zero. Shifts take the amount modulo the
width. -/
def AluOp.eval {width : Nat} (left right : BitVec width) : AluOp → Option (BitVec width)
  | .add => some (left + right)
  | .sub => some (left - right)
  | .mul => some (left * right)
  | .div => if right = 0 then none else some (left / right)
  | .or => some (left ||| right)
  | .and => some (left &&& right)
  | .lsh => some (left <<< (right.toNat % width))
  | .rsh => some (left >>> (right.toNat % width))
  | .mod => if right = 0 then none else some (left % right)
  | .xor => some (left ^^^ right)
  | .mov => some right
  | .arsh => some (left.sshiftRight (right.toNat % width))

def Comparison.test {width : Nat} (left right : BitVec width) : Comparison → Bool
  | .eq => left = right
  | .gt => right.ult left
  | .ge => right.ule left
  | .set => left &&& right ≠ 0
  | .ne => left ≠ right
  | .sgt => right.slt left
  | .sge => right.sle left
  | .lt => left.ult right
  | .le => left.ule right
  | .slt => left.slt right
  | .sle => left.sle right

/-- The 64-bit right operand; an immediate is sign-extended. -/
def Operand.full (immediate : BitVec 32) (regSrc : BitVec 64) : Operand → BitVec 64
  | .imm => immediate.signExtend 64
  | .reg => regSrc

def Operand.half (immediate : BitVec 32) (regSrc : BitVec 64) : Operand → BitVec 32
  | .imm => immediate
  | .reg => regSrc.setWidth 32

/-- Arithmetic at a width; a 32-bit result is zero-extended. -/
def alu (width : Width) (operation : AluOp) (operand : Operand) (immediate : BitVec 32) (regDst regSrc : BitVec 64) :
    Option (BitVec 64) :=
  match width with
  | .full => operation.eval regDst (operand.full immediate regSrc)
  | .half => (operation.eval (regDst.setWidth 32) (operand.half immediate regSrc)).map (·.setWidth 64)

def jumpTaken (width : Width) (comparison : Comparison) (operand : Operand) (immediate : BitVec 32)
    (regDst regSrc : BitVec 64) : Bool :=
  match width with
  | .full => comparison.test regDst (operand.full immediate regSrc)
  | .half => comparison.test (regDst.setWidth 32) (operand.half immediate regSrc)

/-- The operand whose negation overflows. -/
def negOverflows (regDst : BitVec 64) : Width → Bool
  | .full => regDst = .intMin 64
  | .half => regDst.setWidth 32 = .intMin 32

def negate (regDst : BitVec 64) : Width → BitVec 64
  | .full => -regDst
  | .half => (-(regDst.setWidth 32)).setWidth 64

def swapBytes (size : Nat) (value : BitVec 64) : BitVec 64 :=
  .ofNat 64 (leValue (leBytes size value.toNat).reverse)

def toLittleEndian (immediate : BitVec 32) (value : BitVec 64) : BitVec 64 :=
  if immediate = 16 then value &&& 0xFFFF
  else if immediate = 32 then value &&& 0xFFFFFFFF
  else value

def toBigEndian (immediate : BitVec 32) (value : BitVec 64) : BitVec 64 :=
  if immediate = 16 then swapBytes 2 value
  else if immediate = 32 then swapBytes 4 value
  else if immediate = 64 then swapBytes 8 value
  else value

/-- What a call saves: the callee-saved registers and the frame pointer. -/
def VmState.callFrame : CallFrame :=
  { returnPc := vm.pc + 1
    savedRegisters := fun index => vm.registers ⟨6 + index.val, by omega⟩
    framePointer := vm.registers 10 }

/-- The machine inside a function, with the stack that has its frame. Dynamic
frames leave the frame pointer to the program. -/
def VmState.entered (memory : MemoryMap) (targetPc : Nat) : VmState :=
  { vm with
    callStack := vm.callFrame :: vm.callStack
    memory := memory
    registers := if memory.dynamicFrames then vm.registers else (vm.setRegister 10 memory.framePointer).registers
    pc := targetPc }

def enterFunction (targetPc : Nat) : Except Stop Machine :=
  if maxCallDepth ≤ machine.vm.callStack.length then .error (.fail (.callDepthExceeded machine.vm.pc))
  else
    match machine.vm.memory.pushFrame with
    | .error _ => .error (.fail (.callDepthExceeded machine.vm.pc))
    | .ok memory => .ok { machine with vm := machine.vm.entered memory targetPc }

def relativeTarget (pc : Nat) (immediate : BitVec 32) : Nat :=
  if 0 ≤ immediate.toInt then (pc + immediate.toNat + 1) % (u64Max + 1)
  else (pc + (u64Max + 1) - ((-immediate).signExtend 64).toNat + 1) % (u64Max + 1)

/-- Where a call goes: to a relocated function, to a place relative to it, or
to a syscall. -/
def Setting.resolveTarget (pc : Nat) (immediate : BitVec 32) : Except Stop (Option Nat) :=
  match setting.program.callTargets.get immediate with
  | some target => .ok (some target)
  | none => do
    -- negating the least immediate overflows
    let target ← setting.plain (immediate = .intMin 32) (relativeTarget pc immediate)
    return if target < setting.program.instructions.length then some target else none

def Setting.call (immediate : BitVec 32) : Except Stop Machine := do
  let machine ← checkpointCu machine
  match ← setting.resolveTarget machine.vm.pc immediate with
  | some target => enterFunction machine target
  | none => .error (.syscall true immediate machine.vm)

/-- The function that an address in the text names. -/
def Setting.addressedFunction (address : BitVec 64) : Option Nat :=
  let offset := MemoryMap.offsetOf address
  let relative := offset - setting.program.textFileOffset
  if setting.program.textFileOffset ≤ offset ∧ relative % instructionSize = 0 ∧
      relative / instructionSize < setting.program.instructions.length then
    some (relative / instructionSize)
  else none

def callxError (pc register : Nat) (value : BitVec 64) : VmError :=
  .syscallError ("CALLX at PC " ++ toString pc ++ ": r" ++ toString register ++ "=0x" ++ upperHex 16 value.toNat ++
    " is not a valid call target")

/-- The dedicated syscall instruction, which older versions read as a call
through the register that the immediate names. -/
def Setting.syscallOrCallx (immediate : BitVec 32) : Except Stop Machine := do
  let machine ← checkpointCu machine
  if setting.program.sbpfVersion.callxUsesSrcRegister = true then .error (.syscall false immediate machine.vm)
  else do
    let value ← machine.vm.readRegister (immediate.toNat % 16)
    match setting.addressedFunction value with
    | some target => enterFunction machine target
    | none =>
      if setting.hasHandler (value.setWidth 32) = true then .error (.syscall false (value.setWidth 32) machine.vm)
      else .error (.fail (callxError machine.vm.pc (immediate.toNat % 16) value))

/-- The machine back in the caller. -/
def VmState.left (frame : CallFrame) (callers : List CallFrame) (memory : MemoryMap) : VmState :=
  { vm with
    registers := fun place =>
      if place.val = 10 then frame.framePointer
      else if saved : 6 ≤ place.val ∧ place.val < 10 then frame.savedRegisters ⟨place.val - 6, by omega⟩
      else vm.registers place
    memory := memory
    callStack := callers
    pc := frame.returnPc }

def VmState.result (computeUnitsConsumed : Nat) : VmResult :=
  { returnValue := vm.registers 0, computeUnitsConsumed := computeUnitsConsumed, logs := vm.logs
    returnData := vm.returnData, inputRegion := vm.memory.input }

/-- Return from a function, or from the program when no function is active. -/
def Setting.exit : Except Stop Machine := do
  let machine ← checkpointCu machine
  match machine.vm.callStack with
  | [] => do
    let consumed ← setting.plain (setting.computeBudget < machine.vm.computeMeter)
      ((setting.computeBudget + (u64Max + 1) - machine.vm.computeMeter) % (u64Max + 1))
    .error (.halt (.returned (machine.vm.result consumed)))
  | frame :: callers =>
    match machine.vm.memory.popFrame with
    | .error _ => .error (.fail .stackUnderflow)
    | .ok memory => .ok { machine with vm := machine.vm.left frame callers memory }

def Machine.jump (pc : Nat) : Machine := { machine with vm := { machine.vm with pc := pc } }

/-- A load of 64 bits from this slot and the next. -/
def Setting.loadDouble (instruction : Instruction) : Except Stop Machine :=
  if setting.program.sbpfVersion.lddwDisabled = true then
    .error (.fail (.invalidInstruction machine.vm.pc instruction.opcode))
  else
    match setting.program.instructions[machine.vm.pc + 1]? with
    | none => .error (.fail (.invalidInstruction machine.vm.pc instruction.opcode))
    | some next => do
      let counted ← setting.countInstruction
        (machine.setRegister instruction.dst (next.immediate ++ instruction.immediate))
      return counted.jump (counted.vm.pc + 2)

/-- A taken branch ends the segment. -/
def branch (offset : BitVec 16) : Except Stop Machine := do
  let machine ← checkpointCu machine
  return machine.jump (jumpTarget machine.vm.pc offset)

def Setting.loadFrom (size : AccessSize) (dst : Nat) (addr : BitVec 64) : Except Stop Machine :=
  match machine.vm.memory.load size addr with
  | .error _ => .error (.fail (.accessViolation addr size.bytes machine.vm.pc))
  | .ok value => setting.advance (machine.setRegister dst value)

def Setting.storeAt (size : AccessSize) (addr value : BitVec 64) : Except Stop Machine :=
  match machine.vm.memory.store size addr value with
  | .error _ => .error (.fail (.accessViolation addr size.bytes machine.vm.pc))
  | .ok memory => setting.advance { machine with vm := { machine.vm with memory := memory } }

def Setting.perform (instruction : Instruction) (opcode : Opcode) (regDst regSrc : BitVec 64) : Except Stop Machine :=
  match opcode with
  | .alu width operation operand =>
    match alu width operation operand instruction.immediate regDst regSrc with
    | none => .error (.fail (.divisionByZero machine.vm.pc))
    | some value => setting.advance (machine.setRegister instruction.dst value)
  | .neg width =>
    if setting.program.sbpfVersion.negDisabled = true then
      .error (.fail (.invalidInstruction machine.vm.pc instruction.opcode))
    else do
      let value ← setting.plain (negOverflows regDst width = true) (negate regDst width)
      setting.advance (machine.setRegister instruction.dst value)
  | .le =>
    if setting.program.sbpfVersion.leDisabled = true then
      .error (.fail (.invalidInstruction machine.vm.pc instruction.opcode))
    else setting.advance (machine.setRegister instruction.dst (toLittleEndian instruction.immediate regDst))
  | .be => setting.advance (machine.setRegister instruction.dst (toBigEndian instruction.immediate regDst))
  | .lddw => setting.loadDouble machine instruction
  | .ldx size => setting.loadFrom machine size instruction.dst (regSrc + instruction.offset.signExtend 64)
  | .st size =>
    setting.storeAt machine size (regDst + instruction.offset.signExtend 64) (instruction.immediate.signExtend 64)
  | .stx size => setting.storeAt machine size (regDst + instruction.offset.signExtend 64) regSrc
  | .ja => branch machine instruction.offset
  | .jump width comparison operand =>
    if jumpTaken width comparison operand instruction.immediate regDst regSrc = true then
      branch machine instruction.offset
    else setting.advance machine
  | .call => setting.call machine instruction.immediate
  | .syscall => setting.syscallOrCallx machine instruction.immediate
  | .exit => setting.exit machine

/-- One pass of the loop. Both register fields are read before the opcode is
looked at. -/
def Setting.turn : Except Stop Machine :=
  match setting.program.instructions[machine.vm.pc]? with
  | none => .error (.fail (.pcOutOfBounds machine.vm.pc setting.program.instructions.length))
  | some instruction => do
    let machine ← setting.countInstruction machine
    let regDst ← machine.vm.readRegister instruction.dst
    let regSrc ← machine.vm.readRegister instruction.src
    match Opcode.fromRaw instruction.opcode with
    | none => .error (.fail (.invalidInstruction machine.vm.pc instruction.opcode))
    | some opcode => setting.perform machine instruction opcode regDst regSrc

/-- The syscalls at hand. A handler may change the whole machine, also when it
fails. -/
structure SyscallDispatch where
  dispatch : BitVec 32 → VmState → Except VmError Unit × VmState
  hasHandler : BitVec 32 → Bool

def noSyscalls : SyscallDispatch :=
  { dispatch := fun id vm => (.error (.unknownSyscall id), vm), hasHandler := fun _ => false }

def syscallFailure (atCall : Bool) (id : BitVec 32) (pc : Nat) (error : VmError) : VmError :=
  match atCall, error with
  | false, _ => error
  | true, .unknownSyscall _ => error
  | true, _ =>
    .syscallError ("at CALL PC " ++ toString pc ++ ": target_id=0x" ++ upperHex 8 id.toNat ++ ": " ++ error.display)

def Setting.resume (atCall : Bool) (id : BitVec 32) (answer : Except VmError Unit × VmState) : Except Stop Machine :=
  match answer with
  | (.error error, vm) => .error (.fail (syscallFailure atCall id vm.pc error))
  | (.ok _, vm) => setting.advance { vm := vm, segmentCu := 0 }

/-- One pass of the loop, syscalls included. -/
def Setting.step (dispatch : BitVec 32 → VmState → Except VmError Unit × VmState) (machine : Machine) :
    Except Stop Machine :=
  match setting.turn machine with
  | .error (.syscall atCall id vm) => setting.resume atCall id (dispatch id vm)
  | other => other

/-- The machine after `passes` passes, or where it stopped before. -/
def Setting.runFor (setting : Setting) (dispatch : BitVec 32 → VmState → Except VmError Unit × VmState) :
    Nat → Machine → Except Stop Machine
  | 0, machine => .ok machine
  | passes + 1, machine => do
    let machine ← setting.step dispatch machine
    setting.runFor dispatch passes machine

end

def syscallParameterAddressRestrictionsFeature : Pubkey :=
  ⟨[0xC4, 0x4C, 0x41, 0x01, 0x70, 0xB2, 0xBF, 0x14, 0xB6, 0xDF, 0xFE, 0x7B, 0x58, 0x42, 0x2C, 0xEE,
    0x13, 0x69, 0x3B, 0x78, 0x92, 0x2A, 0x58, 0x3E, 0xC1, 0x18, 0xEE, 0xB8, 0x36, 0x70, 0x77, 0xB8], rfl⟩

def LoadedProgram.start (program : LoadedProgram) (memory : MemoryMap) (computeBudget : Nat)
    (sysvarSnapshot : SysvarSnapshot) (programId : Pubkey) : Machine :=
  { vm :=
      { registers := fun place =>
          if place.val = 1 then regionInputBase else if place.val = 10 then memory.framePointer else 0
        pc := program.entryPoint
        memory := memory
        callStack := []
        computeMeter := computeBudget
        instructionCount := 0
        logs := []
        logBytesWritten := 0
        logTruncated := false
        returnData := none
        heapPosition := regionHeapBase
        sysvarSnapshot := sysvarSnapshot
        cpiDepth := 0
        sbpfVersion := program.sbpfVersion
        programId := programId
        syscallParameterAddressRestrictions :=
          isFeatureActive sysvarSnapshot.activeFeatures syscallParameterAddressRestrictionsFeature }
    segmentCu := 0 }

def LoadedProgram.setting (program : LoadedProgram) (computeBudget : Nat) (syscalls : SyscallDispatch)
    (overflowChecks : Bool) : Setting :=
  { program := program, computeBudget := computeBudget, hasHandler := syscalls.hasHandler
    overflowChecks := overflowChecks }

/-- How a program ends, if it ends within `passes` passes of the loop. -/
def execute (passes : Nat) (program : LoadedProgram) (memory : MemoryMap) (computeBudget : Nat)
    (syscalls : SyscallDispatch) (overflowChecks : Bool) (sysvarSnapshot : SysvarSnapshot) (programId : Pubkey) :
    Option Halt :=
  if program.instructions = [] then some (.failed (.pcOutOfBounds 0 0))
  else
    match (program.setting computeBudget syscalls overflowChecks).runFor syscalls.dispatch passes
        (program.start memory computeBudget sysvarSnapshot programId) with
    | .error (.halt halt) => some halt
    | _ => none

end Karstflow.Sbpf
