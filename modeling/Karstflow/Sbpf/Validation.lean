import Karstflow.Sbpf.Interpreter

namespace Karstflow.Sbpf

open Data Karstflow.Types

/-! The checks that a program passes before it is run. -/

def maxDstRegister : Nat := 9

def maxSrcRegister : Nat := 10

def maxProgramInstructions : Nat := 1000000

inductive ValidationError where
  | invalidOpcode (pc : Nat) (opcode : UInt8)
  | invalidRegister (pc register : Nat) (field : String)
  | jumpOutOfBounds (pc : Nat) (target : Int)
  | unpairedLddw (pc : Nat)
  | invalidCallTarget (pc : Nat) (target : BitVec 32)
  | missingExitInstruction
  | divisionByZero (pc : Nat)
  | programTooLarge (count max : Nat)
deriving Repr, DecidableEq

def isOpcodeDisabledForVersion (opcode : Opcode) (version : SbpfVersion) : Bool :=
  match opcode with
  | .lddw => version.lddwDisabled
  | .le => version.leDisabled
  | .neg _ => version.negDisabled
  | _ => false

/-- The register checks. Only arithmetic has its destination checked, and only
an instruction outside immediate arithmetic its source. -/
def validateRegisters (instruction : Instruction) (opcode : Opcode) (version : SbpfVersion) (pc : Nat) :
    List ValidationError :=
  if opcode = .syscall ∧ version.callxUsesSrcRegister = false then
    if maxDstRegister < instruction.immediate.toNat then
      [.invalidRegister pc (min instruction.immediate.toNat u8Max) "callx target"]
    else []
  else if opcode = .ja ∨ opcode = .call ∨ opcode = .exit then []
  else
    (if opcode.isAlu = true ∧ maxDstRegister < instruction.dst.val then
      [.invalidRegister pc instruction.dst.val "destination"] else []) ++
    (if opcode.isImmediateSource = false ∧ maxSrcRegister < instruction.src.val then
      [.invalidRegister pc instruction.src.val "source"] else [])

def validateJump (instruction : Instruction) (opcode : Opcode) (pc count : Nat) : List ValidationError :=
  let target : Int := (pc : Int) + 1 + instruction.offset.toInt
  if opcode.isJump = true ∧ opcode ≠ .call ∧ opcode ≠ .syscall ∧ opcode ≠ .exit ∧ (target < 0 ∨ (count : Int) ≤ target) then
    [.jumpOutOfBounds pc target]
  else []

def validateDivision (instruction : Instruction) (opcode : Opcode) (pc : Nat) : List ValidationError :=
  match opcode with
  | .alu _ .div .imm | .alu _ .mod .imm => if instruction.immediate = 0 then [.divisionByZero pc] else []
  | _ => []

section

variable (program : LoadedProgram) (registeredSyscalls : List (BitVec 32)) (overflowChecks : Bool)

/-- The check of a call target, which negates the immediate; `none` if that
overflows. -/
def validateCall (instruction : Instruction) (opcode : Opcode) (pc : Nat) : Option (List ValidationError) :=
  if opcode ≠ .call then some []
  else if instruction.immediate = .intMin 32 ∧ overflowChecks = true then none
  else if instruction.immediate ∉ registeredSyscalls ∧ program.callTargets.contains instruction.immediate = false ∧
      ¬ relativeTarget pc instruction.immediate < program.instructions.length then
    some [.invalidCallTarget pc instruction.immediate]
  else some []

/-- The checks of one slot that is neither skipped nor disabled. -/
def validateSlot (instruction : Instruction) (opcode : Opcode) (pc : Nat) : Option (List ValidationError) := do
  let calls ← validateCall program registeredSyscalls overflowChecks instruction opcode pc
  return validateRegisters instruction opcode program.sbpfVersion pc ++
    validateJump instruction opcode pc program.instructions.length ++ validateDivision instruction opcode pc ++ calls

/-- The errors from slot `pc` on. A wide load is passed over with the slot
after it, whatever that holds. -/
def validateFrom : Nat → Option Instruction → List Instruction → Option (List ValidationError)
  | _, _, [] => some []
  | pc, previous, instruction :: rest =>
    let secondSlot := previous.any Instruction.isLddw && instruction.opcode = 0
    if secondSlot then validateFrom (pc + 1) (some instruction) rest
    else
      match Opcode.fromRaw instruction.opcode with
      | none => (validateFrom (pc + 1) (some instruction) rest).map (.invalidOpcode pc instruction.opcode :: ·)
      | some opcode =>
        if isOpcodeDisabledForVersion opcode program.sbpfVersion = true then
          (validateFrom (pc + 1) (some instruction) rest).map (.invalidOpcode pc instruction.opcode :: ·)
        else if opcode = .lddw then
          match rest with
          | [] => some [.unpairedLddw pc]
          | second :: later => validateFrom (pc + 2) (some second) later
        else do
          let errors ← validateSlot program registeredSyscalls overflowChecks instruction opcode pc
          let others ← validateFrom (pc + 1) (some instruction) rest
          return errors ++ others

/-- Whether the last slot with a non-zero opcode is an exit. -/
def endsWithExit : Bool :=
  match program.instructions.reverse.find? fun instruction => instruction.opcode ≠ 0 with
  | some instruction => instruction.opcode = exitRaw
  | none => false

/-- All errors of a program; `none` if the validation aborts. -/
def validationErrors : Option (List ValidationError) :=
  let size := if maxProgramInstructions < program.instructions.length then
    [.programTooLarge program.instructions.length maxProgramInstructions] else []
  if program.instructions = [] then some (size ++ [.missingExitInstruction])
  else do
    let errors ← validateFrom program registeredSyscalls overflowChecks 0 none program.instructions
    return size ++ errors ++ (if endsWithExit program = true then [] else [.missingExitInstruction])

def validates : Bool := validationErrors program registeredSyscalls overflowChecks = some []

end

theorem length_le_of_validates (valid : validates program registeredSyscalls overflowChecks = true) :
    program.instructions.length ≤ maxProgramInstructions := by
  rw [validates, decide_eq_true_eq, validationErrors] at valid
  by_cases large : maxProgramInstructions < program.instructions.length
  · split at valid
    · cases valid
    · obtain ⟨errors, -, built⟩ := Option.bind_eq_some_iff.mp valid
      cases built
  · exact Nat.le_of_not_lt large

theorem instructions_ne_nil_of_validates (valid : validates program registeredSyscalls overflowChecks = true) :
    program.instructions ≠ [] := by
  intro empty
  rw [validates, decide_eq_true_eq, validationErrors, if_pos empty, Option.some.injEq] at valid
  exact List.append_ne_nil_of_right_ne_nil _ (List.cons_ne_nil _ _) valid

end Karstflow.Sbpf
