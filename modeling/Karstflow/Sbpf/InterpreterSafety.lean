import Karstflow.Sbpf.InterpreterProgress
import Karstflow.Sbpf.Validation

namespace Karstflow.Sbpf

open Data Karstflow.Types Setting

/-! When the interpreter aborts, and that it otherwise comes to an end. -/

def Panics {α : Type} (computation : Except Stop α) : Prop := computation = .error (.halt .panicked)

section

variable {setting : Setting}

@[simp] theorem not_panics_ok : ¬ Panics (.ok value : Except Stop α) := nofun

@[simp] theorem not_panics_fail (error : VmError) : ¬ Panics (.error (.fail error) : Except Stop α) := nofun

@[simp] theorem not_panics_syscall (atCall : Bool) (id : BitVec 32) (vm : VmState) :
    ¬ Panics (.error (.syscall atCall id vm) : Except Stop α) := nofun

@[simp] theorem not_panics_returned : ¬ Panics (.error (.halt (.returned result)) : Except Stop α) := nofun

theorem panics_bind : Panics (first >>= next) ↔ Panics first ∨ ∃ value, first = .ok value ∧ Panics (next value) := by
  cases first with
  | error stop | ok value => simp [Panics, bind, Except.bind]

theorem panics_ok_bind : Panics (.ok value >>= next) ↔ Panics (next value) := .rfl

@[simp] theorem panics_plain [Decidable overflows] :
    Panics (setting.plain overflows value) ↔ overflows ∧ setting.overflowChecks = true := by
  simp [Panics, plain]

@[simp] theorem panics_readRegister {vm : VmState} : Panics (vm.readRegister index) ↔ 11 ≤ index := by
  by_cases within : index < 11
  · simp only [VmState.readRegister, dif_pos within, not_panics_ok, false_iff]
    omega
  · simp only [VmState.readRegister, dif_neg within, Panics, true_iff]
    omega

@[simp] theorem panics_advance :
    Panics (setting.advance machine) ↔ u64Max ≤ machine.vm.pc ∧ setting.overflowChecks = true := panics_plain

@[simp] theorem not_panics_checkpointCu : ¬ Panics (checkpointCu machine) := by
  unfold checkpointCu
  split
  · exact not_panics_fail _
  · split
    · exact not_panics_fail _
    · exact not_panics_ok

@[simp] theorem not_panics_enterFunction : ¬ Panics (enterFunction machine targetPc) := by
  unfold enterFunction
  split
  · exact not_panics_fail _
  · split
    · exact not_panics_fail _
    · exact not_panics_ok

end

theorem panics_checkpoint_bind :
    Panics (checkpointCu machine >>= next) ↔ machine.affords = true ∧ Panics (next machine.settled) := by
  simp only [panics_bind, not_panics_checkpointCu, false_or, checkpointCu_eq_ok]
  constructor
  · rintro ⟨after, ⟨affords, rfl⟩, panics⟩
    exact ⟨affords, panics⟩
  · intro both
    exact ⟨_, ⟨both.1, rfl⟩, both.2⟩

/-- What makes a decoded instruction abort; `machine` has it counted. -/
def Setting.opcodeHazard (setting : Setting) (machine : Machine) (instruction : Instruction) (regDst : BitVec 64) :
    Opcode → Bool
  | .neg width => !setting.program.sbpfVersion.negDisabled && negOverflows regDst width
  | .lddw =>
    !setting.program.sbpfVersion.lddwDisabled &&
      decide (machine.vm.pc + 1 < setting.program.instructions.length ∧ u64Max ≤ machine.vm.instructionCount)
  | .call =>
    machine.affords && !setting.program.callTargets.contains instruction.immediate &&
      decide (instruction.immediate = .intMin 32)
  | .syscall =>
    machine.affords && !setting.program.sbpfVersion.callxUsesSrcRegister &&
      decide (11 ≤ instruction.immediate.toNat % 16)
  | .exit =>
    machine.affords && machine.vm.callStack.isEmpty &&
      decide (setting.computeBudget < machine.vm.computeMeter - machine.segmentCu)
  | _ => false

/-- What makes an instruction abort: a register field outside the registers,
whatever the opcode makes of it, or a hazard of the opcode. -/
def Setting.instructionHazard (setting : Setting) (machine : Machine) (instruction : Instruction) : Bool :=
  decide (u64Max ≤ machine.vm.instructionCount) ||
    if within : instruction.dst.val < 11 ∧ instruction.src.val < 11 then
      (Opcode.fromRaw instruction.opcode).any
        (setting.opcodeHazard machine.counted instruction (machine.vm.registers ⟨instruction.dst.val, within.1⟩))
    else true

section

variable {setting : Setting}

@[simp] theorem panics_countInstruction :
    Panics (setting.countInstruction machine) ↔ u64Max ≤ machine.vm.instructionCount ∧ setting.overflowChecks = true :=
  panics_plain

theorem panics_syscallOrCallx : Panics (setting.syscallOrCallx machine immediate) ↔ machine.affords = true ∧
      setting.program.sbpfVersion.callxUsesSrcRegister = false ∧ 11 ≤ immediate.toNat % 16 := by
  rw [syscallOrCallx, panics_checkpoint_bind]
  refine and_congr_right fun _ => ?_
  cases setting.program.sbpfVersion.callxUsesSrcRegister with
  | true => simp
  | false =>
      rw [if_neg Bool.false_ne_true, panics_bind, panics_readRegister, eq_self, true_and]
      refine or_iff_left ?_
      rintro ⟨value, -, panics⟩
      split at panics
      · exact not_panics_enterFunction panics
      · split at panics
        · exact not_panics_syscall _ _ _ panics
        · exact not_panics_fail _ panics

theorem not_panics_advance (within : machine.vm.pc < u64Max) : ¬ Panics (setting.advance machine) := by
  rw [panics_advance]
  omega

theorem not_panics_branch : ¬ Panics (branch machine offset) := by
  rw [branch, panics_checkpoint_bind]
  exact fun both => not_panics_ok both.2

theorem not_panics_loadFrom (within : machine.vm.pc < u64Max) : ¬ Panics (setting.loadFrom machine size dst addr) := by
  unfold loadFrom
  split
  · exact not_panics_fail _
  · exact not_panics_advance within

theorem not_panics_storeAt (within : machine.vm.pc < u64Max) : ¬ Panics (setting.storeAt machine size addr value) := by
  unfold storeAt
  split
  · exact not_panics_fail _
  · exact not_panics_advance within

theorem readRegister_of_lt {vm : VmState} (within : index < 11) :
    vm.readRegister index = .ok (vm.registers ⟨index, within⟩) := dif_pos within

theorem panics_resolveTarget : Panics (setting.resolveTarget pc immediate) ↔
      setting.program.callTargets.contains immediate = false ∧ immediate = .intMin 32 ∧
        setting.overflowChecks = true := by
  rw [resolveTarget, Table.contains]
  cases found : setting.program.callTargets.get immediate with
  | some target => simp
  | none => simp [panics_bind, pure, Except.pure]

theorem panics_call : Panics (setting.call machine immediate) ↔ machine.affords = true ∧
      setting.program.callTargets.contains immediate = false ∧ immediate = .intMin 32 ∧
        setting.overflowChecks = true := by
  rw [call, panics_checkpoint_bind, panics_bind, panics_resolveTarget]
  refine and_congr_right fun _ => or_iff_left ?_
  rintro ⟨target, -, panics⟩
  cases target with
  | none => exact not_panics_syscall _ _ _ panics
  | some place => exact not_panics_enterFunction panics

theorem panics_exit : Panics (setting.exit machine) ↔ machine.affords = true ∧ machine.vm.callStack = [] ∧
      setting.computeBudget < machine.vm.computeMeter - machine.segmentCu ∧ setting.overflowChecks = true := by
  rw [exit, panics_checkpoint_bind]
  refine and_congr_right fun _ => ?_
  have stack : machine.settled.vm.callStack = machine.vm.callStack := rfl
  rw [stack]
  cases machine.vm.callStack with
  | nil =>
      rw [panics_bind, panics_plain]
      simp [Machine.settled]
  | cons frame callers =>
      simp only [reduceCtorEq, false_and, iff_false]
      split
      · exact not_panics_fail _
      · exact not_panics_ok

theorem panics_loadDouble :
    Panics (setting.loadDouble machine instruction) ↔ setting.program.sbpfVersion.lddwDisabled = false ∧
      (machine.vm.pc + 1 < setting.program.instructions.length ∧ u64Max ≤ machine.vm.instructionCount) ∧
      setting.overflowChecks = true := by
  unfold loadDouble
  cases setting.program.sbpfVersion.lddwDisabled with
  | true => simp
  | false =>
      rw [if_neg Bool.false_ne_true, eq_self, true_and]
      cases slot : setting.program.instructions[machine.vm.pc + 1]? with
      | none =>
          rw [getElem?_eq_none_iff] at slot
          simp only [not_panics_fail, false_iff]
          omega
      | some next =>
          obtain ⟨within, -⟩ := getElem?_eq_some_iff.mp slot
          simp [panics_bind, within, Machine.setRegister, VmState.setRegister, pure, Except.pure]

/-- Only the register that a call names is read without an overflow check. -/
theorem panics_perform (within : machine.vm.pc < u64Max) :
    Panics (setting.perform machine instruction opcode regDst regSrc) ↔
      setting.opcodeHazard machine instruction regDst opcode = true ∧
        (setting.overflowChecks = true ∨ opcode = .syscall) := by
  have moves : ∀ value, ¬ Panics (setting.advance (machine.setRegister instruction.dst value)) :=
    fun value => not_panics_advance within
  have calm : ∀ {computation : Except Stop Machine}, ¬ Panics computation →
      (Panics computation ↔ false = true ∧ (setting.overflowChecks = true ∨ opcode = .syscall)) :=
    fun safe => iff_of_false safe fun both => Bool.false_ne_true both.1
  cases opcode with
  | lddw =>
      simp only [perform, opcodeHazard, panics_loadDouble, Bool.and_eq_true, Bool.not_eq_true', decide_eq_true_eq,
        reduceCtorEq, or_false, and_assoc]
  | alu width operation operand | le =>
      refine calm ?_
      rw [perform]
      split
      · exact not_panics_fail _
      · exact moves _
  | neg width =>
      simp only [perform, opcodeHazard, Bool.and_eq_true, Bool.not_eq_true', reduceCtorEq, or_false]
      cases setting.program.sbpfVersion.negDisabled with
      | true => simp
      | false =>
          rw [if_neg Bool.false_ne_true, panics_bind, panics_plain, eq_self, true_and]
          refine or_iff_left ?_
          rintro ⟨value, -, panics⟩
          exact moves value panics
  | be => exact calm (moves _)
  | ldx size => exact calm (not_panics_loadFrom within)
  | st size | stx size => exact calm (not_panics_storeAt within)
  | ja => exact calm not_panics_branch
  | jump width comparison operand =>
      refine calm ?_
      rw [perform]
      split
      · exact not_panics_branch
      · exact not_panics_advance within
  | call =>
      simp only [perform, opcodeHazard, panics_call, Bool.and_eq_true, Bool.not_eq_true', decide_eq_true_eq, reduceCtorEq,
        or_false, and_assoc]
  | syscall =>
      simp only [perform, opcodeHazard, panics_syscallOrCallx, Bool.and_eq_true, Bool.not_eq_true', decide_eq_true_eq,
        or_true, and_true, and_assoc]
  | exit =>
      simp only [perform, opcodeHazard, panics_exit, Bool.and_eq_true, List.isEmpty_iff, decide_eq_true_eq, reduceCtorEq,
        or_false, and_assoc]

/-- A pass aborts only at a hazard, and at every hazard where overflows are checked. -/
theorem panics_turn (short : setting.program.instructions.length ≤ u64Max) :
    (Panics (setting.turn machine) →
      (setting.program.instructions[machine.vm.pc]?).any (setting.instructionHazard machine) = true) ∧
    (setting.overflowChecks = true →
      (setting.program.instructions[machine.vm.pc]?).any (setting.instructionHazard machine) = true →
      Panics (setting.turn machine)) := by
  unfold turn
  cases slot : setting.program.instructions[machine.vm.pc]? with
  | none => simp
  | some instruction =>
      obtain ⟨place, -⟩ := getElem?_eq_some_iff.mp slot
      have within := lt_of_lt_of_le place short
      simp only [Option.any_some, instructionHazard, Bool.or_eq_true, decide_eq_true_eq]
      by_cases room : u64Max ≤ machine.vm.instructionCount
      · exact ⟨fun _ => .inl room, fun checks _ => panics_bind.mpr (.inl (panics_countInstruction.mpr ⟨room, checks⟩))⟩
      rw [countInstruction_of_lt (Nat.lt_of_not_le room), panics_ok_bind, or_iff_right room]
      by_cases named : instruction.dst.val < 11 ∧ instruction.src.val < 11
      · rw [dif_pos named, readRegister_of_lt named.1, panics_ok_bind, readRegister_of_lt named.2, panics_ok_bind]
        cases Opcode.fromRaw instruction.opcode with
        | none => simp
        | some opcode =>
            have performed := @panics_perform setting machine.counted instruction opcode
            exact ⟨fun panics => ((performed within).mp panics).1,
              fun checks hazard => (performed within).mpr ⟨hazard, .inl checks⟩⟩
      · refine ⟨fun _ => by rw [dif_neg named], fun _ _ => ?_⟩
        by_cases first : instruction.dst.val < 11
        · rw [readRegister_of_lt first, panics_ok_bind]
          exact panics_bind.mpr (.inl (panics_readRegister.mpr (by omega)))
        · exact panics_bind.mpr (.inl (panics_readRegister.mpr (by omega)))

end

/-- What makes a pass abort: its instruction, or a dispatcher that leaves the
counter at its last value. -/
def Setting.hazard (setting : Setting) (dispatch : BitVec 32 → VmState → Except VmError Unit × VmState)
    (machine : Machine) : Bool :=
  (setting.program.instructions[machine.vm.pc]?).any (setting.instructionHazard machine) ||
    match setting.turn machine with
    | .error (.syscall _ id vm) => (dispatch id vm).1.isOk && u64Max ≤ (dispatch id vm).2.pc
    | _ => false

section

variable {setting : Setting}

theorem panics_step (short : setting.program.instructions.length ≤ u64Max) :
    (Panics (setting.step dispatch machine) → setting.hazard dispatch machine = true) ∧
    (setting.overflowChecks = true → setting.hazard dispatch machine = true →
      Panics (setting.step dispatch machine)) := by
  obtain ⟨stops, aborts⟩ := @panics_turn setting machine short
  rw [hazard, Bool.or_eq_true, step]
  cases turned : setting.turn machine with
  | ok next =>
      rw [turned] at aborts
      exact ⟨fun panics => absurd panics not_panics_ok, fun checks hazard =>
        aborts checks (hazard.resolve_right Bool.false_ne_true)⟩
  | error stop =>
      rw [turned] at stops aborts
      cases stop with
      | halt halt =>
          exact ⟨fun panics => .inl (stops panics), fun checks hazard =>
            aborts checks (hazard.resolve_right Bool.false_ne_true)⟩
      | syscall atCall id vm =>
          simp only [Bool.and_eq_true, decide_eq_true_eq, resume]
          obtain ⟨answer, after⟩ := dispatch id vm
          have plain : ∀ {more : Prop}, setting.overflowChecks = true →
              (setting.program.instructions[machine.vm.pc]?).any (setting.instructionHazard machine) = true ∨ more → more :=
            fun checks hazard => hazard.resolve_left fun found => not_panics_syscall _ _ _ (aborts checks found)
          cases answer with
          | error error =>
              refine ⟨fun panics => absurd panics (by simp), fun checks hazard => ?_⟩
              simpa [Except.isOk, Except.toBool] using plain checks hazard
          | ok done =>
              refine ⟨fun panics => .inr ?_, fun checks hazard => ?_⟩
              · simpa [Except.isOk, Except.toBool] using (panics_plain.mp panics).1
              · simpa [Except.isOk, Except.toBool, checks] using plain checks hazard

end

section

variable {program : LoadedProgram} {registeredSyscalls : List (BitVec 32)} {memory : MemoryMap} {computeBudget : Nat}

theorem execute_eq_some (nonempty : program.instructions ≠ []) {overflowChecks : Bool} :
    execute passes program memory computeBudget syscalls overflowChecks sysvarSnapshot programId = some halt ↔
      (program.setting computeBudget syscalls overflowChecks).runFor syscalls.dispatch passes
        (program.start memory computeBudget sysvarSnapshot programId) = .error (.halt halt) := by
  rw [execute, if_neg nonempty]
  split
  · rename_i found stopped
    rw [stopped]
    simp
  · rename_i other
    simp only [reduceCtorEq, false_iff]
    exact other halt

/-- A validated program returns with a result or an error exactly when no pass
that it reaches has a hazard, and the dispatcher sets the count of executed
instructions back only finitely often. -/
theorem validated_returns_iff (valid : validates program registeredSyscalls true = true) :
    (∃ passes halt, execute passes program memory computeBudget syscalls true sysvarSnapshot programId = some halt ∧
        halt ≠ .panicked) ↔
      (∀ passes machine, (program.setting computeBudget syscalls true).runFor syscalls.dispatch passes
          (program.start memory computeBudget sysvarSnapshot programId) = .ok machine →
        (program.setting computeBudget syscalls true).hazard syscalls.dispatch machine = false) ∧
      ∃ settled, ∀ passes machine, settled ≤ passes →
        (program.setting computeBudget syscalls true).runFor syscalls.dispatch passes
          (program.start memory computeBudget sysvarSnapshot programId) = .ok machine →
        (program.setting computeBudget syscalls true).setsBack syscalls.dispatch machine = false := by
  have nonempty := instructions_ne_nil_of_validates valid
  have short : program.instructions.length ≤ u64Max :=
    le_trans (length_le_of_validates valid) (by decide)
  simp only [execute_eq_some nonempty]
  generalize program.start memory computeBudget sysvarSnapshot programId = start
  have checks : (program.setting computeBudget syscalls true).overflowChecks = true := rfl
  have panics := @panics_step (program.setting computeBudget syscalls true) syscalls.dispatch
  constructor
  · rintro ⟨passes, halt, stopped, calm⟩
    constructor
    · intro before machine reached
      rw [← Bool.not_eq_true]
      intro hazard
      have aborted : (program.setting computeBudget syscalls true).runFor syscalls.dispatch (before + 1) start =
          .error (.halt .panicked) := by
        rw [runFor_succ, reached]
        exact (panics short).2 checks hazard
      have same := runFor_error_unique stopped aborted
      exact calm (Stop.halt.inj same)
    · refine ⟨passes, fun later machine past reached => ?_⟩
      obtain ⟨more, rfl⟩ := Nat.exists_eq_add_of_le past
      rw [runFor_add_of_error stopped] at reached
      cases reached
  · rintro ⟨calm, settled, keeps⟩
    have stops : ∃ passes stop, (program.setting computeBudget syscalls true).runFor syscalls.dispatch passes start =
        .error stop := by
      cases ran : (program.setting computeBudget syscalls true).runFor syscalls.dispatch settled start with
      | error stop => exact ⟨settled, stop, ran⟩
      | ok reached =>
          have later : ∀ more machine, (program.setting computeBudget syscalls true).runFor syscalls.dispatch more reached =
              .ok machine → (program.setting computeBudget syscalls true).setsBack syscalls.dispatch machine = false :=
            fun more machine goes => keeps (settled + more) machine (Nat.le_add_right _ _) ((runFor_add ran).trans goes)
          obtain ⟨more, stop, stopped⟩ := exists_runFor_error checks later
          exact ⟨settled + more, stop, (runFor_add ran).trans stopped⟩
    obtain ⟨passes, stop, stopped⟩ := stops
    obtain ⟨before, machine, reached, last⟩ := runFor_eq_error stopped
    obtain ⟨halt, rfl⟩ := step_eq_error last
    refine ⟨passes, halt, stopped, ?_⟩
    rintro rfl
    have hazard := (panics short).1 last
    rw [calm before machine reached] at hazard
    cases hazard

end

def singleInstruction (instruction : Instruction) : LoadedProgram :=
  { instructions := [instruction], rodata := [], entryPoint := 0, callTargets := .empty, sbpfVersion := .v0
    textBytes := [], textFileOffset := 0 }

def exitInstruction (dst : Nat) : Instruction := .assemble exitRaw dst 0 0 0

def blankSnapshot : SysvarSnapshot :=
  { slot := 0, slotsPerEpoch := 432000, firstNormalSlot := 0, lamportsPerByteYear := 3480, exempt := fun size => size
    recentBlockhash := .filled 32 0, lamportsPerSignature := 5000, activeFeatures := [] }

/-- A program that jumps over an instruction, stores a word at the bottom of the stack and exits. -/
def storingProgram : LoadedProgram :=
  { singleInstruction (exitInstruction 0) with
    instructions := [.assemble 0x05 0 0 1 0, .assemble 0xB7 0 0 0 1, .assemble 0x7A 10 0 (-4096) 7, exitInstruction 0] }

theorem storingProgram_reaches_no_hazard : validates storingProgram [] true = true ∧ ∀ passes machine,
      (storingProgram.setting 3 noSyscalls true).runFor noSyscalls.dispatch passes
        (storingProgram.start (.new [] 8 0 [] false) 3 blankSnapshot .zeroed) = .ok machine →
      (storingProgram.setting 3 noSyscalls true).hazard noSyscalls.dispatch machine = false := by
  have valid : validates storingProgram [] true = true := by decide
  exact ⟨valid, ((validated_returns_iff valid).mp ⟨3, .returned _, rfl, nofun⟩).1⟩

/-- An exit whose unused register field is 15 passes validation and aborts. -/
theorem exit_with_loose_field_panics : validates (singleInstruction (exitInstruction 15)) [] true = true ∧
      execute 1 (singleInstruction (exitInstruction 15)) (.new [] 4096 0 [] false) 1 noSyscalls true blankSnapshot .zeroed =
        some .panicked := ⟨by decide, rfl⟩

end Karstflow.Sbpf
