import Karstflow.Sbpf.Interpreter

namespace Karstflow.Sbpf

open Data Karstflow.Types Setting

/-! How the interpreter gets on: what each pass counts and deducts, and that a
run comes to an end. -/

section

variable {setting : Setting}

theorem plain_eq_ok [Decidable overflows] : setting.plain overflows value = .ok result ↔
      ¬ (overflows ∧ setting.overflowChecks = true) ∧ value = result := by
  by_cases stops : overflows ∧ setting.overflowChecks = true
  · simp [plain, stops]
  · simp [plain, stops]

end

/-- The units of the segment are there, and the limit is not passed. -/
def Machine.affords (machine : Machine) : Bool :=
  machine.segmentCu ≤ machine.vm.computeMeter && machine.vm.instructionCount ≤ maxInstructions

/-- The machine with the segment deducted. -/
def Machine.settled (machine : Machine) : Machine :=
  { vm := { machine.vm with computeMeter := machine.vm.computeMeter - machine.segmentCu }, segmentCu := 0 }

theorem checkpointCu_eq_ok : checkpointCu machine = .ok next ↔ machine.affords = true ∧ machine.settled = next := by
  simp only [Machine.affords, Bool.and_eq_true, decide_eq_true_eq]
  unfold checkpointCu
  split
  · simp only [reduceCtorEq, false_iff]
    omega
  split
  · simp only [reduceCtorEq, false_iff]
    omega
  simp only [Except.ok.injEq, Machine.settled]
  constructor
  · intro same
    exact ⟨by omega, same⟩
  · intro both
    exact both.2

def Machine.counted (machine : Machine) : Machine :=
  { vm := { machine.vm with instructionCount := machine.vm.instructionCount + 1 }
    segmentCu := machine.segmentCu + cuPerInstruction }

section

variable {setting : Setting}

theorem countInstruction_of_lt (room : machine.vm.instructionCount < u64Max) :
    setting.countInstruction machine = .ok machine.counted := by
  rw [countInstruction, plain_eq_ok, Nat.mod_eq_of_lt (Nat.succ_lt_succ room)]
  exact ⟨fun full => Nat.not_le_of_lt room full.1, rfl⟩

theorem countInstruction_eq_ok (checks : setting.overflowChecks = true) :
    setting.countInstruction machine = .ok counted ↔
      machine.vm.instructionCount < u64Max ∧ machine.counted = counted := by
  rw [countInstruction, plain_eq_ok, checks]
  by_cases full : u64Max ≤ machine.vm.instructionCount
  · simp [full]
  · have small : machine.vm.instructionCount + 1 < u64Max + 1 := by omega
    simp only [full, false_and, not_false_eq_true, true_and, Nat.mod_eq_of_lt small, Machine.counted]
    simp [Nat.lt_of_not_le full]

end

/-- What an instruction can do to the counters: stop, move on by one slot, load
from two slots, end the segment and go elsewhere, or end it and ask the
dispatcher. -/
inductive Effect (setting : Setting) (opcode : Opcode) (before : Machine) : Except Stop Machine → Prop where
  | halts (halt : Halt)
      (charged : ∀ {result}, halt = .returned result → opcode ≠ .lddw ∧ before.affords = true ∧
        result.computeUnitsConsumed =
          (setting.computeBudget + (u64Max + 1) - before.settled.vm.computeMeter) % (u64Max + 1)) :
      Effect setting opcode before (.error (.halt halt))
  | moves {moved next : Machine} (single : opcode ≠ .lddw)
      (counted : moved.vm.instructionCount = before.vm.instructionCount)
      (metered : moved.vm.computeMeter = before.vm.computeMeter) (placed : moved.vm.pc = before.vm.pc)
      (segment : moved.segmentCu = before.segmentCu) (advanced : setting.advance moved = .ok next) :
      Effect setting opcode before (.ok next)
  | doubles {moved next : Machine} (double : opcode = .lddw)
      (second : before.vm.pc + 1 < setting.program.instructions.length)
      (counted : moved.vm.instructionCount = before.vm.instructionCount)
      (metered : moved.vm.computeMeter = before.vm.computeMeter) (placed : moved.vm.pc = before.vm.pc)
      (segment : moved.segmentCu = before.segmentCu) (again : setting.countInstruction moved = .ok next) :
      Effect setting opcode before (.ok (next.jump (next.vm.pc + 2)))
  | settles {next : Machine} (single : opcode ≠ .lddw) (affords : before.affords = true)
      (counted : next.vm.instructionCount = before.vm.instructionCount)
      (metered : next.vm.computeMeter = before.settled.vm.computeMeter) (ended : next.segmentCu = 0) :
      Effect setting opcode before (.ok next)
  | asks (atCall : Bool) (id : BitVec 32) (single : opcode ≠ .lddw) (affords : before.affords = true) :
      Effect setting opcode before (.error (.syscall atCall id before.settled.vm))

section

variable
  {vm : VmState}

theorem Effect.fail (error : VmError) : Effect setting opcode machine (.error (.fail error)) := .halts _ nofun

theorem Effect.panic : Effect setting opcode machine (.error (.halt .panicked)) := .halts _ nofun

theorem Effect.checkpoint (later : machine.affords = true → Effect setting opcode machine (rest machine.settled)) :
    Effect setting opcode machine (checkpointCu machine >>= rest) := by
  cases checked : checkpointCu machine with
  | error stop =>
    unfold checkpointCu at checked
    split at checked
    · cases checked
      exact .fail _
    · split at checked
      · cases checked
        exact .fail _
      · cases checked
  | ok settled =>
    obtain ⟨affords, rfl⟩ := checkpointCu_eq_ok.mp checked
    exact later affords

theorem Effect.plain [Decidable overflows] {value : α}
    {rest : α → Except Stop Machine} (later : Effect setting opcode machine (rest value)) :
    Effect setting opcode machine (setting.plain overflows value >>= rest) := by
  unfold Setting.plain
  split
  · exact .panic
  · exact later

theorem Effect.readRegister (later : ∀ value, Effect setting opcode machine (rest value)) :
    Effect setting opcode machine (vm.readRegister index >>= rest) := by
  unfold VmState.readRegister
  split
  · exact later _
  · exact .panic

theorem Effect.advance (single : opcode ≠ .lddw) (counted : moved.vm.instructionCount = machine.vm.instructionCount)
    (metered : moved.vm.computeMeter = machine.vm.computeMeter) (placed : moved.vm.pc = machine.vm.pc)
    (segment : moved.segmentCu = machine.segmentCu) : Effect setting opcode machine (setting.advance moved) := by
  cases advanced : setting.advance moved with
  | error stop =>
    unfold Setting.advance Setting.plain at advanced
    split at advanced
    · cases advanced
      exact .panic
    · cases advanced
  | ok next => exact .moves single counted metered placed segment advanced

theorem enterFunction_eq_ok (entered : enterFunction machine targetPc = .ok next) :
    ∃ memory, machine.vm.memory.pushFrame = .ok memory ∧
      next = { machine with vm := machine.vm.entered memory targetPc } := by
  unfold enterFunction at entered
  split at entered
  · cases entered
  split at entered
  · cases entered
  · rename_i memory pushed
    cases entered
    exact ⟨memory, pushed, rfl⟩

theorem Effect.enterFunction (single : opcode ≠ .lddw) (affords : machine.affords = true) :
    Effect setting opcode machine (enterFunction machine.settled targetPc) := by
  cases entered : Sbpf.enterFunction machine.settled targetPc with
  | error stop =>
    unfold Sbpf.enterFunction at entered
    split at entered
    · cases entered
      exact .fail _
    · split at entered
      · cases entered
        exact .fail _
      · cases entered
  | ok next =>
    obtain ⟨memory, -, rfl⟩ := enterFunction_eq_ok entered
    exact .settles single affords rfl rfl rfl

theorem call_effect (single : opcode ≠ .lddw) : Effect setting opcode machine (setting.call machine immediate) := by
  refine .checkpoint fun affords => ?_
  unfold resolveTarget
  cases setting.program.callTargets.get immediate with
  | some target => exact .enterFunction single affords
  | none =>
    simp only [bind_assoc]
    refine .plain ?_
    split
    · exact .enterFunction single affords
    · exact .asks _ _ single affords

theorem syscallOrCallx_effect (single : opcode ≠ .lddw) :
    Effect setting opcode machine (setting.syscallOrCallx machine immediate) := by
  refine .checkpoint fun affords => ?_
  split
  · exact .asks _ _ single affords
  refine .readRegister fun value => ?_
  split
  · exact .enterFunction single affords
  · split
    · exact .asks _ _ single affords
    · exact .fail _

theorem exit_effect (single : opcode ≠ .lddw) : Effect setting opcode machine (setting.exit machine) := by
  refine .checkpoint fun affords => ?_
  split
  · refine .plain (.halts _ ?_)
    rintro result ⟨⟩
    exact ⟨single, affords, rfl⟩
  · split
    · exact .fail _
    · exact .settles single affords rfl rfl rfl

theorem loadDouble_effect (double : opcode = .lddw) :
    Effect setting opcode machine (setting.loadDouble machine instruction) := by
  unfold loadDouble
  split
  · exact .fail _
  split
  · exact .fail _
  rename_i slot second
  cases again : setting.countInstruction
      (machine.setRegister instruction.dst (slot.immediate ++ instruction.immediate)) with
  | error stop =>
    unfold countInstruction plain at again
    split at again
    · cases again
      exact .panic
    · cases again
  | ok next =>
    have within := (getElem?_eq_some_iff.mp second).1
    refine .doubles double within ?_ ?_ ?_ ?_ again
    all_goals rfl

theorem perform_effect : Effect setting opcode machine (setting.perform machine instruction opcode regDst regSrc) := by
  cases opcode with
  | lddw => exact loadDouble_effect rfl
  | alu width operation operand | le =>
    rw [perform]
    split
    · exact .fail _
    · exact .advance nofun rfl rfl rfl rfl
  | neg width =>
    rw [perform]
    split
    · exact .fail _
    · exact .plain (.advance nofun rfl rfl rfl rfl)
  | be => exact .advance nofun rfl rfl rfl rfl
  | ldx size =>
    rw [perform, loadFrom]
    split
    · exact .fail _
    · exact .advance nofun rfl rfl rfl rfl
  | st size | stx size =>
    rw [perform, storeAt]
    split
    · exact .fail _
    · exact .advance nofun rfl rfl rfl rfl
  | ja => exact .checkpoint fun affords => .settles nofun affords rfl rfl rfl
  | jump width comparison operand =>
    rw [perform]
    split
    · exact .checkpoint fun affords => .settles nofun affords rfl rfl rfl
    · exact .advance nofun rfl rfl rfl rfl
  | call => exact call_effect nofun
  | syscall => exact syscallOrCallx_effect nofun
  | exit => exact exit_effect nofun

end

/-- What an instruction does to the counters: what it counts it adds to the
segment, what it takes off the segment it takes off the meter, and past the
limit of instructions it can only move on. -/
structure Progress (before after : Machine) : Prop where
  counted : before.vm.instructionCount ≤ after.vm.instructionCount
  balanced : after.vm.instructionCount + after.vm.computeMeter + before.segmentCu =
    before.vm.instructionCount + before.vm.computeMeter + after.segmentCu
  onward : maxInstructions < before.vm.instructionCount → before.vm.pc < after.vm.pc

section

variable {setting : Setting}

/-- The machine at a syscall, which ends a segment. -/
def VmState.asMachine (vm : VmState) : Machine := { vm := vm, segmentCu := 0 }

theorem Progress.of_settled (affords : machine.affords = true) (counted : next.vm.instructionCount = machine.vm.instructionCount)
    (metered : next.vm.computeMeter = machine.settled.vm.computeMeter) (ended : next.segmentCu = 0) :
    Progress machine next := by
  simp only [Machine.affords, Bool.and_eq_true, decide_eq_true_eq] at affords
  simp only [Machine.settled] at metered
  refine ⟨counted.ge, ?_, fun past => absurd past (not_lt.mpr affords.2)⟩
  omega

theorem advance_progress (checks : setting.overflowChecks = true) (advanced : setting.advance machine = .ok next) :
    Progress machine next := by
  rw [advance, plain_eq_ok, checks] at advanced
  obtain ⟨room, rfl⟩ := advanced
  simp only [and_true, not_le] at room
  refine ⟨le_refl _, rfl, fun _ => ?_⟩
  have small : machine.vm.pc + 1 < u64Max + 1 := by omega
  exact lt_of_lt_of_eq (Nat.lt_succ_self _) (Nat.mod_eq_of_lt small).symm

theorem countInstruction_progress (checks : setting.overflowChecks = true)
    (again : setting.countInstruction machine = .ok next) : Progress machine (next.jump (next.vm.pc + 2)) := by
  obtain ⟨-, rfl⟩ := (countInstruction_eq_ok checks).mp again
  refine ⟨Nat.le_succ _, ?_, fun _ => Nat.lt_add_of_pos_right (by decide)⟩
  simp only [Machine.jump, Machine.counted, cuPerInstruction]
  omega

/-- The same of a whole pass: if it goes on, and if it asks the dispatcher. -/
structure Advances (before : Machine) (outcome : Except Stop Machine) : Prop where
  goesOn : ∀ {after}, outcome = .ok after → Progress before after
  asks : ∀ {atCall id vm}, outcome = .error (.syscall atCall id vm) →
    Progress before vm.asMachine ∧ before.affords = true

theorem Progress.congr (progress : Progress moved next)
    (counted : moved.vm.instructionCount = machine.vm.instructionCount)
    (metered : moved.vm.computeMeter = machine.vm.computeMeter) (placed : moved.vm.pc = machine.vm.pc)
    (segment : moved.segmentCu = machine.segmentCu) : Progress machine next := by
  obtain ⟨first, second, third⟩ := progress
  rw [counted] at first third
  rw [counted, metered, segment] at second
  rw [placed] at third
  exact ⟨first, second, third⟩

theorem Advances.ok (progress : Progress machine next) : Advances machine (.ok next) := by
  refine ⟨?_, nofun⟩
  rintro after ⟨⟩
  exact progress

theorem Effect.advances (checks : setting.overflowChecks = true) (effect : Effect setting opcode machine outcome) :
    Advances machine outcome := by
  cases effect with
  | halts halt charged => exact ⟨nofun, nofun⟩
  | moves single counted metered placed segment advanced =>
    exact .ok ((advance_progress checks advanced).congr counted metered placed segment)
  | doubles double second counted metered placed segment again =>
    exact .ok ((countInstruction_progress checks again).congr counted metered placed segment)
  | settles single affords counted metered ended => exact .ok (.of_settled affords counted metered ended)
  | asks atCall id single affords =>
    refine ⟨nofun, ?_⟩
    rintro otherCall otherId otherVm ⟨⟩
    exact ⟨.of_settled affords rfl rfl rfl, affords⟩

end

section

variable {setting : Setting}

theorem turn_cases : (∃ halt, setting.turn machine = .error (.halt halt) ∧ ∀ result, halt ≠ .returned result) ∨
    ∃ instruction opcode counted, setting.program.instructions[machine.vm.pc]? = some instruction ∧
      Opcode.fromRaw instruction.opcode = some opcode ∧ setting.countInstruction machine = .ok counted ∧
      Effect setting opcode counted (setting.turn machine) := by
  rw [turn]
  cases fetched : setting.program.instructions[machine.vm.pc]? with
  | none => exact .inl ⟨_, rfl, nofun⟩
  | some instruction =>
    cases counts : setting.countInstruction machine with
    | error stop =>
      unfold countInstruction plain at counts
      split at counts
      · cases counts
        exact .inl ⟨_, rfl, nofun⟩
      · cases counts
    | ok counted =>
      simp only [bind, Except.bind]
      cases dst : counted.vm.readRegister instruction.dst with
      | error stop =>
        unfold VmState.readRegister at dst
        split at dst
        · cases dst
        · cases dst
          exact .inl ⟨_, rfl, nofun⟩
      | ok regDst =>
        cases src : counted.vm.readRegister instruction.src with
        | error stop =>
          unfold VmState.readRegister at src
          split at src
          · cases src
          · cases src
            exact .inl ⟨_, rfl, nofun⟩
        | ok regSrc =>
          cases decoded : Opcode.fromRaw instruction.opcode with
          | none => exact .inl ⟨_, rfl, nofun⟩
          | some opcode => exact .inr ⟨instruction, opcode, counted, rfl, decoded, rfl, perform_effect⟩

theorem turn_advances (checks : setting.overflowChecks = true) : Advances machine.counted (setting.turn machine) := by
  rcases @turn_cases setting machine with
    ⟨halt, stopped, -⟩ | ⟨instruction, opcode, counted, -, -, counts, effect⟩
  · rw [stopped]
    exact ⟨nofun, nofun⟩
  · obtain ⟨-, rfl⟩ := (countInstruction_eq_ok checks).mp counts
    exact effect.advances checks

theorem turn_of_le (outside : setting.program.instructions.length ≤ machine.vm.pc) : setting.turn machine =
      .error (.fail (.pcOutOfBounds machine.vm.pc setting.program.instructions.length)) := by
  rw [turn, List.getElem?_eq_none outside]

end

/-- The pass asks the dispatcher, which sets the count of instructions back. -/
def Setting.setsBack (setting : Setting) (dispatch : BitVec 32 → VmState → Except VmError Unit × VmState)
    (machine : Machine) : Bool :=
  match setting.turn machine with
  | .error (.syscall _ id vm) => (dispatch id vm).2.instructionCount < vm.instructionCount
  | _ => false

section

variable {setting : Setting}

theorem step_eq_error (stopped : setting.step dispatch machine = .error stop) : ∃ halt, stop = .halt halt := by
  unfold step at stopped
  split at stopped
  · unfold resume at stopped
    split at stopped
    · cases stopped
      exact ⟨_, rfl⟩
    unfold advance plain at stopped
    split at stopped
    · cases stopped
      exact ⟨_, rfl⟩
    · cases stopped
  · rename_i other
    cases stop with
    | halt halt => exact ⟨halt, rfl⟩
    | syscall atCall id vm => exact absurd stopped (other atCall id vm)

/-- A pass that goes on has counted, and has only moved on once the limit is
reached. -/
theorem step_moves (checks : setting.overflowChecks = true) (stepped : setting.step dispatch machine = .ok next)
    (keeps : setting.setsBack dispatch machine = false) : machine.vm.instructionCount < next.vm.instructionCount ∧
      (maxInstructions ≤ machine.vm.instructionCount → machine.vm.pc < next.vm.pc) := by
  have advances : Advances machine.counted (setting.turn machine) := turn_advances checks
  unfold step at stepped
  unfold setsBack at keeps
  cases turned : setting.turn machine with
  | ok after =>
    rw [turned] at stepped
    cases stepped
    obtain ⟨counted, -, onward⟩ := advances.goesOn turned
    exact ⟨counted, fun full => onward (Nat.lt_succ_of_le full)⟩
  | error stop =>
    cases stop with
    | halt halt =>
      rw [turned] at stepped
      cases stepped
    | syscall atCall id vm =>
      rw [turned] at stepped keeps
      have resumed : setting.resume atCall id (dispatch id vm) = .ok next := stepped
      obtain ⟨⟨counted, -, -⟩, affords⟩ := advances.asks turned
      simp only [decide_eq_false_iff_not, not_lt] at keeps
      simp only [Machine.affords, Bool.and_eq_true, decide_eq_true_eq] at affords
      have under : machine.vm.instructionCount + 1 ≤ maxInstructions := affords.2
      have kept := counted
      refine ⟨?_, fun full => absurd full (by omega)⟩
      generalize dispatch id vm = answered at resumed keeps
      obtain ⟨answer, after⟩ := answered
      cases answer with
      | error error => cases resumed
      | ok done =>
        obtain ⟨same, -, -⟩ := advance_progress checks resumed
        exact lt_of_lt_of_le kept (le_trans keeps same)

theorem runFor_succ : setting.runFor dispatch (passes + 1) machine =
    (setting.runFor dispatch passes machine >>= setting.step dispatch) := by
  induction passes generalizing machine with
  | zero => exact bind_pure (setting.step dispatch machine)
  | succ passes ih =>
    rw [runFor]
    conv_rhs => rw [runFor]
    cases setting.step dispatch machine with
    | error stop => rfl
    | ok next => exact ih

theorem runFor_succ_eq_ok : setting.runFor dispatch (passes + 1) machine = .ok next ↔
    ∃ reached, setting.runFor dispatch passes machine = .ok reached ∧ setting.step dispatch reached = .ok next := by
  rw [runFor_succ, bind_eq_ok]

theorem runFor_add (ran : setting.runFor dispatch passes machine = .ok next) :
    setting.runFor dispatch (passes + more) machine = setting.runFor dispatch more next := by
  induction more with
  | zero => exact ran
  | succ more ih => rw [← add_assoc, runFor_succ, ih, ← runFor_succ]

section

variable (stopped : setting.runFor dispatch passes machine = .error stop)

include stopped

theorem runFor_add_of_error (more : Nat) : setting.runFor dispatch (passes + more) machine = .error stop := by
  induction more with
  | zero => exact stopped
  | succ more ih => rw [← add_assoc, runFor_succ, ih]; rfl

theorem runFor_error_unique (again : setting.runFor dispatch others machine = .error other) : stop = other := by
  have first := runFor_add_of_error stopped others
  have second := runFor_add_of_error again passes
  rw [add_comm, second] at first
  cases first
  rfl

theorem runFor_eq_error : ∃ before reached, setting.runFor dispatch before machine = .ok reached ∧
      setting.step dispatch reached = .error stop := by
  induction passes with
  | zero => cases stopped
  | succ passes ih =>
    cases ran : setting.runFor dispatch passes machine with
    | error earlier =>
      rw [runFor_succ, ran] at stopped
      cases stopped
      exact ih ran
    | ok reached =>
      rw [runFor_succ, ran] at stopped
      exact ⟨passes, reached, ran, stopped⟩

end

section

variable (checks : setting.overflowChecks = true)
  (keeps : ∀ passes reached, setting.runFor dispatch passes machine = .ok reached →
    setting.setsBack dispatch reached = false)
include checks keeps

theorem le_count_runFor (ran : setting.runFor dispatch passes machine = .ok next) :
    passes ≤ next.vm.instructionCount := by
  induction passes generalizing next with
  | zero => exact Nat.zero_le _
  | succ passes ih =>
    obtain ⟨reached, before, stepped⟩ := runFor_succ_eq_ok.mp ran
    obtain ⟨counted, -⟩ := step_moves checks stepped (keeps passes reached before)
    exact lt_of_le_of_lt (ih before) counted

theorem le_pc_runFor (ran : setting.runFor dispatch (maxInstructions + more) machine = .ok next) :
    more ≤ next.vm.pc := by
  induction more generalizing next with
  | zero => exact Nat.zero_le _
  | succ more ih =>
    obtain ⟨reached, before, stepped⟩ := runFor_succ_eq_ok.mp ran
    have counted := le_count_runFor checks keeps before
    obtain ⟨-, onward⟩ := step_moves checks stepped (keeps _ reached before)
    exact lt_of_le_of_lt (ih before) (onward (le_trans (Nat.le_add_right _ _) counted))

theorem exists_runFor_error : ∃ passes stop, setting.runFor dispatch passes machine = .error stop := by
  cases ran : setting.runFor dispatch (maxInstructions + setting.program.instructions.length) machine with
  | error stop => exact ⟨_, stop, ran⟩
  | ok reached =>
    have outside := le_pc_runFor checks keeps ran
    have stopped : setting.step dispatch reached = setting.turn reached := by
      rw [step, turn_of_le outside]
      rfl
    refine ⟨maxInstructions + setting.program.instructions.length + 1,
      .fail (.pcOutOfBounds reached.vm.pc setting.program.instructions.length), ?_⟩
    rw [runFor_succ, ran]
    exact stopped.trans (turn_of_le outside)

end

end

end Karstflow.Sbpf
