import Karstflow.Sbpf.InterpreterSafety

namespace Karstflow.Sbpf

open Data Karstflow.Types Setting

/-! What an execution is charged, compared with a meter that is asked before
every instruction. -/

def Instruction.slots (instruction : Instruction) : Nat :=
  if Opcode.fromRaw instruction.opcode = some .lddw then 2 else 1

/-- The weight of the instructions that up to `passes` passes execute, the one
that stops included. -/
def Setting.tally (setting : Setting) (dispatch : BitVec 32 → VmState → Except VmError Unit × VmState)
    (weigh : Instruction → Nat) : Nat → Machine → Nat
  | 0, _ => 0
  | passes + 1, machine =>
    match setting.program.instructions[machine.vm.pc]? with
    | none => 0
    | some instruction => weigh instruction + match setting.step dispatch machine with
      | .ok next => setting.tally dispatch weigh passes next
      | .error _ => 0

section

variable {setting : Setting} {machine : Machine} {passes : Nat}

theorem countInstruction_ok (counts : setting.countInstruction machine = .ok next) :
    next.vm.computeMeter = machine.vm.computeMeter ∧ next.vm.pc = machine.vm.pc ∧
      next.segmentCu = machine.segmentCu + 1 := by
  obtain ⟨-, rfl⟩ := plain_eq_ok.mp counts
  exact ⟨rfl, rfl, rfl⟩

/-- What a pass adds to the segment and takes off the meter is the slots of its
instruction, and a segment is no longer than the way to its end. -/
structure Charges (setting : Setting) (machine : Machine) (slots : Nat) (outcome : Except Stop Machine) : Prop where
  goesOn : ∀ next, outcome = .ok next →
    next.vm.computeMeter + (machine.segmentCu + slots) = machine.vm.computeMeter + next.segmentCu ∧
      (machine.segmentCu ≤ machine.vm.pc →
        next.segmentCu ≤ next.vm.pc ∧ next.segmentCu ≤ setting.program.instructions.length)
  returns : ∀ result, outcome = .error (.halt (.returned result)) →
    machine.segmentCu + slots ≤ machine.vm.computeMeter ∧ result.computeUnitsConsumed =
      (setting.computeBudget + (u64Max + 1) - (machine.vm.computeMeter - (machine.segmentCu + slots))) % (u64Max + 1)

theorem step_charges (sized : setting.program.instructions.length ≤ u64Max)
    (fetched : setting.program.instructions[machine.vm.pc]? = some instruction) :
    Charges setting machine instruction.slots (setting.step noSyscalls.dispatch machine) := by
  obtain ⟨halt, stopped, other⟩ | ⟨fetched', opcode, counted, again, decoded, counts, effect⟩ := @turn_cases setting machine
  · rw [step, stopped]
    refine ⟨fun _ moved => (by cases moved), ?_⟩
    rintro result ⟨⟩
    exact absurd rfl (other result)
  · obtain rfl : instruction = fetched' := Option.some.inj (fetched.symm.trans again)
    obtain ⟨meter, place, segment⟩ := countInstruction_ok counts
    have within := (getElem?_eq_some_iff.mp fetched).1
    have single : opcode ≠ .lddw → instruction.slots = 1 := fun single => by simp [Instruction.slots, decoded, single]
    rw [step]
    generalize setting.turn machine = outcome at effect
    cases effect with
    | halts halt charged =>
        refine ⟨fun _ moved => (by cases moved), ?_⟩
        rintro result ⟨⟩
        obtain ⟨plain, affords, consumed⟩ := charged rfl
        simp only [Machine.affords, Bool.and_eq_true, decide_eq_true_eq] at affords
        rw [single plain, ← segment, ← meter]
        exact ⟨affords.1, consumed⟩
    | moves plain _ metered placed segment' advanced =>
        refine ⟨?_, fun _ ended => (by cases ended)⟩
        rintro next ⟨⟩
        obtain ⟨-, rfl⟩ := plain_eq_ok.mp advanced
        have small : machine.vm.pc + 1 < u64Max + 1 := by omega
        simp only [metered, segment', placed, meter, place, segment, single plain, Nat.mod_eq_of_lt small, true_and]
        exact fun short => ⟨by omega, by omega⟩
    | doubles double second _ metered placed segment' again =>
        refine ⟨?_, fun _ ended => (by cases ended)⟩
        rintro next ⟨⟩
        obtain ⟨meter', place', segment''⟩ := countInstruction_ok again
        have two : instruction.slots = 2 := by simp [Instruction.slots, decoded, double]
        simp only [Machine.jump, meter', segment'', place', metered, segment', placed, meter, place, segment, two, add_assoc,
          Nat.reduceAdd, true_and]
        exact fun short => ⟨by omega, by omega⟩
    | settles plain affords _ metered ended =>
        refine ⟨?_, fun _ ended => (by cases ended)⟩
        rintro next ⟨⟩
        simp only [Machine.affords, Bool.and_eq_true, decide_eq_true_eq] at affords
        rw [metered, ended, single plain]
        simp only [Machine.settled]
        omega
    | asks atCall id plain affords => exact ⟨fun _ moved => (by cases moved), fun _ ended => (by cases ended)⟩

variable (sized : setting.program.instructions.length ≤ u64Max)
include sized

theorem tally_steps_le (short : machine.segmentCu ≤ machine.vm.pc) :
    setting.tally noSyscalls.dispatch (fun _ => 1) passes machine ≤
      machine.vm.computeMeter + (setting.program.instructions.length - machine.segmentCu) := by
  induction passes generalizing machine with
  | zero => exact Nat.zero_le _
  | succ passes ih =>
      rw [tally]
      split
      · exact Nat.zero_le _
      rename_i instruction fetched
      have within := (getElem?_eq_some_iff.mp fetched).1
      have charges := step_charges sized fetched
      have positive : 1 ≤ instruction.slots := by unfold Instruction.slots; split <;> decide
      split
      · rename_i next stepped
        obtain ⟨balance, shorter⟩ := charges.goesOn next stepped
        obtain ⟨short, small⟩ := shorter short
        have rest := @ih next short
        omega
      · omega

theorem tally_slots_of_returned
    (returned : setting.runFor noSyscalls.dispatch passes machine = .error (.halt (.returned result))) :
    machine.segmentCu + setting.tally noSyscalls.dispatch Instruction.slots passes machine ≤
        machine.vm.computeMeter ∧ result.computeUnitsConsumed = (setting.computeBudget + (u64Max + 1) -
      (machine.vm.computeMeter - (machine.segmentCu +
        setting.tally noSyscalls.dispatch Instruction.slots passes machine))) % (u64Max + 1) := by
  induction passes generalizing machine with
  | zero => cases returned
  | succ passes ih =>
      rw [tally]
      split
      · rename_i outside
        rw [runFor, step, turn, outside] at returned
        cases returned
      rename_i instruction fetched
      have charges := step_charges sized fetched
      split
      · rename_i next stepped
        rw [runFor, stepped] at returned
        obtain ⟨balance, -⟩ := charges.goesOn next stepped
        obtain ⟨enough, consumed⟩ := ih returned
        refine ⟨by omega, consumed.trans ?_⟩
        congr 2
        omega
      · rename_i stop stepped
        rw [runFor, stepped] at returned
        cases returned
        exact charges.returns result stepped

end

theorem le_tally_of_ok {setting : Setting} (ran : setting.runFor noSyscalls.dispatch passes machine = .ok reached) :
    passes ≤ setting.tally noSyscalls.dispatch (fun _ => 1) passes machine := by
  induction passes generalizing machine with
  | zero => exact Nat.zero_le _
  | succ passes ih =>
      obtain ⟨next, stepped, rest⟩ := bind_eq_ok.mp ran
      rw [tally]
      split
      · rename_i outside
        rw [step, turn, outside] at stepped
        cases stepped
      · rw [stepped]
        have later := ih rest
        simp only
        omega

/-- Passes after the last one execute nothing. -/
theorem tally_of_stopped {setting : Setting} {weigh : Instruction → Nat}
    (ran : setting.runFor dispatch before machine = .ok reached)
    (stopped : setting.step dispatch reached = .error stop) (more : Nat) :
    setting.tally dispatch weigh (before + 1 + more) machine = setting.tally dispatch weigh (before + 1) machine := by
  induction before generalizing machine with
  | zero =>
      cases ran
      rw [Nat.zero_add, Nat.add_comm, tally, tally, stopped]
  | succ before ih =>
      obtain ⟨next, stepped, rest⟩ := bind_eq_ok.mp ran
      have later := ih rest
      rw [Nat.add_right_comm] at later
      rw [Nat.succ_add, Nat.succ_add, tally, tally, stepped]
      simp only [later]

structure Launch where
  program : LoadedProgram
  memory : MemoryMap
  computeBudget : Nat
  overflowChecks : Bool
  sysvarSnapshot : SysvarSnapshot
  programId : Pubkey

namespace Launch

variable (launch : Launch) (passes : Nat)

def setting : Setting := launch.program.setting launch.computeBudget noSyscalls launch.overflowChecks

def start : Machine :=
  launch.program.start launch.memory launch.computeBudget launch.sysvarSnapshot launch.programId

def run : Option Halt :=
  execute passes launch.program launch.memory launch.computeBudget noSyscalls launch.overflowChecks
    launch.sysvarSnapshot launch.programId

/-- The weight of the instructions that are executed. -/
def executed (weigh : Instruction → Nat) : Nat := launch.setting.tally noSyscalls.dispatch weigh passes launch.start

/-- The run stops in time, a result is charged for its slots, and there is none
where a meter that is asked before every instruction would run dry. -/
structure MeteringExact : Prop where
  stops : launch.run passes ≠ none
  steps : launch.executed passes (fun _ => 1) ≤
    launch.computeBudget / cuPerInstruction + launch.program.instructions.length
  charged : ∀ result, launch.run passes = some (.returned result) →
    result.computeUnitsConsumed = cuPerInstruction * launch.executed passes Instruction.slots ∧
      result.computeUnitsConsumed ≤ launch.computeBudget
  exhausted : launch.computeBudget < cuPerInstruction * launch.executed passes Instruction.slots →
    ∃ error, launch.run passes = some (.failed error)

/-- No pass that is reached once the slots have passed the budget has a hazard. -/
def CalmPastBudget : Prop :=
  ∀ before machine, launch.setting.runFor noSyscalls.dispatch before launch.start = .ok machine →
    launch.computeBudget < cuPerInstruction * launch.executed (before + 1) Instruction.slots →
    launch.setting.hazard noSyscalls.dispatch machine = false

variable {launch passes}

theorem run_of_empty (empty : launch.program.instructions = []) :
    launch.run passes = some (.failed (.pcOutOfBounds 0 0)) := if_pos empty

theorem run_eq_some (nonempty : launch.program.instructions ≠ []) : launch.run passes = some halt ↔
    launch.setting.runFor noSyscalls.dispatch passes launch.start = .error (.halt halt) := execute_eq_some nonempty

theorem run_ne_none (sized : launch.program.instructions.length ≤ u64Max)
    (enough : launch.computeBudget + launch.program.instructions.length < passes) : launch.run passes ≠ none := by
  by_cases empty : launch.program.instructions = []
  · rw [run_of_empty empty]
    nofun
  cases ran : launch.setting.runFor noSyscalls.dispatch passes launch.start with
  | ok reached =>
      have steps := le_tally_of_ok ran
      have bounded := @tally_steps_le launch.setting launch.start passes sized (Nat.zero_le _)
      exact absurd (le_trans steps bounded) (Nat.not_le_of_lt enough)
  | error stop =>
      obtain ⟨_, _, -, last⟩ := runFor_eq_error ran
      obtain ⟨halt, rfl⟩ := step_eq_error last
      rw [(run_eq_some empty).mpr ran]
      nofun

theorem charged_of_returned (sized : launch.program.instructions.length ≤ u64Max)
    (budget : launch.computeBudget ≤ u64Max) {result : VmResult} (returned : launch.run passes = some (.returned result)) :
    result.computeUnitsConsumed = launch.executed passes Instruction.slots ∧
      launch.executed passes Instruction.slots ≤ launch.computeBudget := by
  have nonempty : launch.program.instructions ≠ [] := by
    intro empty
    rw [run_of_empty empty] at returned
    cases returned
  obtain ⟨paid, consumed⟩ := tally_slots_of_returned sized ((run_eq_some nonempty).mp returned)
  rw [show launch.start.segmentCu = 0 from rfl, zero_add] at paid consumed
  change launch.executed passes Instruction.slots ≤ launch.computeBudget at paid
  have rest : launch.computeBudget + (u64Max + 1) - (launch.computeBudget - launch.executed passes Instruction.slots) =
      launch.executed passes Instruction.slots + (u64Max + 1) := by omega
  refine ⟨consumed.trans ((congrArg (· % (u64Max + 1)) rest).trans ?_), paid⟩
  exact (Nat.add_mod_right _ _).trans (Nat.mod_eq_of_lt (by omega))

theorem executed_of_stopped {weigh : Instruction → Nat}
    (ran : launch.setting.runFor noSyscalls.dispatch before launch.start = .ok machine)
    (stopped : launch.setting.step noSyscalls.dispatch machine = .error stop) (within : before < passes) :
    launch.executed passes weigh = launch.executed (before + 1) weigh := by
  obtain ⟨more, rfl⟩ := Nat.exists_eq_add_of_lt within
  rw [Nat.add_right_comm]
  exact tally_of_stopped ran stopped more

theorem before_lt (sized : launch.program.instructions.length ≤ u64Max)
    (enough : launch.computeBudget + launch.program.instructions.length < passes)
    (ran : launch.setting.runFor noSyscalls.dispatch before launch.start = .ok machine) : before < passes :=
  lt_of_le_of_lt (le_trans (le_tally_of_ok ran) (tally_steps_le sized (Nat.zero_le _))) enough

/-- Metering by segments is exact if the program meets no hazard after its
budget is used up, in a segment that has not been charged yet; and only then,
where overflows are checked. -/
theorem meteringExact_iff (sized : launch.program.instructions.length ≤ u64Max) (budget : launch.computeBudget ≤ u64Max)
    (enough : launch.computeBudget + launch.program.instructions.length < passes) :
    (launch.CalmPastBudget → launch.MeteringExact passes) ∧
      (launch.overflowChecks = true → (launch.MeteringExact passes ↔ launch.CalmPastBudget)) := by
  have stops := run_ne_none sized enough
  have panics := fun machine => @panics_step launch.setting noSyscalls.dispatch machine sized
  have sufficient : launch.CalmPastBudget → launch.MeteringExact passes := by
    intro calm
    refine ⟨stops, ?_, ?_, ?_⟩
    · rw [cuPerInstruction, Nat.div_one]
      exact tally_steps_le sized (Nat.zero_le _)
    · intro result returned
      obtain ⟨consumed, paid⟩ := charged_of_returned sized budget returned
      rw [cuPerInstruction, one_mul, consumed]
      exact ⟨rfl, paid⟩
    · intro exceeds
      cases ended : launch.run passes with
      | none => exact absurd ended stops
      | some halt =>
          cases halt with
          | returned result =>
              rw [cuPerInstruction, one_mul] at exceeds
              exact absurd (charged_of_returned sized budget ended).2 (Nat.not_le_of_lt exceeds)
          | failed error => exact ⟨error, rfl⟩
          | panicked =>
              have nonempty : launch.program.instructions ≠ [] := by
                intro empty
                rw [run_of_empty empty] at ended
                cases ended
              obtain ⟨before, machine, ran, last⟩ := runFor_eq_error ((run_eq_some nonempty).mp ended)
              rw [executed_of_stopped ran last (before_lt sized enough ran)] at exceeds
              exact absurd ((panics machine).1 last) (by rw [calm before machine ran exceeds]; exact Bool.false_ne_true)
  refine ⟨sufficient, fun checks => ⟨?_, sufficient⟩⟩
  intro metered before machine ran exceeds
  have nonempty : launch.program.instructions ≠ [] := by
    intro empty
    rw [executed, tally, show launch.setting.program.instructions = [] from empty] at exceeds
    exact absurd exceeds (Nat.not_lt_zero _)
  rw [← Bool.not_eq_true]
  intro hazard
  have last := (panics machine).2 checks hazard
  rw [← executed_of_stopped ran last (before_lt sized enough ran)] at exceeds
  obtain ⟨error, failed⟩ := metered.exhausted exceeds
  have aborted : launch.setting.runFor noSyscalls.dispatch (before + 1) launch.start = .error (.halt .panicked) := by
    rw [runFor_succ, ran]
    exact last
  cases runFor_error_unique ((run_eq_some nonempty).mp failed) aborted

def bare (instructions : List Instruction) (computeBudget : Nat) : Launch :=
  { program := { singleInstruction (exitInstruction 0) with instructions }, memory := .new [] 8 0 [] false
    computeBudget, overflowChecks := true, sysvarSnapshot := blankSnapshot, programId := .zeroed }

/-- The third of three slots is past the budget, and no hazard. -/
theorem storingProgram_meteringExact : (bare storingProgram.instructions 2).MeteringExact 7 := by
  have calm : ∀ before < 7, ((bare storingProgram.instructions 2).setting.runFor noSyscalls.dispatch before
      (bare storingProgram.instructions 2).start).toOption.all
        (fun machine => !(bare storingProgram.instructions 2).setting.hazard noSyscalls.dispatch machine) = true := by
    decide +kernel
  refine (meteringExact_iff (by decide) (by decide) (by decide)).1 ?_
  intro before machine ran _
  have here := calm before (before_lt (by decide) (by decide) ran)
  rw [ran] at here
  simpa [Except.toOption] using here

/-- A meter that is asked before every instruction stops at the second one. The
segment runs on, into an instruction that aborts. -/
theorem aborts_past_budget : ¬ (bare [.assemble 0xB7 0 0 0 0, .assemble 0xB7 0 0 0 0, exitInstruction 15] 1).MeteringExact 5 := by
  intro metered
  obtain ⟨error, failed⟩ := metered.exhausted (by decide)
  cases failed

end Launch

end Karstflow.Sbpf
