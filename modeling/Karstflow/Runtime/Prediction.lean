import Karstflow.Runtime.Landing
import Karstflow.Runtime.Simulation

namespace Karstflow.Runtime

open Data Karstflow.Types Sbpf Execution AccountEntry List
open Option hiding all_eq_true any_map map_map

/-! What a simulation predicts of an execution. The two loops differ in the
code that is brought along for an upgradeable program, and in the balance of
the fee payer. -/

/-- An account, without its balance if it is the fee payer's. -/
def blankAccount (feePayer key : Pubkey) (account : Account) : Account :=
  if key = feePayer then account.setLamports 0 else account

def AccountEntry.blank (feePayer : Pubkey) (entry : AccountEntry) : AccountEntry :=
  { entry with account := blankAccount feePayer entry.pubkey entry.account }

def InstructionInfo.blank (feePayer : Pubkey) (info : InstructionInfo) : InstructionInfo :=
  { info with accounts := info.accounts.map (.blank feePayer) }

/-- The answers do not depend on the lamports of the fee payer. -/
def Indifferent (feePayer : Pubkey) (backend : Backend) : Prop :=
  ∀ left right remaining, left.blank feePayer = right.blank feePayer →
    backend left remaining = backend right remaining

def feePayerOf (transaction : SanitizedTransaction) : Pubkey := transaction.accountKeys.headD .zeroed

/-- The simulation ends without an error and reports what the execution did,
except that it debits no fee and leaves closed accounts as they are. -/
structure Predicts (ledger : Ledger) (feePayer : Pubkey) (result : TransactionExecutionResult)
    (simulated : TransactionSimulationResult) : Prop where
  error : simulated.error = none
  logs : simulated.logs = result.logs
  computeUnitsConsumed : simulated.computeUnitsConsumed = result.computeUnitsConsumed
  returnData : simulated.returnData = result.returnData
  accounts : ∀ key, key ≠ feePayer →
    result.modifiedAccounts.get key = (simulated.modifiedAccounts.get key).map reclaim
  payer : ∃ account, ledger.shared.published.get feePayer = some account ∧
    result.modifiedAccounts.get feePayer =
      some (reclaim ((simulated.modifiedAccounts.get feePayer).getD (account.debit result.fee)))

namespace Execution

variable (execution : Execution)

/-- The fee payer is a sysvar for those who load it. -/
def payerCached (feePayer : Pubkey) : Bool :=
  execution.ledger.shared.sysvars.isSome && feePayer ∈ sysvarIds

/-- The accounts that a question names are enough: no code is brought along,
and the fee payer is not taken for a sysvar. -/
def plainQuestion (feePayer : Pubkey) (modified : Modified) (info : InstructionInfo) : Bool :=
  (execution.codeAccount info.programId modified info.accounts).isNone &&
    (!execution.payerCached feePayer || modified.contains feePayer ||
      info.accounts.all fun entry => entry.pubkey ≠ feePayer)

/-- The question of this turn, if there is one, is such a question. -/
def plainTurn (feePayer : Pubkey) (index : Nat) (instruction : CompiledInstruction) (state : LoopState) : Bool :=
  (execution.simulatedQuestion index instruction state).all (execution.plainQuestion feePayer state.modified)

def AllTurns (holds : Nat → CompiledInstruction → LoopState → Prop) :
    Nat → List CompiledInstruction → LoopState → Prop
  | _, [], _ => True
  | index, instruction :: rest, state =>
    holds index instruction state ∧ AllTurns holds (index + 1) rest (execution.step index instruction state).1

def PlainTurns (feePayer : Pubkey) : Nat → List CompiledInstruction → LoopState → Prop :=
  execution.AllTurns fun index instruction state => execution.plainTurn feePayer index instruction state = true

def Plain (feePayer : Pubkey) : Prop :=
  execution.AllTurns (fun index instruction state => execution.plainTurn feePayer index instruction state = true) 0
    execution.transaction.instructions .start

/-- Another backend gives the same answers in this execution. -/
def AnsweredBy (other : Backend) : Nat → List CompiledInstruction → LoopState → Prop :=
  execution.AllTurns fun index instruction state =>
    ∀ info, execution.question index instruction state = some info →
      other info (execution.computeLimit - state.totalCompute) =
        execution.backend info (execution.computeLimit - state.totalCompute)

end Execution

/-- The execution of a transaction that lands and loads its accounts. -/
def executionFor (platform : Platform) (backend : Backend) (ledger : Ledger) (transaction : SanitizedTransaction)
    (computeLimit : Nat) : Option Execution :=
  match admission platform ledger transaction computeLimit with
  | .landed tracker landing =>
    match loadTransactionAccounts platform ledger.shared transaction
        landing.budget.loadedAccountsDataSizeLimit with
    | .ok (loaded, _) =>
      some (executionOf platform backend { ledger with bank.costTracker := tracker } transaction landing loaded
        computeLimit)
    | .error _ => none
  | _ => none

section

variable {execution : Execution} {state next : LoopState}

namespace Execution

theorem step_eq_none (stepped : execution.step index instruction state = (next, none)) :
    ∃ info result, execution.question index instruction state = some info ∧
      execution.backend info (execution.computeLimit - state.totalCompute) = result ∧ result.success = true ∧
      next = execution.absorb index info.programId instruction state result ∧
      ¬ execution.computeLimit < next.totalCompute := by
  simp only [step] at stepped
  split at stepped
  · cases stepped
  rename_i programId named
  split at stepped
  · cases stepped
  rename_i accounts resolved
  split at stepped
  · cases stepped
  rename_i succeeded
  split at stepped
  · cases stepped
  rename_i within
  cases stepped
  refine ⟨execution.instructionInfo programId instruction accounts state, _, ?_, rfl, ?_, rfl, within⟩
  · simp only [question, named, resolved]
  · simpa using succeeded

theorem simulatedQuestion_eq_some (asked : execution.simulatedQuestion index instruction state = some info) :
    ∃ programId accounts, execution.transaction.key instruction.programIdIndex = some programId ∧
      execution.instructionAccounts index programId state.modified instruction.accountIndices = .ok accounts ∧
      info = execution.simulatedInfo programId instruction accounts state := by
  simp only [simulatedQuestion] at asked
  split at asked
  · cases asked
  rename_i programId named
  split at asked
  · cases asked
  · rename_i accounts resolved
    exact ⟨programId, accounts, named, resolved, (some.inj asked).symm⟩

section Answer

variable
  (answer : execution.backend info (execution.computeLimit - state.totalCompute) = result)

include answer

theorem step_of_answer (asked : execution.question index instruction state = some info)
    (succeeded : result.success = true) (within : ¬ execution.computeLimit <
      (execution.absorb index info.programId instruction state result).totalCompute) :
    execution.step index instruction state =
      (execution.absorb index info.programId instruction state result, none) := by
  obtain ⟨programId, accounts, named, resolved, rfl⟩ := question_eq_some asked
  simp only [step, named, resolved, answer]
  rw [if_neg (by rw [succeeded]; exact Bool.noConfusion)]
  exact if_neg within

theorem simulateStep_of_answer (asked : execution.simulatedQuestion index instruction state = some info)
    (succeeded : result.success = true) (within : ¬ execution.computeLimit <
      (execution.absorb index info.programId instruction state result).totalCompute) :
    execution.simulateStep index instruction state =
      (execution.absorb index info.programId instruction state result, none) := by
  obtain ⟨programId, accounts, named, resolved, rfl⟩ := simulatedQuestion_eq_some asked
  simp only [simulateStep, named, resolved, answer]
  rw [if_neg (by rw [succeeded]; exact Bool.noConfusion)]
  exact if_neg within

theorem simulateStep_of_failure (asked : execution.simulatedQuestion index instruction state = some info)
    (failed : result.success = false) : ∃ error, (execution.simulateStep index instruction state).2 = some error := by
  obtain ⟨programId, accounts, named, resolved, rfl⟩ := simulatedQuestion_eq_some asked
  simp only [simulateStep, named, resolved, answer]
  rw [if_pos failed]
  exact ⟨_, rfl⟩

end Answer

theorem loop_cons (ran : execution.loop index (instruction :: rest) state = (final, none)) :
    ∃ next, execution.step index instruction state = (next, none) ∧
      execution.loop (index + 1) rest next = (final, none) := by
  simp only [loop] at ran
  split at ran
  · cases ran
  · rename_i next stepped
    exact ⟨next, stepped, ran⟩

theorem siblings_step (stepped : execution.step index instruction state = (next, none)) :
    next.siblingInstructions.length = state.siblingInstructions.length + 1 := by
  obtain ⟨info, result, -, -, succeeded, same, -⟩ := step_eq_none stepped
  rw [same, absorb, if_pos succeeded]
  simp

theorem question_siblings (asked : execution.question index instruction state = some info) :
    info.siblingInstructions = state.siblingInstructions := by
  obtain ⟨programId, accounts, -, -, rfl⟩ := question_eq_some asked
  rfl

theorem allTurns_siblings {count : Nat} (ran : execution.loop index rest state = (final, none))
    (start : count ≤ state.siblingInstructions.length) :
    execution.AllTurns (fun index instruction state => ∀ info, execution.question index instruction state = some info →
      count ≤ info.siblingInstructions.length) index rest state := by
  induction rest generalizing index state with
  | nil => trivial
  | cons instruction rest ih =>
    obtain ⟨next, stepped, later⟩ := loop_cons ran
    refine ⟨?_, ?_⟩
    · intro info asked
      rw [question_siblings asked]
      exact start
    · rw [stepped]
      apply ih later
      rw [siblings_step stepped]
      omega

theorem AllTurns.imp
    (implies : ∀ index instruction state, first index instruction state → second index instruction state)
    (all : execution.AllTurns first index rest state) : execution.AllTurns second index rest state := by
  induction rest generalizing index state with
  | nil => trivial
  | cons instruction rest ih => exact ⟨implies _ _ _ all.1, ih all.2⟩

theorem question_withBackend (execution : Execution) (other : Backend) (index : Nat)
    (instruction : CompiledInstruction) (state : LoopState) :
    { execution with backend := other }.question index instruction state =
        execution.question index instruction state ∧
      { execution with backend := other }.simulatedQuestion index instruction state =
        execution.simulatedQuestion index instruction state := by
  simp only [question, simulatedQuestion,
    @instructionAccounts_congr execution _ _ _ { execution with backend := other } rfl rfl]
  exact ⟨rfl, rfl⟩

theorem loop_answeredBy (answered : execution.AnsweredBy other index rest state)
    (ran : execution.loop index rest state = (final, none)) :
    { execution with backend := other }.loop index rest state = (final, none) := by
  induction rest generalizing index state with
  | nil => exact ran
  | cons instruction rest ih =>
    obtain ⟨next, stepped, later⟩ := loop_cons ran
    obtain ⟨here, there⟩ := answered
    rw [stepped] at there
    obtain ⟨info, result, asked, answer, succeeded, same, within⟩ := step_eq_none stepped
    have again : { execution with backend := other }.step index instruction state = (next, none) := by
      subst same
      have alike := (question_withBackend execution other index instruction state).1.trans asked
      exact step_of_answer ((here info asked).trans answer) alike succeeded within
    rw [loop, again]
    exact ih there later

theorem question_eq :
    execution.question index instruction state =
      (execution.simulatedQuestion index instruction state).map fun info =>
        { info with
          accounts := info.accounts ++ (execution.codeAccount info.programId state.modified info.accounts).toList } := by
  cases named : execution.transaction.key instruction.programIdIndex with
  | none => simp only [question, simulatedQuestion, named, map_none]
  | some programId =>
    cases resolved : execution.instructionAccounts index programId state.modified instruction.accountIndices with
    | error error => simp only [question, simulatedQuestion, named, resolved, map_none]
    | ok accounts =>
      simp only [question, simulatedQuestion, named, resolved, instructionInfo, withProgramdata_eq, simulatedInfo,
        map_some]

end Execution

/-- A simulation of the same transaction on the same bank: its accounts are the
ones of the execution, except for the fee payer, which it has before the fee or
from the sysvar cache. -/
structure Counterpart (execution simulation : Execution) (feePayer : Pubkey) : Prop where
  transaction : simulation.transaction = execution.transaction
  computeLimit : simulation.computeLimit = execution.computeLimit
  slotContext : slotContext simulation.platform simulation.ledger = slotContext execution.platform execution.ledger
  others : ∀ key, key ≠ feePayer → simulation.accountState.get key = execution.accountState.get key
  payer : ∃ paid seen, execution.accountState.get feePayer = some paid ∧ paid.owner = systemProgramId ∧
    simulation.accountState.get feePayer = some seen ∧
    (execution.payerCached feePayer = true → seen.owner = sysvarProgramId) ∧
    (execution.payerCached feePayer = false → seen.setLamports 0 = paid.setLamports 0)

/-- The simulation sees the payer as the execution does, up to the balance. -/
def SeesPayer (execution : Execution) (feePayer : Pubkey) (modified : Modified) : Prop :=
  execution.payerCached feePayer = false ∨ modified.contains feePayer = true

/-- The keys are the same, and the contents up to the balance of the payer if
the simulation sees it. -/
structure Alike (execution : Execution) (feePayer : Pubkey) (modified : Modified) (seen entries : List AccountEntry) :
    Prop where
  keys : seen.map pubkey = entries.map pubkey
  blank : (∀ entry ∈ entries, entry.pubkey = feePayer → SeesPayer execution feePayer modified) →
    seen.map (blank feePayer) = entries.map (blank feePayer)

namespace Counterpart

variable (pair : Counterpart execution simulation feePayer)

include pair

theorem current_blank (sees : key = feePayer → SeesPayer execution feePayer modified) :
    blankAccount feePayer key (simulation.current modified key) =
      blankAccount feePayer key (execution.current modified key) := by
  by_cases payer : key = feePayer
  · subst payer
    obtain ⟨paid, seen, executed, -, simulated, -, kept⟩ := pair.payer
    cases found : modified.get key with
    | some account => simp only [current, found, some_or, getD_some]
    | none =>
      have uncached : execution.payerCached key = false := by
        obtain uncached | there := sees rfl
        · exact uncached
        · rw [Table.contains, found] at there
          cases there
      simp only [current, found, executed, simulated, none_or, getD_some, blankAccount,
        if_true]
      exact kept uncached
  · simp only [current, pair.others key payer]

theorem instructionAccounts_blank
    (resolved : execution.instructionAccounts index programId modified indices = .ok entries) :
    ∃ seen, simulation.instructionAccounts index programId modified indices = .ok seen ∧
      Alike execution feePayer modified seen entries := by
  induction indices generalizing entries with
  | nil =>
    cases resolved
    exact ⟨[], rfl, rfl, fun _ => rfl⟩
  | cons position rest ih =>
    simp only [instructionAccounts] at resolved
    split at resolved
    · cases resolved
    rename_i pubkey named
    split at resolved
    · cases resolved
    rename_i later resolvedLater
    obtain ⟨seen, same, keys, blank⟩ := ih resolvedLater
    cases resolved
    simp only [instructionAccounts, pair.transaction, named, same]
    refine ⟨_, rfl, ?_, ?_⟩
    · simp only [map_cons, keys]
    · intro sees
      have first := pair.current_blank (sees _ mem_cons_self)
      rw [map_cons, map_cons, blank fun entry member => sees entry (mem_cons_of_mem _ member)]
      congr 1
      by_cases sysvar : pubkey = instructionsSysvarId
      · simp only [sysvar, if_true]
      · simp only [AccountEntry.blank, sysvar, if_false, first]

theorem withProgram_blank
    (alike : Alike execution feePayer modified seen entries) : Alike execution feePayer modified
      (simulation.withProgram programId modified seen) (execution.withProgram programId modified entries) := by
  obtain ⟨keys, blank⟩ := alike
  have listed : (seen.any fun entry => entry.pubkey = programId) =
      entries.any fun entry => entry.pubkey = programId := by
    have listed := congrArg (fun keys => keys.any fun key => key = programId) keys
    simp only [any_map] at listed
    exact listed
  simp only [withProgram, listed]
  split
  · exact ⟨keys, blank⟩
  refine ⟨by simp only [map_append, map_cons, map_nil, keys], ?_⟩
  intro sees
  have last := pair.current_blank
    (sees _ (mem_append_right _ (mem_singleton.mpr rfl)))
  rw [map_append, map_append, blank fun entry member => sees entry (mem_append_left _ member)]
  simp only [map_cons, map_nil, AccountEntry.blank, last]

theorem simulatedQuestion_blank (asked : execution.simulatedQuestion index instruction state = some info) :
    ∃ seen, simulation.simulatedQuestion index instruction state = some seen ∧
      { seen with accounts := info.accounts } = info ∧
      Alike execution feePayer state.modified seen.accounts info.accounts := by
  obtain ⟨programId, accounts, named, resolved, rfl⟩ := simulatedQuestion_eq_some asked
  obtain ⟨seen, same, alike⟩ := pair.instructionAccounts_blank resolved
  refine ⟨simulation.simulatedInfo programId instruction seen state, ?_, ?_, pair.withProgram_blank alike⟩
  · simp only [simulatedQuestion, pair.transaction, named, same]
  · simp only [simulatedInfo, pair.slotContext]

end Counterpart

theorem simulatedQuestion_current (asked : execution.simulatedQuestion index instruction state = some info) :
    ∀ entry ∈ info.accounts, entry.pubkey ≠ instructionsSysvarId →
      entry.account = execution.current state.modified entry.pubkey := by
  obtain ⟨programId, accounts, named, resolved, rfl⟩ := simulatedQuestion_eq_some asked
  intro entry member other
  obtain inside | added := mem_withProgram member
  · obtain ⟨position, -, -, held⟩ := mem_instructionAccounts resolved inside
    exact held other
  · rw [added]

theorem blank_owner (entry : AccountEntry) : (entry.blank feePayer).account.owner = entry.account.owner := by
  simp only [blank, blankAccount]
  split
  · rfl
  · rfl

namespace Counterpart

variable (pair : Counterpart execution simulation feePayer)

include pair

theorem owners_differ (cached : execution.payerCached feePayer = true)
    (unmodified : modified.contains feePayer = false) :
    (execution.current modified feePayer).owner ≠ (simulation.current modified feePayer).owner := by
  obtain ⟨paid, seen, executed, system, simulated, kept, -⟩ := pair.payer
  have absent : modified.get feePayer = none := by simpa [Table.contains] using unmodified
  simp only [current, absent, executed, simulated, none_or, getD_some, system, kept cached]
  decide

/-- The accounts of both questions are the same, up to the balance of the
payer, exactly when nothing is brought along and the payer is no sysvar. -/
theorem accounts_blank_iff (based : execution.simulatedQuestion index instruction state = some base)
    (simulated : simulation.simulatedQuestion index instruction state = some seen)
    (alike : Alike execution feePayer state.modified seen.accounts base.accounts) :
    seen.accounts.map (blank feePayer) =
        (base.accounts ++ (execution.codeAccount base.programId state.modified base.accounts).toList).map
          (blank feePayer) ↔ execution.plainQuestion feePayer state.modified base = true := by
  have lengths : seen.accounts.length = base.accounts.length := by
    have counted := congrArg length alike.keys
    rwa [length_map, length_map] at counted
  constructor
  · intro same
    have nothing : execution.codeAccount base.programId state.modified base.accounts = none := by
      have counted := congrArg length same
      rw [length_map, length_map, length_append, lengths] at counted
      cases brought : execution.codeAccount base.programId state.modified base.accounts with
      | none => rfl
      | some entry =>
        rw [brought, toList_some, length_singleton] at counted
        omega
    rw [nothing, toList_none, append_nil] at same
    rw [plainQuestion, nothing, isNone_none, Bool.true_and]
    by_contra other
    simp only [Bool.or_eq_true, Bool.not_eq_true', all_eq_true, decide_eq_true_eq, not_or, Bool.not_eq_false,
      Bool.not_eq_true] at other
    obtain ⟨⟨cached, unmodified⟩, listed⟩ := other
    -- the entry of the payer has its own owner here, and the sysvars' owner there
    simp only [not_forall, ne_eq, not_not] at listed
    obtain ⟨entry, member, named⟩ := listed
    have plain : feePayer ≠ instructionsSysvarId := by
      intro sysvar
      rw [payerCached, sysvar] at cached
      simp only [Bool.and_eq_true, decide_eq_true_eq] at cached
      exact absurd cached.2 (by decide)
    have there : entry.blank feePayer ∈ seen.accounts.map (blank feePayer) := by
      rw [same]
      exact mem_map_of_mem member
    obtain ⟨twin, twinMember, twinBlank⟩ := mem_map.mp there
    have twinNamed : twin.pubkey = feePayer := (congrArg pubkey twinBlank).trans named
    have owners : twin.account.owner = entry.account.owner := by
      rw [← @blank_owner feePayer twin, twinBlank, blank_owner]
    have held := simulatedQuestion_current based entry member (by rw [named]; exact plain)
    have twinHeld := simulatedQuestion_current simulated twin twinMember (by rw [twinNamed]; exact plain)
    rw [held, twinHeld, named, twinNamed] at owners
    exact pair.owners_differ cached unmodified owners.symm
  · intro plain
    simp only [plainQuestion, Bool.and_eq_true, isNone_iff_eq_none] at plain
    obtain ⟨nothing, sees⟩ := plain
    rw [nothing, toList_none, append_nil]
    apply alike.blank
    intro entry member named
    simp only [Bool.or_eq_true, Bool.not_eq_true', all_eq_true, decide_eq_true_eq] at sees
    obtain sees | unlisted := sees
    · exact sees
    · exact absurd named (unlisted entry member)

/-- Both loops ask the same question, up to the balance of the payer, exactly
in the plain turns. -/
theorem blank_eq_iff (asked : execution.question index instruction state = some info) :
    ∃ seen, simulation.simulatedQuestion index instruction state = some seen ∧
      seen.programId = info.programId ∧ seen.siblingInstructions = state.siblingInstructions ∧
      (seen.blank feePayer = info.blank feePayer ↔ execution.plainTurn feePayer index instruction state = true) := by
  have siblings := question_siblings asked
  rw [question_eq] at asked
  obtain ⟨base, based, built⟩ := map_eq_some_iff.mp asked
  obtain ⟨seen, simulated, same, alike⟩ := pair.simulatedQuestion_blank based
  have fields : seen.programId = base.programId ∧ seen.data = base.data ∧ seen.slotContext = base.slotContext ∧
      seen.siblingInstructions = base.siblingInstructions := by
    rw [← same]
    exact ⟨rfl, rfl, rfl, rfl⟩
  subst built
  refine ⟨seen, simulated, fields.1, fields.2.2.2.trans siblings, ?_⟩
  rw [plainTurn, based, all_some, ← pair.accounts_blank_iff based simulated alike]
  constructor
  · intro alike
    exact congrArg InstructionInfo.accounts alike
  · intro alike
    simp only [InstructionInfo.blank, alike, fields]

theorem simulateStep_of_plain (indifferent : Indifferent feePayer simulation.backend)
    (answered : ∀ info, execution.question index instruction state = some info →
      simulation.backend info (execution.computeLimit - state.totalCompute) =
        execution.backend info (execution.computeLimit - state.totalCompute))
    (plain : execution.plainTurn feePayer index instruction state = true)
    (stepped : execution.step index instruction state = (next, none)) :
    simulation.simulateStep index instruction state = (next, none) := by
  obtain ⟨info, result, asked, answer, succeeded, same, within⟩ := step_eq_none stepped
  obtain ⟨seen, simulated, program, -, alike⟩ := pair.blank_eq_iff asked
  have answer : simulation.backend seen (simulation.computeLimit - state.totalCompute) = result := by
    rw [pair.computeLimit, indifferent seen info _ (alike.mpr plain), answered info asked, answer]
  have absorbed : simulation.absorb index seen.programId instruction state result = next := by
    rw [program, same]
    simp only [absorb, pair.transaction]
  rw [← absorbed]
  refine simulateStep_of_answer answer simulated succeeded ?_
  rw [absorbed, pair.computeLimit]
  exact within

theorem simulateLoop_of_plain (indifferent : Indifferent feePayer simulation.backend)
    (answered : execution.AnsweredBy simulation.backend index rest state)
    (plain : execution.PlainTurns feePayer index rest state) (ran : execution.loop index rest state = (final, none)) :
    simulation.simulateLoop index rest state = (final, none) := by
  induction rest generalizing index state with
  | nil =>
    cases ran
    rfl
  | cons instruction rest ih =>
    obtain ⟨next, stepped, later⟩ := loop_cons ran
    obtain ⟨answeredHere, answeredLater⟩ := answered
    obtain ⟨plainHere, plainLater⟩ := plain
    rw [stepped] at answeredLater plainLater
    rw [simulateLoop, pair.simulateStep_of_plain indifferent answeredHere plainHere stepped]
    exact ih answeredLater plainLater later

end Counterpart

theorem Counterpart.withBackend (pair : Counterpart execution simulation feePayer) :
    Counterpart execution { simulation with backend := other } feePayer :=
  ⟨pair.transaction, pair.computeLimit, pair.slotContext, pair.others, pair.payer⟩

/-- The simulation asks something in a turn that is not plain that the
execution never asks, and whoever fails on it ends the simulation. -/
theorem Counterpart.exists_odd (pair : Counterpart execution simulation feePayer)
    (ran : execution.loop index rest state = (final, none))
    (odd : ¬ execution.PlainTurns feePayer index rest state) :
    ∃ seen : InstructionInfo, state.siblingInstructions.length ≤ seen.siblingInstructions.length ∧
      execution.AllTurns (fun index instruction state => ∀ info, execution.question index instruction state = some info →
        info.blank feePayer ≠ seen.blank feePayer) index rest state ∧
      ∀ other, Indifferent feePayer other → execution.AnsweredBy other index rest state →
        (∀ remaining, (other seen remaining).success = false) →
        ∃ error, ({ simulation with backend := other }.simulateLoop index rest state).2 = some error := by
  induction rest generalizing index state with
  | nil => exact absurd trivial odd
  | cons instruction rest ih =>
    obtain ⟨next, stepped, later⟩ := loop_cons ran
    obtain ⟨info, result, asked, -⟩ := step_eq_none stepped
    by_cases plain : execution.plainTurn feePayer index instruction state = true
    · have oddLater : ¬ execution.PlainTurns feePayer (index + 1) rest next := by
        intro all
        apply odd
        refine ⟨plain, ?_⟩
        rw [stepped]
        exact all
      obtain ⟨seen, longer, never, fails⟩ := ih later oddLater
      rw [siblings_step stepped] at longer
      refine ⟨seen, by omega, ⟨?_, by rw [stepped]; exact never⟩, ?_⟩
      · intro question here alike
        -- the later question remembers more instructions
        have counted := congrArg (fun blank => blank.siblingInstructions.length) alike
        simp only [InstructionInfo.blank, question_siblings here] at counted
        omega
      · intro other indifferent answered failing
        obtain ⟨answeredHere, answeredLater⟩ := answered
        rw [stepped] at answeredLater
        obtain ⟨error, ended⟩ := fails other indifferent answeredLater failing
        refine ⟨error, ?_⟩
        rw [simulateLoop,
          (pair.withBackend).simulateStep_of_plain indifferent answeredHere plain stepped]
        exact ended
    · obtain ⟨seen, simulated, -, siblings, alike⟩ := pair.blank_eq_iff asked
      refine ⟨seen, by rw [siblings], ⟨?_, ?_⟩, ?_⟩
      · intro question here same
        rw [asked] at here
        cases here
        exact plain (alike.mp same.symm)
      · rw [stepped]
        have longer : next.siblingInstructions.length ≤ next.siblingInstructions.length := le_refl _
        apply (allTurns_siblings later longer).imp
        intro index instruction state remembers question here same
        have counted := congrArg (fun blank => blank.siblingInstructions.length) same
        simp only [InstructionInfo.blank, siblings] at counted
        have more := remembers question here
        rw [siblings_step stepped] at more
        omega
      · intro other _ _ failing
        rw [← (question_withBackend simulation other _ _ _).2] at simulated
        obtain ⟨error, ended⟩ := simulateStep_of_failure rfl simulated (failing _)
        refine ⟨error, ?_⟩
        simp only [simulateLoop]
        split
        · rename_i stopped
          rw [stopped] at ended
          exact ended
        · rename_i stopped
          rw [stopped] at ended
          cases ended

theorem Indifferent.exists_failing {backend : Backend} (indifferent : Indifferent feePayer backend) :
    ∃ other, Indifferent feePayer other ∧ (∀ remaining, (other seen remaining).success = false) ∧
      ∀ info remaining, info.blank feePayer ≠ seen.blank feePayer → other info remaining = backend info remaining := by
  classical
  refine ⟨fun info remaining =>
    if info.blank feePayer = seen.blank feePayer then { Backend.idle info remaining with success := false }
    else backend info remaining, ?_, ?_, ?_⟩
  · intro left right remaining alike
    by_cases same : right.blank feePayer = seen.blank feePayer
    · simp only [alike, same, if_true]
      rfl
    · simp only [alike, same, if_false, indifferent left right remaining alike]
  · intro remaining
    exact congrArg InstructionResult.success (if_pos rfl)
  · intro info remaining different
    exact if_neg different

/-- Unless every turn is plain, someone who answers the execution alike makes
the simulation fail. -/
theorem Counterpart.plain_of_simulated (pair : Counterpart execution simulation feePayer)
    (indifferent : Indifferent feePayer execution.backend)
    (ran : execution.loop index rest state = (final, none))
    (simulated : ∀ other, Indifferent feePayer other → execution.AnsweredBy other index rest state →
      ({ simulation with backend := other }.simulateLoop index rest state).2 = none) :
    execution.PlainTurns feePayer index rest state := by
  by_contra odd
  obtain ⟨seen, -, never, fails⟩ := pair.exists_odd ran odd
  obtain ⟨other, alike, failing, elsewhere⟩ := indifferent.exists_failing
  have answered : execution.AnsweredBy other index rest state := by
    apply AllTurns.imp _ never
    intro index instruction state different info asked
    exact elsewhere info _ (different info asked)
  obtain ⟨error, ended⟩ := fails other alike answered failing
  rw [simulated other alike answered] at ended
  cases ended

end

section

variable {platform : Platform} {backend other : Backend} {ledger : Ledger} {transaction : SanitizedTransaction}
variable {landing : Landing} {tracker : CostTracker} {loaded : Modified} {size computeLimit : Nat}

theorem BudgetScan.read_limit {scan : BudgetScan} (bounded : scan.params.computeUnitLimit ≤ maxComputeUnitLimit)
    : (scan.read data).params.computeUnitLimit ≤ maxComputeUnitLimit := by
  cases data with
  | nil => exact bounded
  | cons tag arguments =>
    rw [read]
    split
    · exact min_le_right _ _
    split
    · exact bounded
    · split
      · exact bounded
      · exact bounded

theorem parseComputeBudget_limit (transaction : SanitizedTransaction) :
    (parseComputeBudget transaction).computeUnitLimit ≤ maxComputeUnitLimit := by
  refine foldlRecOn (motive := fun scan : BudgetScan => scan.params.computeUnitLimit ≤ maxComputeUnitLimit) _ _
    (le_refl _) fun scan bounded instruction _ => ?_
  split
  · exact BudgetScan.read_limit bounded
  · exact bounded

theorem loadAccounts_get {keys : List Pubkey}
    (loads : loadAccounts platform shared limit keys start accumulated = .ok (loaded, size)) (key : Pubkey) :
    loaded.get key = if key ∈ keys then some (loadedAccount platform shared key) else start.get key := by
  induction keys generalizing start accumulated with
  | nil =>
    cases loads
    simp
  | cons first rest ih =>
    simp only [loadAccounts] at loads
    split at loads
    · cases loads
    rw [ih loads, Table.get_insert]
    by_cases same : key = first
    · subst same
      simp
    · simp [same]

theorem screenSimulation_of_screen (recent : ledger.bank.isBlockhashValid transaction.recentBlockhash = true)
    (passed : screen platform ledger transaction = .ok durableNonce) :
    screenSimulation platform ledger transaction true false = .ok () := by
  simp only [screen, bind_eq_ok, ensure_eq_ok, exists_const, pure, pure] at passed
  obtain ⟨-, _, locks, few, _, -, _, -, _, signed, -⟩ := passed
  have locked : (validateAccountLocks transaction).mapError SimulationError.debug = .ok () := by
    rw [locks]
    rfl
  simp only [screenSimulation, bind_eq_ok, demand_eq_ok, exists_const]
  refine ⟨(), locked, few, .inr recent, ?_⟩
  by_cases present : transaction.signatures = []
  · simp [present]
  rw [if_pos ⟨trivial, present⟩]
  simp only [checkSigned, present, if_false, bind_eq_ok] at signed
  obtain ⟨_, verified, -⟩ := signed
  rw [verified]
  rfl

theorem loadedAccount_cached {shared : Shared} (cached : (shared.sysvars.isSome && decide (key ∈ sysvarIds)) = true) :
    (loadedAccount platform shared key).owner = sysvarProgramId := by
  rw [Bool.and_eq_true, isSome_iff_exists, decide_eq_true_eq] at cached
  obtain ⟨⟨sysvars, found⟩, listed⟩ := cached
  simp [loadedAccount, found, getSysvarAccount, sysvarBytes, listed]

theorem loadedAccount_uncached {key : Pubkey} (uncached : (shared.sysvars.isSome && decide (key ∈ sysvarIds)) = false) :
    loadedAccount platform shared key = (shared.published.get key).getD .zeroed := by
  cases found : shared.sysvars with
  | none => rw [loadedAccount, found, bind_none, none_or]
  | some sysvars =>
    rw [found, isSome_some, Bool.true_and, decide_eq_false_iff_not] at uncached
    rw [loadedAccount, found, bind_some, getSysvarAccount, sysvarBytes, if_neg uncached, map_none,
      none_or]

theorem Landed.counterpart (landed : Landed platform ledger transaction landing)
    (loads : loadTransactionAccounts platform ledger.shared transaction
      landing.budget.loadedAccountsDataSizeLimit = .ok (loaded, size)) :
    Counterpart
      (executionOf platform backend { ledger with bank.costTracker := tracker } transaction landing loaded
        maxComputeUnitLimit)
      (simulationOf platform other ledger transaction loaded) landing.feePayer := by
  obtain ⟨payer, published, system, -, paid⟩ := landed.paid
  refine ⟨rfl, ?_, rfl, ?_, ?_⟩
  · simp only [simulationOf, executionOf, landed.budget_eq]
    exact (min_eq_right (parseComputeBudget_limit transaction)).symm
  · intro key different
    simp only [simulationOf, executionOf, Table.get_insert_ne different]
  · refine ⟨landing.payerAfterFee, loadedAccount platform ledger.shared landing.feePayer,
      Table.get_insert_self .., ?_, ?_, loadedAccount_cached, ?_⟩
    · rw [paid]
      exact system
    · rw [simulationOf, loadAccounts_get loads, if_pos landed.payer_mem]
    · intro uncached
      have seen := @loadedAccount_uncached platform ledger.shared landing.feePayer uncached
      rw [seen, published, paid]
      rfl

theorem executionFor_eq_some
    (executed : executionFor platform backend ledger transaction computeLimit = some execution) :
    ∃ tracker landing loaded size,
      admission platform ledger transaction computeLimit = .landed tracker landing ∧
      loadTransactionAccounts platform ledger.shared transaction landing.budget.loadedAccountsDataSizeLimit =
        .ok (loaded, size) ∧
      execution = executionOf platform backend { ledger with bank.costTracker := tracker } transaction landing loaded
        computeLimit := by
  simp only [executionFor] at executed
  split at executed
  · rename_i tracker landing admitted
    split at executed
    · rename_i loaded size loads
      exact ⟨tracker, landing, loaded, size, admitted, loads, (some.inj executed).symm⟩
    · cases executed
  · cases executed

structure Reports (landing : Landing) (state : LoopState) (result : TransactionExecutionResult) : Prop where
  success : result.success = true
  logs : result.logs = state.logs.lines
  computeUnitsConsumed : result.computeUnitsConsumed = state.totalCompute
  returnData : result.returnData = state.returnData
  modifiedAccounts : result.modifiedAccounts = landing.successWrites state.modified
  fee : result.fee = landing.fee

section

variable (admitted : admission platform ledger transaction computeLimit = .landed tracker landing)
  (loads : loadTransactionAccounts platform ledger.shared transaction
    landing.budget.loadedAccountsDataSizeLimit = .ok (loaded, size))

include admitted loads

theorem processTransaction_of_run
    (ran : (executionOf platform backend { ledger with bank.costTracker := tracker } transaction landing loaded
      computeLimit).run = (state, none)) :
    processTransaction platform backend ledger transaction computeLimit =
      commitSuccess platform { ledger with bank.costTracker := tracker } landing transaction
        (loaded.insert landing.feePayer landing.payerAfterFee) size state := by
  simp only [processTransaction, admitted, processLanded, loads, ran]
  rfl

theorem run_of_success
    (processed : (processTransaction platform backend ledger transaction computeLimit).2 = some result)
    (succeeded : result.success = true) :
    ∃ state, (executionOf platform backend { ledger with bank.costTracker := tracker } transaction landing loaded
      computeLimit).run = (state, none) := by
  simp only [processTransaction, admitted, processLanded, loads] at processed
  split at processed
  · cases some.inj processed
    cases succeeded
  · rename_i state ran
    exact ⟨state, ran⟩

end

theorem Execution.run_eq_none {execution : Execution} : execution.run = (state, none) ↔
      execution.loop 0 execution.transaction.instructions .start = (state, none) ∧
        execution.check state.modified = none := by
  rw [run]
  split
  · rename_i stopped
    simp [stopped]
  · rename_i final ended
    rw [ended]
    simp only [Prod.mk.injEq, and_true]
    exact and_congr_right fun same => by rw [same]

theorem Execution.run_answeredBy {execution : Execution}
    (answered : execution.AnsweredBy other 0 execution.transaction.instructions .start)
    (ran : execution.run = (state, none)) : { execution with backend := other }.run = (state, none) := by
  obtain ⟨looped, passed⟩ := run_eq_none.mp ran
  exact run_eq_none.mpr ⟨loop_answeredBy answered looped, passed⟩

theorem simulateTransaction_of_loads (screened : screenSimulation platform ledger transaction true false = .ok ())
    (loads : loadTransactionAccounts platform ledger.shared transaction
      (parseComputeBudget transaction).loadedAccountsDataSizeLimit = .ok (loaded, size)) :
    simulateTransaction platform other ledger transaction true false =
      let (state, error) := (simulationOf platform other ledger transaction loaded).simulateLoop 0
        transaction.instructions .start
      { error, logs := state.logs.lines, computeUnitsConsumed := state.totalCompute
        modifiedAccounts := state.modified, returnData := state.returnData } := by
  simp only [simulateTransaction, screened, loads]

theorem get_successWrites_plain (plain : landing.durableNonce = none) (modified : Modified) (key : Pubkey) :
    (landing.successWrites modified).get key =
      ((modified.get key).or (if key = landing.feePayer then some landing.payerAfterFee else none)).map reclaim := by
  rw [Landing.successWrites, plain, reclaimZeroLamportAccounts, Table.get_mapValues, get_orInsert]

section

variable (landed : Landed platform ledger transaction landing)

include landed

theorem Landed.plain_of_recent
    (recent : ledger.bank.isBlockhashValid transaction.recentBlockhash = true) : landing.durableNonce = none := by
  cases durable : landing.durableNonce with
  | none => rfl
  | some info =>
    have expired := (landed.screened.durable info durable).1
    rw [recent] at expired
    cases expired

theorem Landed.feePayer_eq : feePayerOf transaction = landing.feePayer := by
  obtain ⟨rest, keys⟩ := landed.payer_first
  rw [feePayerOf, keys, headD_cons]

theorem Landed.predicts (plain : landing.durableNonce = none) (reports : Reports landing state result)
    (same : simulated =
      { error := none, logs := state.logs.lines, computeUnitsConsumed := state.totalCompute
        modifiedAccounts := state.modified, returnData := state.returnData }) :
    Predicts ledger landing.feePayer result simulated := by
  subst same
  obtain ⟨payer, published, -, -, paid⟩ := landed.paid
  refine ⟨rfl, reports.logs.symm, reports.computeUnitsConsumed.symm, reports.returnData.symm, ?_, payer, published, ?_⟩
  · intro key different
    rw [reports.modifiedAccounts, get_successWrites_plain plain, if_neg different, or_none]
  · rw [reports.modifiedAccounts, get_successWrites_plain plain, if_pos rfl, reports.fee, ← paid]
    cases state.modified.get landing.feePayer with
    | none => rfl
    | some account => rfl

end

/-- A successful transaction is predicted by the simulation, whoever gives the
answers of its execution, exactly when all its turns are plain. -/
theorem simulateTransaction_predicts_iff {result : TransactionExecutionResult} {execution : Execution}
    (recent : ledger.bank.isBlockhashValid transaction.recentBlockhash = true)
    (indifferent : Indifferent (feePayerOf transaction) backend)
    (processed : (processTransaction platform backend ledger transaction maxComputeUnitLimit).2 = some result)
    (succeeded : result.success = true)
    (executed : executionFor platform backend ledger transaction maxComputeUnitLimit = some execution) :
    (∀ other, Indifferent (feePayerOf transaction) other →
        execution.AnsweredBy other 0 transaction.instructions .start →
        (processTransaction platform other ledger transaction maxComputeUnitLimit).2 = some result ∧
          Predicts ledger (feePayerOf transaction) result
            (simulateTransaction platform other ledger transaction true false)) ↔
      execution.Plain (feePayerOf transaction) := by
  obtain ⟨tracker, landing, loaded, size, admitted, loads, same⟩ := executionFor_eq_some executed
  have landed := admission_eq_landed admitted
  obtain ⟨state, ran⟩ := run_of_success admitted loads processed succeeded
  have committed := processTransaction_of_run admitted loads ran
  rw [landed.feePayer_eq] at indifferent ⊢
  have screened : screenSimulation platform ledger transaction true false = .ok () := by
    cases passed : screen platform ledger transaction with
    | error error => simp [admission, passed] at admitted
    | ok durableNonce => exact screenSimulation_of_screen recent passed
  have budgeted := loads
  rw [landed.budget_eq] at budgeted
  have pair := @Landed.counterpart platform backend backend ledger transaction landing tracker loaded size landed loads
  rw [← same] at ran pair
  have given : execution.transaction = transaction ∧ execution.backend = backend := by
    rw [same]
    exact ⟨rfl, rfl⟩
  have looped := (run_eq_none.mp ran).1
  rw [given.1] at looped
  constructor
  · intro predicted
    rw [Plain, given.1]
    apply pair.plain_of_simulated (by rw [given.2]; exact indifferent) looped
    intro other alike answered
    have clean := (predicted other alike answered).2.error
    rw [simulateTransaction_of_loads screened budgeted] at clean
    exact clean
  · intro plain other alike answered
    rw [Plain, given.1] at plain
    have simulated := (pair.withBackend).simulateLoop_of_plain alike answered plain looped
    rw [← given.1] at answered
    have again := run_answeredBy answered ran
    rw [same] at again
    have repeated := @processTransaction_of_run platform other ledger transaction landing tracker loaded size
      maxComputeUnitLimit admitted loads state again
    rw [committed] at processed
    refine ⟨by rw [repeated]; exact processed, ?_⟩
    apply landed.predicts (landed.plain_of_recent recent) (by cases some.inj processed; exact ⟨rfl, rfl, rfl, rfl, rfl, rfl⟩)
    rw [simulateTransaction_of_loads screened budgeted]
    have simulatedLoop : (simulationOf platform other ledger transaction loaded).simulateLoop 0 transaction.instructions
      .start = (state, none) := simulated
    rw [simulatedLoop]

end

def notebook (byte : UInt8) : Account := { purse with owner := computeBudgetProgramId, data := [byte] }

def notebookLedger : Ledger :=
  .opening ((Table.empty.insert (Octets.filled 32 7) purse).insert (.filled 32 6) (notebook 0)) (.filled 32 9)

/-- A backend that writes into the notebook how many accounts it sees, and logs that. -/
def writingBackend : Backend := fun info _ =>
  { success := true, computeUnitsConsumed := 150, error := none, returnData := none, logs := ["written"],
    modifiedAccounts := Table.empty.insert (.filled 32 6) (notebook (.ofNat info.accounts.length)) }

theorem Indifferent.writingBackend (feePayer : Pubkey) : Indifferent feePayer writingBackend := by
  intro left right remaining alike
  have count := congrArg (fun info => info.accounts.length) alike
  simp only [InstructionInfo.blank, length_map] at count
  simp only [Runtime.writingBackend, count]

def writingTransaction : SanitizedTransaction :=
  .simple [.filled 32 7, .filled 32 6, computeBudgetProgramId] 1 (.filled 32 9)
    [{ programIdIndex := 2, accountIndices := [1], data := [] },
      { programIdIndex := 2, accountIndices := [1, 0], data := [] }]

/-- Two instructions write the notebook, as the simulation says. -/
theorem writingTransaction_predicted :
    ∃ result, (processTransaction (.bare .bare) writingBackend notebookLedger writingTransaction
        maxComputeUnitLimit).2 = some result ∧ result.modifiedAccounts.get (.filled 32 6) = some (notebook 3) ∧
      Predicts notebookLedger (feePayerOf writingTransaction) result
        (simulateTransaction (.bare .bare) writingBackend notebookLedger writingTransaction true false) := by
  refine ⟨_, rfl, by decide +kernel, ((simulateTransaction_predicts_iff rfl (.writingBackend _) rfl rfl rfl).mpr ?_
    writingBackend (.writingBackend _) ?_).2⟩
  · exact ⟨by decide +kernel, by decide +kernel, trivial⟩
  · exact ⟨fun _ _ => rfl, fun _ _ => rfl, trivial⟩

/-- An upgradeable program, whose code is in another account. -/
def upgradeableProgram : Account :=
  { lamports := 1141440, owner := bpfLoaderProgramId, executable := true, rentEpoch := 0,
    data := [2, 0, 0, 0] ++ (Octets.filled 32 6).bytes, lamports_le := by decide }

def programCode : Account := { purse with owner := bpfLoaderProgramId }

def upgradeableLedger : Ledger :=
  .opening (((Table.empty.insert (Octets.filled 32 7) purse).insert (.filled 32 5) upgradeableProgram).insert
    (.filled 32 6) programCode) (.filled 32 9)

def upgradeableTransaction : SanitizedTransaction :=
  .simple [.filled 32 7, .filled 32 5] 1 (.filled 32 9)
    [{ programIdIndex := 1, accountIndices := [], data := [] }]

/-- A backend that runs the program if its code is there. -/
def codeBackend : Backend := fun info remaining =>
  { Backend.idle info remaining with
    success := info.accounts.any fun entry => entry.pubkey = .filled 32 6 }

theorem Indifferent.codeBackend (feePayer : Pubkey) : Indifferent feePayer codeBackend := by
  intro left right remaining alike
  have keys : left.accounts.map pubkey = right.accounts.map pubkey := by
    have blanks := congrArg (fun info => info.accounts.map pubkey) alike
    simp only [InstructionInfo.blank, map_map] at blanks
    exact blanks
  have found : ∀ info : InstructionInfo, (info.accounts.any fun entry => entry.pubkey = .filled 32 6) =
      (info.accounts.map pubkey).any fun key => key = .filled 32 6 := by
    intro info
    rw [any_map]
    rfl
  simp only [Runtime.codeBackend, found, keys]
  rfl

/-- The call succeeds, and its simulation reports an error. -/
theorem upgradeableTransaction_unpredicted :
    upgradeableLedger.bank.isBlockhashValid upgradeableTransaction.recentBlockhash = true ∧
      Indifferent (feePayerOf upgradeableTransaction) codeBackend ∧
      ∃ result, (processTransaction (.bare .bare) codeBackend upgradeableLedger upgradeableTransaction
          maxComputeUnitLimit).2 = some result ∧ result.success = true ∧
        (simulateTransaction (.bare .bare) codeBackend upgradeableLedger upgradeableTransaction true false).error =
          some (.text "unknown error") ∧ ¬ Predicts upgradeableLedger (feePayerOf upgradeableTransaction) result
          (simulateTransaction (.bare .bare) codeBackend upgradeableLedger upgradeableTransaction true false) := by
  refine ⟨rfl, .codeBackend _, _, rfl, by decide, by decide, ?_⟩
  intro predicts
  exact absurd predicts.error (by decide)

end Karstflow.Runtime
