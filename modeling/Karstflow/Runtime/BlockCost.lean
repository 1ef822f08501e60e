import Karstflow.Data.Steps
import Karstflow.Runtime.CostModel
import Karstflow.Runtime.Settlement

namespace Karstflow.Runtime

open Data Karstflow.Types Sbpf CostTracker List

/-! What a block's cost counters hold after any number of transactions. -/

namespace Call

variable (platform : Platform) (ledger : Ledger) (call : Call)

/-- The fee that the result reports; nothing when the call aborts. -/
def reportedFee : Nat := (call.process platform ledger).2.elim 0 TransactionExecutionResult.fee

def reserved : TransactionCost :=
  estimatedCost (platform.modelCost call.transaction)
    (platform.allocatedDataSize call.transaction
      (ledger.shared.isActive createAccountAllowPrefundFeature)) call.transaction call.computeLimit

/-- The execution and loading cost that a landed transaction is settled at. -/
def settledAt (landing : Landing) : Nat :=
  match loadTransactionAccounts platform ledger.shared call.transaction
      landing.budget.loadedAccountsDataSizeLimit with
  | .error error =>
    landing.unloadedCost (ledger.shared.isActive defineLtdsFeeOnlySemanticsFeature) error
  | .ok (loaded, loadedDataSize) =>
    let execution := executionOf platform call.backend ledger call.transaction landing loaded
      call.computeLimit
    satAdd execution.run.1.totalCompute (loadedAccountsDataCost loadedDataSize)

/-- The actual cost passed to `update_execution_cost`. -/
def actual : Nat :=
  match admission platform ledger call.transaction call.computeLimit with
  | .landed tracker landing => call.settledAt platform { ledger with bank.costTracker := tracker } landing
  | _ => 0

def charge : Int :=
  if 0 < call.reportedFee platform ledger then
    (call.reserved platform ledger).totalCost - (call.reserved platform ledger).executionAndLoadedCost +
      call.actual platform ledger
  else 0

/-- What it costs an account: all of it, if the message marks it as writable. -/
def accountCharge (key : Pubkey) : Int :=
  if key ∈ call.transaction.writableAccounts then call.charge platform ledger else 0

/-- The refund comes out of counters that hold at least as much. -/
def RefundCovered : Prop :=
  ∀ tracker landing,
    admission platform ledger call.transaction call.computeLimit = .landed tracker landing →
    let refund := landing.cost.executionAndLoadedCost - call.actual platform ledger
    refund ≤ tracker.blockCost ∧ (tracker.countsVote landing.cost = true → refund ≤ tracker.voteCost)

/-- The call is turned away before it reserves anything, or it lands for a fee
and the counter has room for it. -/
def Settles : Prop :=
  match admission platform ledger call.transaction call.computeLimit with
  | .refused _ => True
  | .unpaid _ _ | .aborted _ => False
  | .landed _ landing =>
    0 < landing.fee ∧
      ledger.bank.costTracker.blockCost + call.charge platform ledger ≤ (u64Max : Int)

end Call

def totalCharge (platform : Platform) (weigh : Ledger → Call → Int) : Ledger → List Call → Int
  | _, [] => 0
  | ledger, call :: rest =>
    weigh ledger call + totalCharge platform weigh (call.process platform ledger).1 rest

/-- The counters are exact after these calls: the block and every account hold
the charges of the transactions that landed, a transaction that did not land
left every counter as it was, and no refund went below zero. -/
structure CostsExact (platform : Platform) (start : Ledger) (calls : List Call) : Prop where
  block : ((start.afterCalls platform calls).bank.costTracker.blockCost : Int) =
    totalCharge platform (fun ledger call => call.charge platform ledger) start calls
  account : ∀ key, ((start.afterCalls platform calls).bank.costTracker.accountCost key : Int) =
    totalCharge platform (fun ledger call => call.accountCharge platform ledger key) start calls
  untouched : ∀ earlier next, earlier ++ [next] <+: calls →
    next.reportedFee platform (start.afterCalls platform earlier) = 0 →
    (next.process platform (start.afterCalls platform earlier)).1.bank.costTracker =
      (start.afterCalls platform earlier).bank.costTracker
  covered : ∀ earlier next, earlier ++ [next] <+: calls →
    next.RefundCovered platform (start.afterCalls platform earlier)

section

variable {platform : Platform} {ledger : Ledger} {call : Call}
variable {tracker : CostTracker} {weigh : Ledger → Call → Int}

theorem totalCharge_append : totalCharge platform weigh start (calls ++ [call]) =
      totalCharge platform weigh start calls + weigh (start.afterCalls platform calls) call := by
  induction calls generalizing start with
  | nil => simp [totalCharge, Ledger.afterCalls]
  | cons first rest ih =>
    simp only [cons_append, totalCharge, ih, Ledger.afterCalls, foldl_cons]
    omega

theorem getD_foldl_addAccountCost {keys : List Pubkey} (distinct : keys.Nodup) (amount : Nat)
    (costs : Table Pubkey Nat) (key : Pubkey) : ((keys.foldl (addAccountCost amount) costs).get key).getD 0 =
      if key ∈ keys then satAdd ((costs.get key).getD 0) amount else (costs.get key).getD 0 := by
  induction keys generalizing costs with
  | nil => simp
  | cons first rest ih =>
    obtain ⟨fresh, restDistinct⟩ := nodup_cons.mp distinct
    rw [foldl_cons, ih restDistinct, addAccountCost, Table.get_insert]
    by_cases here : key = first
    · subst here
      simp [fresh]
    · simp [here]

theorem getD_foldl_removeAccountCost {keys : List Pubkey} (distinct : keys.Nodup) (amount : Nat)
    (costs : Table Pubkey Nat) (key : Pubkey) : ((keys.foldl (removeAccountCost amount) costs).get key).getD 0 =
      if key ∈ keys then (costs.get key).getD 0 - amount else (costs.get key).getD 0 := by
  have removed : (keys.foldl (removeAccountCost amount) costs).get key =
      if key ∈ keys then (costs.get key).map fun current => current - amount else costs.get key :=
    Table.get_foldl_modify distinct costs _ key
  rw [removed]
  split
  · cases costs.get key with
    | none => simp
    | some current => simp
  · rfl

structure Reserved (tracker : CostTracker) (cost : TransactionCost) (reserved : CostTracker) : Prop where
  within : satAdd tracker.blockCost cost.totalCost ≤ tracker.limits.blockCostLimit
  withinVote : tracker.countsVote cost = true →
    satAdd tracker.voteCost cost.totalCost ≤ tracker.limits.voteCostLimit
  limits : reserved.limits = tracker.limits
  blockCost : reserved.blockCost = wrapAdd tracker.blockCost cost.totalCost
  voteCost : reserved.voteCost =
    if tracker.countsVote cost then wrapAdd tracker.voteCost cost.totalCost else tracker.voteCost
  accountCosts : reserved.accountCosts =
    cost.writableAccounts.foldl (addAccountCost cost.totalCost) tracker.accountCosts
  transactionCount : reserved.transactionCount = wrapAdd tracker.transactionCount 1
  countsVote : ∀ other, reserved.countsVote other = tracker.countsVote other

theorem tryAdd_eq_ok (added : tracker.tryAdd cost = .ok reserved) : Reserved tracker cost reserved := by
  rw [tryAdd] at added
  split at added
  · cases added
  simp only [bind_eq_ok, pure_eq_ok] at added
  obtain ⟨_, checked, same⟩ := added
  subst same
  rw [checkLimits] at checked
  split at checked
  · cases checked
  rename_i within
  split at checked
  · cases checked
  · rename_i withinVote
    refine ⟨Nat.le_of_not_lt within, ?_, rfl, rfl, rfl, rfl, rfl, fun _ => rfl⟩
    intro counted
    exact Nat.le_of_not_lt fun beyond => withinVote ⟨counted, beyond⟩

/-- The trackers agree on everything but the data size and the number of
transactions, which may have grown by one. -/
structure SameCosts (tracker tracked : CostTracker) : Prop where
  limits : tracked.limits = tracker.limits
  blockCost : tracked.blockCost = tracker.blockCost
  voteCost : tracked.voteCost = tracker.voteCost
  accountCosts : tracked.accountCosts = tracker.accountCosts
  countsVote : ∀ other, tracked.countsVote other = tracker.countsVote other
  transactionCount : tracked.transactionCount = tracker.transactionCount ∨
    tracked.transactionCount = wrapAdd tracker.transactionCount 1

theorem SameCosts.refl (tracker : CostTracker) : SameCosts tracker tracker :=
  ⟨rfl, rfl, rfl, rfl, fun _ => rfl, .inl rfl⟩

theorem trackDataSize_sameCosts (bank : Bank) (delta : Int) (bounded : bank.costTracker.blockCost ≤ u64Max) :
    SameCosts bank.costTracker (bank.trackDataSize delta).costTracker := by
  rw [Bank.trackDataSize]
  split
  · exact .refl _
  split
  · rename_i tracker added
    have reserved := tryAdd_eq_ok added
    refine ⟨reserved.limits, ?_, reserved.voteCost, reserved.accountCosts, reserved.countsVote,
      .inr reserved.transactionCount⟩
    rw [reserved.blockCost]
    exact wrapAdd_eq_add bounded
  · exact .refl _

theorem updateExecutionCost_blockCost (covered : cost.executionAndLoadedCost ≤ tracker.blockCost)
    (bounded : tracker.blockCost ≤ u64Max) (fits : tracker.blockCost - cost.executionAndLoadedCost + actual ≤ u64Max) :
    (tracker.updateExecutionCost cost actual).blockCost = tracker.blockCost - cost.executionAndLoadedCost + actual := by
  rw [updateExecutionCost]
  split
  · omega
  split
  · have room : tracker.blockCost + (actual - cost.executionAndLoadedCost) ≤ u64Max := by omega
    exact (wrapAdd_eq_add room).trans (by omega)
  · have refund : cost.executionAndLoadedCost - actual ≤ tracker.blockCost := by omega
    exact (wrapSub_eq_sub refund bounded).trans (by omega)

theorem updateExecutionCost_accountCost (distinct : cost.writableAccounts.Nodup)
    (covered : key ∈ cost.writableAccounts → cost.executionAndLoadedCost ≤ tracker.accountCost key)
    (fits : key ∈ cost.writableAccounts → tracker.accountCost key - cost.executionAndLoadedCost + actual ≤ u64Max) :
    (tracker.updateExecutionCost cost actual).accountCost key =
      if key ∈ cost.writableAccounts then
        tracker.accountCost key - cost.executionAndLoadedCost + actual
      else tracker.accountCost key := by
  by_cases locked : key ∈ cost.writableAccounts
  · have covered := covered locked
    have fits := fits locked
    rw [if_pos locked, updateExecutionCost]
    split
    · omega
    split
    · simp only [accountCost, eachAccount] at covered fits ⊢
      rw [getD_foldl_addAccountCost distinct, if_pos locked, satAdd_eq_add (by omega)]
      omega
    · simp only [accountCost, eachAccount] at covered fits ⊢
      rw [getD_foldl_removeAccountCost distinct, if_pos locked]
      omega
  · rw [if_neg locked, updateExecutionCost]
    split
    · rfl
    split
    · simp only [accountCost, eachAccount]
      rw [getD_foldl_addAccountCost distinct, if_neg locked]
    · simp only [accountCost, eachAccount]
      rw [getD_foldl_removeAccountCost distinct, if_neg locked]

theorem updateExecutionCost_frame (tracker : CostTracker) (cost : TransactionCost) (actual : Nat) :
    (tracker.updateExecutionCost cost actual).limits = tracker.limits ∧
      (tracker.updateExecutionCost cost actual).transactionCount = tracker.transactionCount := by
  rw [updateExecutionCost]
  split
  · exact ⟨rfl, rfl⟩
  · split
    · exact ⟨rfl, rfl⟩
    · exact ⟨rfl, rfl⟩

theorem updateExecutionCost_le (cost : TransactionCost) (actual : Nat) (bounded : tracker.blockCost ≤ u64Max) :
    (tracker.updateExecutionCost cost actual).blockCost ≤ u64Max := by
  rw [updateExecutionCost]
  split
  · exact bounded
  · split <;> exact Nat.le_of_lt_succ (Nat.mod_lt _ (Nat.succ_pos _))

theorem reserved_of_landed
    (landed : admission platform ledger call.transaction call.computeLimit = .landed tracker landing) :
    Reserved ledger.bank.costTracker (call.reserved platform ledger) tracker ∧
      landing.cost = call.reserved platform ledger := by
  cases screened : screen platform ledger call.transaction with
  | error error => simp [admission, screened] at landed
  | ok durableNonce =>
    simp only [admission, screened] at landed
    split at landed
    · cases landed
    rename_i tracker' added
    split at landed
    · cases landed
    · split at landed
      · cases landed
      · cases landed
        exact ⟨tryAdd_eq_ok added, rfl⟩

theorem reserved_of_unpaid
    (unpaid : (∃ error, admission platform ledger call.transaction call.computeLimit = .unpaid tracker error) ∨
      admission platform ledger call.transaction call.computeLimit = .aborted tracker) :
    Reserved ledger.bank.costTracker (call.reserved platform ledger) tracker := by
  cases screened : screen platform ledger call.transaction with
  | error error => simp [admission, screened] at unpaid
  | ok durableNonce =>
    simp only [admission, screened] at unpaid
    split at unpaid
    · simp at unpaid
    rename_i tracker' added
    have reserved := tryAdd_eq_ok added
    split at unpaid
    · simp only [reduceCtorEq, exists_false, Admission.aborted.injEq, false_or] at unpaid
      exact unpaid ▸ reserved
    · split at unpaid
      · simp only [Admission.unpaid.injEq, exists_and_left, reduceCtorEq, or_false] at unpaid
        exact unpaid.1 ▸ reserved
      · simp at unpaid

theorem processLanded_costTracker (bounded : ledger.bank.costTracker.blockCost ≤ u64Max) :
    ∃ tracked, SameCosts ledger.bank.costTracker tracked ∧
      (processLanded platform call.backend ledger call.transaction call.computeLimit landing).1.bank.costTracker =
        tracked.updateExecutionCost landing.cost (call.settledAt platform ledger landing) := by
  cases loads : loadTransactionAccounts platform ledger.shared call.transaction
      landing.budget.loadedAccountsDataSizeLimit with
  | error error =>
    refine ⟨ledger.bank.costTracker, .refl _, ?_⟩
    simp only [processLanded, Call.settledAt, loads, reportUnloaded, Bank.reconcile]
  | ok loading =>
    simp only [processLanded, Call.settledAt, loads]
    split
    · rename_i state error ran
      refine ⟨ledger.bank.costTracker, .refl _, ?_⟩
      rw [ran]
      dsimp only [commitFailure, Ledger.writeAccounts, Bank.record, Bank.reconcile]
    · rename_i state ran
      rw [ran]
      exact ⟨_, trackDataSize_sameCosts ledger.bank _ bounded, rfl⟩

section

variable (landed : admission platform ledger call.transaction call.computeLimit = .landed tracker landing)

include landed

theorem process_landed (bounded : tracker.blockCost ≤ u64Max) : ∃ tracked, SameCosts tracker tracked ∧
      (call.process platform ledger).1.bank.costTracker =
        tracked.updateExecutionCost landing.cost (call.actual platform ledger) := by
  simp only [Call.process, processTransaction, Call.actual, landed]
  exact @processLanded_costTracker _ { ledger with bank.costTracker := tracker } _ _ bounded

theorem reportedFee_landed : call.reportedFee platform ledger = landing.fee := by
  rw [Call.reportedFee]
  cases processed : call.process platform ledger with
  | mk after answer =>
    cases processTransaction_outcome processed with
    | turnedAway missed refused => exact absurd landed (missed tracker landing)
    | unloaded landed' failed fee =>
      rw [landed] at landed'
      cases landed'
      exact fee
    | executed landed' loads ran effect =>
      rw [landed] at landed'
      cases landed'
      exact effect.fee

end

theorem reportedFee_missed (missed : ∀ tracker landing,
      admission platform ledger call.transaction call.computeLimit ≠ .landed tracker landing) :
    call.reportedFee platform ledger = 0 := by
  rw [Call.reportedFee]
  cases processed : call.process platform ledger with
  | mk after answer =>
    cases processTransaction_outcome processed with
    | turnedAway missed refused =>
      cases answer with
      | none => rfl
      | some result =>
        obtain ⟨error, same⟩ := refused result rfl
        rw [same]
        rfl
    | unloaded landed failed fee | executed landed loads ran effect => exact absurd landed (missed _ _)

def Platform.Modelled (platform : Platform) : Prop := platform.modelCost = transactionModelCost

/-- The bounds that hold of a fresh tracker and of any tracker made from it. -/
structure Capped (tracker : CostTracker) : Prop where
  blockLimit : tracker.limits.blockCostLimit ≤ maxBlockComputeUnitsSimd0286
  voteLimit : tracker.limits.voteCostLimit ≤ maxBlockComputeUnitsSimd0286
  bounded : tracker.blockCost ≤ u64Max
  account_le : ∀ key, tracker.accountCost key ≤ tracker.blockCost

section Reservation

variable (capped : Capped tracker) (held : Reserved tracker cost reserved)

include capped held

theorem Reserved.total_le : tracker.blockCost + cost.totalCost ≤ maxBlockComputeUnitsSimd0286 := by
  have within := le_trans held.within capped.blockLimit
  simp only [satAdd, maxBlockComputeUnitsSimd0286, u64Max] at within ⊢
  omega

theorem Reserved.blockCost_eq : reserved.blockCost = tracker.blockCost + cost.totalCost := by
  have total := held.total_le capped
  rw [held.blockCost]
  apply wrapAdd_eq_add
  exact le_trans total (by decide)

theorem Reserved.accountCost_eq (distinct : cost.writableAccounts.Nodup) (key : Pubkey) : reserved.accountCost key =
      if key ∈ cost.writableAccounts then tracker.accountCost key + cost.totalCost
      else tracker.accountCost key := by
  have total := held.total_le capped
  have less := capped.account_le key
  rw [accountCost, held.accountCosts, getD_foldl_addAccountCost distinct]
  split
  · rw [← accountCost]
    apply satAdd_eq_add
    simp only [maxBlockComputeUnitsSimd0286, u64Max] at total ⊢
    omega
  · rfl

theorem Reserved.refund_covered (share : refund ≤ cost.totalCost) :
    refund ≤ reserved.blockCost ∧ (reserved.countsVote cost = true → refund ≤ reserved.voteCost) := by
  refine ⟨?_, ?_⟩
  · rw [held.blockCost_eq capped]
    omega
  · intro counted
    rw [held.countsVote] at counted
    have within := le_trans (held.withinVote counted) capped.voteLimit
    rw [held.voteCost, if_pos counted, wrapAdd_eq_add]
    · omega
    · simp only [satAdd, maxBlockComputeUnitsSimd0286, u64Max] at within ⊢
      omega

end Reservation

theorem wrapAdd_one_ne {count : Nat} : wrapAdd count 1 ≠ count ∧ wrapAdd (wrapAdd count 1) 1 ≠ count := by
  simp only [wrapAdd, u64Max]
  omega

theorem Reserved.ne (held : Reserved tracker cost reserved) : reserved ≠ tracker := by
  intro same
  have counted := held.transactionCount
  rw [same] at counted
  exact wrapAdd_one_ne.1 counted.symm

structure Charged (platform : Platform) (ledger : Ledger) (call : Call) : Prop where
  capped : Capped (call.process platform ledger).1.bank.costTracker
  block : ((call.process platform ledger).1.bank.costTracker.blockCost : Int) =
    ledger.bank.costTracker.blockCost + call.charge platform ledger
  account : ∀ key, ((call.process platform ledger).1.bank.costTracker.accountCost key : Int) =
    ledger.bank.costTracker.accountCost key + call.accountCharge platform ledger key
  untouched : call.reportedFee platform ledger = 0 →
    (call.process platform ledger).1.bank.costTracker = ledger.bank.costTracker
  covered : call.RefundCovered platform ledger

section Settling

variable (modelled : platform.Modelled) (capped : Capped ledger.bank.costTracker)

include modelled capped

theorem share_le (held : Reserved ledger.bank.costTracker (call.reserved platform ledger) tracker) :
    (call.reserved platform ledger).executionAndLoadedCost ≤ (call.reserved platform ledger).totalCost := by
  have total := held.total_le capped
  rw [Platform.Modelled] at modelled
  simp only [Call.reserved, modelled] at total ⊢
  exact executionAndLoadedCost_le _ _ _ (by omega)

theorem refundCovered_of_capped : call.RefundCovered platform ledger := by
  intro tracker landing landed
  obtain ⟨held, same⟩ := reserved_of_landed landed
  have share := share_le modelled capped held
  rw [same]
  exact held.refund_covered capped (by omega)

theorem charged_of_landed
    (landed : admission platform ledger call.transaction call.computeLimit = .landed tracker landing)
    (paid : 0 < landing.fee) (fits : ledger.bank.costTracker.blockCost + call.charge platform ledger ≤ (u64Max : Int)) :
    Charged platform ledger call := by
  obtain ⟨held, same⟩ := reserved_of_landed landed
  have share := share_le modelled capped held
  have total := held.total_le capped
  have blockCost := held.blockCost_eq capped
  have distinct := writableAccounts_nodup (admission_eq_landed landed).screened.distinct
  have bounded : tracker.blockCost ≤ u64Max := by
    rw [blockCost]
    exact le_trans total (by decide)
  have fee := reportedFee_landed landed
  have charge : call.charge platform ledger = (call.reserved platform ledger).totalCost -
      (call.reserved platform ledger).executionAndLoadedCost + call.actual platform ledger := by
    rw [Call.charge, fee, if_pos paid]
  obtain ⟨tracked, costs, settled⟩ := process_landed landed bounded
  rw [same] at settled
  have block : (call.process platform ledger).1.bank.costTracker.blockCost =
      ledger.bank.costTracker.blockCost + ((call.reserved platform ledger).totalCost -
        (call.reserved platform ledger).executionAndLoadedCost) + call.actual platform ledger := by
    rw [settled, updateExecutionCost_blockCost]
    · rw [costs.blockCost, blockCost]
      omega
    · rw [costs.blockCost, blockCost]
      omega
    · rw [costs.blockCost]
      exact bounded
    · rw [costs.blockCost, blockCost]
      omega
  have account (key : Pubkey) : (call.process platform ledger).1.bank.costTracker.accountCost key =
      if key ∈ call.transaction.writableAccounts then
        ledger.bank.costTracker.accountCost key + ((call.reserved platform ledger).totalCost -
          (call.reserved platform ledger).executionAndLoadedCost) + call.actual platform ledger
      else ledger.bank.costTracker.accountCost key := by
    have less := capped.account_le key
    have before : tracked.accountCost key = tracker.accountCost key := by
      rw [accountCost, costs.accountCosts, accountCost]
    have reservedCost := held.accountCost_eq capped distinct key
    have locked : key ∈ (call.reserved platform ledger).writableAccounts ↔
        key ∈ call.transaction.writableAccounts := .rfl
    rw [settled, updateExecutionCost_accountCost distinct, before, reservedCost]
    · simp only [locked]
      split
      · omega
      · rfl
    · intro inside
      rw [before, reservedCost, if_pos inside]
      omega
    · intro inside
      rw [before, reservedCost, if_pos inside]
      omega
  refine ⟨⟨?_, ?_, ?_, ?_⟩, ?_, ?_, ?_, refundCovered_of_capped modelled capped⟩
  · rw [settled, (updateExecutionCost_frame _ _ _).1, costs.limits, held.limits]
    exact capped.blockLimit
  · rw [settled, (updateExecutionCost_frame _ _ _).1, costs.limits, held.limits]
    exact capped.voteLimit
  · omega
  · intro key
    have less := capped.account_le key
    rw [account, block]
    split <;> omega
  · omega
  · intro key
    rw [account, Call.accountCharge]
    split <;> omega
  · intro free
    omega

theorem charged_of_settles (settles : call.Settles platform ledger) : Charged platform ledger call := by
  rw [Call.Settles] at settles
  split at settles
  · rename_i error refused
    have missed (tracker : CostTracker) (landing : Landing) :
        admission platform ledger call.transaction call.computeLimit ≠ .landed tracker landing := by
      rw [refused]
      exact fun impossible => by cases impossible
    have free := reportedFee_missed missed
    have charge : call.charge platform ledger = 0 := by
      rw [Call.charge, free]
      rfl
    have same : (call.process platform ledger).1 = ledger := by
      simp only [Call.process, processTransaction, refused]
    refine ⟨?_, ?_, ?_, ?_, refundCovered_of_capped modelled capped⟩
    · rw [same]
      exact capped
    · rw [same, charge, add_zero]
    · intro key
      rw [same, Call.accountCharge, charge, ite_self, add_zero]
    · intro _
      rw [same]
  · exact False.elim settles
  · exact False.elim settles
  · rename_i tracker landing landed
    exact charged_of_landed modelled capped landed settles.1 settles.2

end Settling

theorem settles_of_charged (capped : Capped ledger.bank.costTracker)
    (block : ((call.process platform ledger).1.bank.costTracker.blockCost : Int) =
      ledger.bank.costTracker.blockCost + call.charge platform ledger)
    (untouched : call.reportedFee platform ledger = 0 →
      (call.process platform ledger).1.bank.costTracker = ledger.bank.costTracker) : call.Settles platform ledger := by
  rw [Call.Settles]
  split
  · trivial
  · rename_i tracker error unpaid
    have held := reserved_of_unpaid (.inl ⟨error, unpaid⟩)
    apply held.ne
    rw [← untouched (reportedFee_missed (by simp [unpaid]))]
    simp only [Call.process, processTransaction, unpaid]
  · rename_i tracker aborted
    have held := reserved_of_unpaid (.inr aborted)
    apply held.ne
    rw [← untouched (reportedFee_missed (by simp [aborted]))]
    simp only [Call.process, processTransaction, aborted]
  · rename_i tracker landing landed
    obtain ⟨held, same⟩ := reserved_of_landed landed
    have bounded : tracker.blockCost ≤ u64Max := by
      rw [held.blockCost_eq capped]
      exact le_trans (held.total_le capped) (by decide)
    obtain ⟨tracked, costs, settled⟩ := process_landed landed bounded
    refine ⟨pos_of_ne_zero ?_, ?_⟩
    · intro free
      have kept := untouched ((reportedFee_landed landed).trans free)
      have counted := congrArg transactionCount kept
      rw [settled, (updateExecutionCost_frame _ _ _).2] at counted
      obtain once | twice := costs.transactionCount
      · rw [once, held.transactionCount] at counted
        exact wrapAdd_one_ne.1 counted
      · rw [twice, held.transactionCount] at counted
        exact wrapAdd_one_ne.2 counted
    · rw [← block, settled]
      have small := updateExecutionCost_le landing.cost (call.actual platform ledger)
        (costs.blockCost ▸ bounded)
      omega

/-- The counters of a fresh block stay exact along the calls exactly when every
call settles. -/
theorem costsExact_iff (platform : Platform) (start : Ledger) (raiseTo100m raiseTo60m raiseAccountLimit : Bool)
    (fresh : start.bank.costTracker =
      .withLimits (.fromFeatures raiseTo100m raiseTo60m raiseAccountLimit)) (calls : List Call) :
    (∀ taken, taken <+: calls → CostsExact platform.withCostModel start taken) ↔
      ∀ earlier next, earlier ++ [next] <+: calls →
        next.Settles platform.withCostModel (start.afterCalls platform.withCostModel earlier) := by
  have modelled : platform.withCostModel.Modelled := rfl
  generalize platform.withCostModel = platform at modelled ⊢
  apply @good_iff_allowed _ _ (fun taken => CostsExact platform start taken ∧
    Capped (start.afterCalls platform taken).bank.costTracker)
  · refine ⟨⟨?_, ?_, ?_, ?_⟩, ?_⟩
    · simp [Ledger.afterCalls, totalCharge, fresh, withLimits]
    · intro key
      simp [Ledger.afterCalls, totalCharge, fresh, withLimits, accountCost]
    · simp
    · simp
    · rw [Ledger.afterCalls, foldl_nil, fresh]
      clear fresh
      exact ⟨by decide +revert, by decide +revert, Nat.zero_le _, fun key => le_refl 0⟩
  · intro earlier next inside known settles
    obtain ⟨costs, capped⟩ := known
    have charged := charged_of_settles modelled capped settles
    refine ⟨⟨?_, ?_, ?_, ?_⟩, ?_⟩
    · rw [afterCalls_append, totalCharge_append, charged.block, costs.block]
    · intro key
      rw [afterCalls_append, totalCharge_append, charged.account, costs.account]
    · exact forall_step_append.mpr ⟨costs.untouched, charged.untouched⟩
    · exact forall_step_append.mpr ⟨costs.covered, charged.covered⟩
    · rw [afterCalls_append]
      exact charged.capped
  · intro taken inside known
    exact known.1
  · intro earlier next inside known good
    obtain ⟨costs, capped⟩ := known
    apply settles_of_charged capped
    · have block := good.block
      rw [afterCalls_append, totalCharge_append, ← costs.block] at block
      exact block
    · exact good.untouched earlier next (prefix_refl _)

end

def strayCall : Call :=
  { backend := .idle
    transaction :=
      .simple [.filled 32 8, computeBudgetProgramId] 1 (.filled 32 9)
        [{ programIdIndex := 1, accountIndices := [], data := [] }]
    computeLimit := 1400000 }

theorem purseCall_costsExact : CostsExact (Platform.bare Host.bare).withCostModel purseLedger [purseCall] := by
  apply (costsExact_iff (.bare .bare) purseLedger false false false rfl [purseCall]).mpr
  · rw [forall_step_cons]
    refine ⟨?_, ?_⟩
    · exact ⟨by decide, by decide⟩
    · intro earlier next inside
      simp at inside
  · exact prefix_refl _

theorem strayCall_not_costsExact : ¬ CostsExact (Platform.bare Host.bare).withCostModel purseLedger [strayCall] := by
  intro costs
  have block := costs.block
  revert block
  decide

end Karstflow.Runtime
