import Karstflow.Runtime.Landing
import Karstflow.Storage.PublishedStore

namespace Karstflow.Runtime

open Data Karstflow.Types Sbpf Execution Table Option
open Storage (PublishedStore PublishedCall)

/-! What a transaction costs: the fee leaves the published accounts once and
arrives in the bank's counters. -/

def supply (published : Table Pubkey Account) : Nat := published.total fun _ account => account.lamports

/-- The fee that the result reports left the accounts, went into the bank's
fee counters, and paid for every change there is. -/
structure ChargedOnce (before after : Bank) (published left : Table Pubkey Account)
    (result : TransactionExecutionResult) : Prop where
  supply : supply published = supply left + result.fee
  fees : after.executionFees + after.priorityFees = before.executionFees + before.priorityFees + result.fee
  free : result.fee = 0 → ∀ key, left.get key = published.get key

/-- The fee and the counters it goes into stay below 2^64. -/
def CountersFit (bank : Bank) (landing : Landing) : Prop :=
  landing.executionFee + landing.priorityFee ≤ u64Max ∧
    bank.executionFees + landing.executionFee ≤ u64Max ∧ bank.priorityFees + landing.priorityFee ≤ u64Max

instance (bank : Bank) (landing : Landing) : Decidable (CountersFit bank landing) :=
  inferInstanceAs (Decidable (_ ∧ _))

def Idle (published : Table Pubkey Account) (writes : Modified) : Prop :=
  ∀ key account, writes.get key = some account → published.get key = some account

/-- The returned accounts hold together what the published ones held after the
fee. The balance check answers for the accounts that the message marks as
writable, and only for those: they count with the balance they were loaded
with. -/
def Vouched (published : Table Pubkey Account) (execution : Execution) (landing : Landing)
    (modified : Modified) : Prop :=
  (modified.total fun key account =>
      if key ∈ execution.transaction.writableAccounts then
        lamportsOf execution.accountState key
      else account.lamports) =
    modified.total fun key _ =>
      lamportsOf (published.insert landing.feePayer landing.payerAfterFee) key

/-- A failed transaction leaves the payer debited: its nonce is not the payer's
own account. Without a fee it has no nonce to advance. -/
def FailsPaid (landing : Landing) : Prop :=
  if landing.fee = 0 then landing.durableNonce = none
  else ∀ info, landing.durableNonce = some info → info.nonceKey ≠ landing.feePayer

/-- When a landed transaction charges its fee once: it loads its accounts, or
is free, and the counters do not overflow; if it fails, the payer is not its
nonce account; if it succeeds, the accounts that come back outside the balance
check keep their sum, and a free transaction returns everything as it was. -/
def AccountedLanding (platform : Platform) (backend : Backend) (ledger : Ledger)
    (transaction : SanitizedTransaction) (computeLimit : Nat) (landing : Landing) : Prop :=
  match loadTransactionAccounts platform ledger.shared transaction
      landing.budget.loadedAccountsDataSizeLimit with
  | .error _ => landing.fee = 0
  | .ok (loaded, _) =>
    let execution := executionOf platform backend ledger transaction landing loaded computeLimit
    CountersFit ledger.bank landing ∧
    match execution.run with
    | (_, some _) => FailsPaid landing
    | (state, none) =>
      Vouched ledger.shared.published execution landing state.modified ∧
        (landing.fee = 0 → Idle ledger.shared.published (landing.successWrites state.modified))

/-- A call that lands the transaction charges its fee once. -/
def Accounted (platform : Platform) (backend : Backend) (ledger : Ledger)
    (transaction : SanitizedTransaction) (computeLimit : Nat) : Prop :=
  ∀ tracker landing, admission platform ledger transaction computeLimit = .landed tracker landing →
    AccountedLanding platform backend { ledger with bank.costTracker := tracker } transaction computeLimit
      landing

section

variable {execution : Execution}

variable {platform : Platform} {backend : Backend} {ledger : Ledger}
variable {transaction : SanitizedTransaction} {computeLimit : Nat} {landing : Landing}

theorem supply_insert (published : Table Pubkey Account) (key : Pubkey) (account : Account) :
    supply (published.insert key account) + lamportsOf published key = supply published + account.lamports :=
  total_insert_add published key account fun _ account => account.lamports

theorem supply_overlay (published : Table Pubkey Account) (writes : Modified) :
    supply (published.overlay writes) + writes.total (fun key _ => lamportsOf published key) =
      supply published + writes.total fun _ account => account.lamports :=
  total_foldl_insert writes.entries_pairwise published fun _ account => account.lamports

theorem total_orInsert {weigh : Pubkey → Account → Nat} : (orInsert modified key account).total weigh =
      modified.total weigh + if modified.contains key then 0 else weigh key account := by
  by_cases there : modified.contains key = true
  · simp [orInsert, there]
  have absent : modified.get key = none := by
    simpa [contains] using there
  have inserted := total_insert_add modified key account weigh
  rw [absent, elim_none] at inserted
  simpa [orInsert, there] using inserted

@[simp] theorem reclaim_lamports (account : Account) : (reclaim account).lamports = account.lamports := by
  by_cases empty : account.lamports = 0
  · simp [reclaim, empty, Account.zeroed]
  · simp [reclaim, empty]

theorem total_lamportsOf_insert (modified : Modified) (published : Table Pubkey Account) (key : Pubkey)
    (account : Account) : modified.total (fun other _ => lamportsOf (published.insert key account) other) +
        (if modified.contains key then lamportsOf published key else 0) =
      modified.total (fun other _ => lamportsOf published other) +
        if modified.contains key then account.lamports else 0 := by
  have elsewhere : ((modified.erase key).total fun other _ =>
      lamportsOf (published.insert key account) other) =
      (modified.erase key).total fun other _ => lamportsOf published other := by
    apply total_congr
    intro other value found
    have different : other ≠ key := by
      intro same
      rw [same, get_erase_self] at found
      cases found
    rw [lamportsOf, get_insert_ne different, lamportsOf]
  have inserted : lamportsOf (published.insert key account) key = account.lamports := by
    rw [lamportsOf, get_insert_self, elim_some]
  rw [total_eq_erase modified key, total_eq_erase modified key (fun other _ => lamportsOf published other), elsewhere]
  cases found : modified.get key with
  | none => simp [contains, found]
  | some value =>
    simp only [contains, found, isSome_some, if_true, elim_some, inserted]
    omega

theorem writableAccounts_nodup (distinct : transaction.accountKeys.Nodup) : transaction.writableAccounts.Nodup := by
  have sub : transaction.writableAccounts.Sublist (transaction.accountKeys.zipIdx.map Prod.fst) :=
    List.filter_sublist.map Prod.fst
  rw [List.zipIdx_map_fst] at sub
  exact distinct.sublist sub

/-- The balance check: the writable accounts among the returned ones hold what
they were loaded with. -/
theorem total_of_balanced (distinct : execution.transaction.accountKeys.Nodup)
    (balanced : execution.balanced modified = true) : (modified.total fun _ account => account.lamports) =
      modified.total fun key account =>
        if key ∈ execution.transaction.writableAccounts then
          lamportsOf execution.accountState key
        else account.lamports := by
  have locked := writableAccounts_nodup distinct
  simp only [Execution.balanced, decide_eq_true_eq] at balanced
  have written := sum_map_get locked modified fun _ account => account.lamports
  have loaded := sum_map_get locked modified fun key _ =>
    lamportsOf execution.accountState key
  have same : (execution.transaction.writableAccounts.map fun key =>
        (modified.get key).elim 0 Account.lamports).sum =
      (execution.transaction.writableAccounts.map fun key =>
        (modified.get key).elim 0 fun _ => lamportsOf execution.accountState key).sum := by
    generalize execution.transaction.writableAccounts = keys at balanced
    have parts (keys : List Pubkey) :
        (keys.map fun key => (modified.get key).elim (lamportsOf execution.accountState key) Account.lamports).sum +
          (keys.map fun key => (modified.get key).elim 0 fun _ =>
            lamportsOf execution.accountState key).sum =
        (keys.map (lamportsOf execution.accountState)).sum +
          (keys.map fun key => (modified.get key).elim 0 Account.lamports).sum := by
      induction keys with
      | nil => rfl
      | cons key rest ih =>
        simp only [List.map_cons, List.sum_cons]
        cases modified.get key with
        | none => simp only [elim_none]; omega
        | some account => simp only [elim_some]; omega
    have all := parts keys
    omega
  have inside := written.symm.trans (same.trans loaded)
  have outside (weigh : Pubkey → Account → Nat) : modified.total weigh =
      (modified.total fun key account =>
        if key ∈ execution.transaction.writableAccounts then weigh key account else 0) +
      modified.total fun key account =>
        if key ∈ execution.transaction.writableAccounts then 0 else weigh key account := by
    rw [← total_add]
    apply total_congr
    intro key account _
    split <;> simp
  rw [outside fun _ account => account.lamports, inside, ← total_add]
  apply total_congr
  intro key account _
  split <;> simp

theorem supply_ext (same : ∀ key, other.get key = published.get key) :
    supply other = supply published := total_ext same _

theorem idle_iff : (∀ key, (published.overlay writes).get key = published.get key) ↔ Idle published writes := by
  constructor
  · intro unchanged key account written
    rw [← unchanged key, get_overlay, written]
    rfl
  · intro idle key
    rw [get_overlay]
    cases written : writes.get key with
    | none => rfl
    | some account => exact (idle key account written).symm

theorem total_successWrites (weigh : Pubkey → Account → Nat)
    (reclaimed : ∀ key account, weigh key (reclaim account) = weigh key account) :
    (landing.successWrites modified).total weigh = (modified.total weigh +
        if modified.contains landing.feePayer then 0 else weigh landing.feePayer landing.payerAfterFee) +
      landing.durableNonce.elim 0 fun info =>
        if (orInsert modified landing.feePayer landing.payerAfterFee).contains info.nonceKey then 0
        else weigh info.nonceKey info.rollbackAccount := by
  rw [Landing.successWrites, reclaimZeroLamportAccounts, total_mapValues]
  simp only [reclaimed]
  cases landing.durableNonce with
  | none => simp only [total_orInsert, elim_none, add_zero]
  | some info => simp only [total_orInsert, elim_some]

theorem balanced_of_run (ran : execution.run = (state, none)) : execution.balanced state.modified = true := by
  cases looped : execution.loop 0 execution.transaction.instructions .start with
  | mk reached error =>
    cases error with
    | some error => simp [run, looped] at ran
    | none =>
      simp only [run, looped, Prod.mk.injEq] at ran
      obtain ⟨same, passed⟩ := ran
      subst same
      simp only [check] at passed
      split at passed
      · cases passed
      split at passed
      · cases passed
      · split at passed
        · assumption
        · cases passed

section

variable (landed : Landed platform ledger transaction landing)

include landed

theorem Landed.recorded_iff : wrapAdd ledger.bank.executionFees landing.executionFee +
        wrapAdd ledger.bank.priorityFees landing.priorityFee =
      ledger.bank.executionFees + ledger.bank.priorityFees + landing.fee ↔ CountersFit ledger.bank landing := by
  have executionFee_le : landing.executionFee ≤ u64Max := by
    rw [landed.executionFee_eq]
    exact min_le_right _ _
  have priorityFee_le : landing.priorityFee ≤ u64Max := by
    rw [landed.priorityFee_eq, calculatePriorityFee]
    split
    · exact Nat.zero_le _
    · exact min_le_right _ _
  -- A wrapped counter loses a multiple of 2^64, a saturated fee less than 2^64.
  simp only [CountersFit, Landing.fee, satAdd, wrapAdd, u64Max] at executionFee_le priorityFee_le ⊢
  omega

theorem Landed.supply_paid : supply ledger.shared.published =
      supply (ledger.shared.published.insert landing.feePayer landing.payerAfterFee) + landing.fee := by
  obtain ⟨payer, found, -, enough, debited⟩ := landed.paid
  have changed := supply_insert ledger.shared.published landing.feePayer landing.payerAfterFee
  rw [lamportsOf, found, elim_some, debited, Account.debit_lamports] at changed
  rw [debited]
  omega

theorem Landed.nonce_published (durable : landing.durableNonce = some info) :
    ∃ account, ledger.shared.published.get info.nonceKey = some account ∧
      account.lamports = info.rollbackAccount.lamports ∧ account ≠ info.rollbackAccount := by
  obtain ⟨-, account, stored, found, read, -, stale, advanced⟩ :=
    tryDetectDurableNonce_eq_some (landed.screened.durable info durable).2
  refine ⟨account, found, by rw [advanced], ?_⟩
  intro same
  have spelled := (storedNonce_eq_some read).2
  rw [same, advanced, nonce_of_serializeNonceState] at spelled
  exact stale (Octets.ext_bytes spelled.symm)

theorem Landed.get_paid_of_free (free : landing.fee = 0) :
    (ledger.shared.published.insert landing.feePayer landing.payerAfterFee).get key =
      ledger.shared.published.get key := by
  obtain ⟨payer, found, -, -, debited⟩ := landed.paid
  rw [free, Account.debit_zero] at debited
  by_cases same : key = landing.feePayer
  · rw [same, get_insert_self, debited, found]
  · exact get_insert_ne same

theorem Landed.failure_supply : supply ledger.shared.published =
        supply (ledger.shared.published.overlay landing.failureWrites) + landing.fee ↔
      landing.fee = 0 ∨ ∀ info, landing.durableNonce = some info → info.nonceKey ≠ landing.feePayer := by
  have paid := landed.supply_paid
  cases durable : landing.durableNonce with
  | none =>
    rw [supply_ext fun key => get_overlay_failureWrites durable]
    simp [paid]
  | some info =>
    rw [supply_ext fun key => get_overlay_failureWrites_nonce durable]
    obtain ⟨account, found, same, -⟩ := landed.nonce_published durable
    have changed := supply_insert (ledger.shared.published.insert landing.feePayer landing.payerAfterFee)
      info.nonceKey info.rollbackAccount
    simp only [some.injEq, forall_eq']
    by_cases own : info.nonceKey = landing.feePayer
    · -- The nonce account is written over the debited payer.
      have before := supply_insert ledger.shared.published info.nonceKey info.rollbackAccount
      rw [lamportsOf, found, elim_some, same] at before
      rw [own, insert_insert, ← own]
      simp only [own, ne_eq, not_true_eq_false, or_false]
      rw [own] at before
      omega
    · rw [lamportsOf, get_insert_ne own, found, elim_some, same] at changed
      simp only [ne_eq, own, not_false_eq_true, or_true, iff_true]
      omega

theorem Landed.failure_free (free : landing.fee = 0) :
    (∀ key, (ledger.shared.published.overlay landing.failureWrites).get key =
        ledger.shared.published.get key) ↔ landing.durableNonce = none := by
  constructor
  · intro unchanged
    cases durable : landing.durableNonce with
    | none => rfl
    | some info =>
      obtain ⟨account, found, -, moved⟩ := landed.nonce_published durable
      have now := unchanged info.nonceKey
      rw [get_overlay_failureWrites_nonce durable, get_insert_self, found] at now
      exact absurd (some.inj now).symm moved
  · intro plain key
    rw [get_overlay_failureWrites plain, landed.get_paid_of_free free]

theorem Executed.charged_iff (executed : Executed platform ledger after transaction landing result writes) :
    ChargedOnce ledger.bank after.bank ledger.shared.published after.shared.published result ↔ CountersFit ledger.bank landing ∧
      supply ledger.shared.published = supply (ledger.shared.published.overlay writes) + landing.fee ∧
      (landing.fee = 0 → ∀ key, (ledger.shared.published.overlay writes).get key =
        ledger.shared.published.get key) := by
  rw [← landed.recorded_iff, ← executed.executionFees, ← executed.priorityFees, ← executed.published, ← executed.fee]
  exact ⟨fun charged => ⟨charged.fees, charged.supply, charged.free⟩, fun ⟨fees, moved, free⟩ => ⟨moved, fees, free⟩⟩

theorem Executed.failure_iff
    (executed : Executed platform ledger after transaction landing result landing.failureWrites) :
    ChargedOnce ledger.bank after.bank ledger.shared.published after.shared.published result ↔ CountersFit ledger.bank landing ∧ FailsPaid landing := by
  rw [executed.charged_iff landed, landed.failure_supply, FailsPaid]
  by_cases free : landing.fee = 0
  · simp [free, landed.failure_free free]
  · simp [free]

theorem Landed.success_supply : supply ledger.shared.published =
        supply (ledger.shared.published.overlay (landing.successWrites modified)) + landing.fee ↔
      (modified.total fun _ account => account.lamports) = modified.total fun key _ => lamportsOf
          (ledger.shared.published.insert landing.feePayer landing.payerAfterFee) key := by
  obtain ⟨payer, found, -, enough, debited⟩ := landed.paid
  have held : lamportsOf ledger.shared.published landing.feePayer = payer.lamports := by
    rw [lamportsOf, found, elim_some]
  have left : landing.payerAfterFee.lamports = payer.lamports - landing.fee := by
    rw [debited, Account.debit_lamports]
  have moved := supply_overlay ledger.shared.published (landing.successWrites modified)
  have paid := total_lamportsOf_insert modified ledger.shared.published landing.feePayer landing.payerAfterFee
  rw [total_successWrites (fun key _ => lamportsOf ledger.shared.published key) (fun _ _ => rfl),
    total_successWrites (fun _ account => account.lamports) (fun _ account => reclaim_lamports account)]
    at moved
  have nonce : (landing.durableNonce.elim 0 fun info =>
        if (orInsert modified landing.feePayer landing.payerAfterFee).contains info.nonceKey then 0
        else lamportsOf ledger.shared.published info.nonceKey) =
      landing.durableNonce.elim 0 fun info =>
        if (orInsert modified landing.feePayer landing.payerAfterFee).contains info.nonceKey then 0
        else info.rollbackAccount.lamports := by
    cases durable : landing.durableNonce with
    | none => rfl
    | some info =>
      obtain ⟨account, there, same, -⟩ := landed.nonce_published durable
      rw [elim_some, elim_some, lamportsOf, there, elim_some, same]
  by_cases back : modified.contains landing.feePayer = true
  · simp only [back, if_true] at moved paid
    omega
  · simp only [back, Bool.false_eq_true, if_false] at moved paid
    omega

theorem Executed.success_iff
    (executed : Executed platform ledger after transaction landing result (landing.successWrites modified))
    (same : execution.transaction = transaction) (balanced : execution.balanced modified = true) :
    ChargedOnce ledger.bank after.bank ledger.shared.published after.shared.published result ↔
      CountersFit ledger.bank landing ∧ Vouched ledger.shared.published execution landing modified ∧
        (landing.fee = 0 → Idle ledger.shared.published (landing.successWrites modified)) := by
  have distinct : execution.transaction.accountKeys.Nodup := by
    rw [same]
    exact landed.screened.distinct
  rw [executed.charged_iff landed, landed.success_supply, total_of_balanced distinct balanced, idle_iff, Vouched]

theorem Landed.processLanded_iff (processed : processLanded platform backend ledger transaction computeLimit landing =
      (after, some result)) : ChargedOnce ledger.bank after.bank ledger.shared.published after.shared.published result ↔
      AccountedLanding platform backend ledger transaction computeLimit landing := by
  cases load : loadTransactionAccounts platform ledger.shared transaction
      landing.budget.loadedAccountsDataSizeLimit with
  | error error =>
    simp only [processLanded, load] at processed
    cases processed
    simp only [AccountedLanding, load]
    constructor
    · intro charged
      exact add_eq_left.mp charged.supply.symm
    · intro free
      exact ⟨by simp only [free, add_zero], by simp only [free, add_zero]; rfl, fun _ _ => rfl⟩
  | ok loaded =>
    obtain ⟨loaded, loadedDataSize⟩ := loaded
    cases ran : (executionOf platform backend ledger transaction landing loaded computeLimit).run with
    | mk state error =>
      cases error with
      | some error =>
        simp only [processLanded, load, ran] at processed
        simp only [AccountedLanding, load, ran]
        exact (commitFailure_executed processed).failure_iff landed
      | none =>
        simp only [processLanded, load, ran] at processed
        simp only [AccountedLanding, load, ran]
        exact (commitSuccess_executed processed).success_iff landed rfl (balanced_of_run ran)

end

theorem Accounted.charged_iff (processed : processTransaction platform backend ledger transaction computeLimit =
      (after, some result)) :
    ChargedOnce ledger.bank after.bank ledger.shared.published after.shared.published result ↔
      Accounted platform backend ledger transaction computeLimit := by
  cases admitted : admission platform ledger transaction computeLimit with
  | refused error | unpaid tracker error =>
    simp only [processTransaction, admitted] at processed
    cases processed
    simp only [Accounted, admitted, reduceCtorEq, false_implies, implies_true, iff_true]
    exact ⟨rfl, rfl, fun _ _ => rfl⟩
  | aborted tracker => simp [processTransaction, admitted] at processed
  | landed tracker landing =>
    simp only [processTransaction, admitted] at processed
    simp only [Accounted, admitted, Admission.landed.injEq, and_imp, forall_eq', forall_apply_eq_imp_iff]
    have charged := ((admission_eq_landed admitted).withTracker tracker).processLanded_iff processed
    rw [← charged]
    exact ⟨fun once => ⟨once.supply, once.fees, once.free⟩, fun once => ⟨once.supply, once.fees, once.free⟩⟩

theorem chargedOnce_congr (same : ∀ key, other.get key = published.get key)
    (sameLeft : ∀ key, otherLeft.get key = left.get key) :
    ChargedOnce bank after other otherLeft result ↔ ChargedOnce bank after published left result := by
  constructor
  · rintro ⟨moved, fees, free⟩
    rw [supply_ext same, supply_ext sameLeft] at moved
    exact ⟨moved, fees, fun nothing key => by rw [← sameLeft, free nothing, same]⟩
  · rintro ⟨moved, fees, free⟩
    rw [← supply_ext same, ← supply_ext sameLeft] at moved
    exact ⟨moved, fees, fun nothing key => by rw [sameLeft, free nothing, same]⟩

end

/-- The fee of every landed transaction leaves the accounts of the store once
and arrives in the counters exactly when the transaction is `Accounted`, as
long as the store keeps what is written. -/
theorem processTransaction_chargedOnce_iff (platform : Platform) (backend : Backend) (ledger after : Ledger)
    (transaction : SanitizedTransaction) (computeLimit : Nat) (result : TransactionExecutionResult)
    (processed : processTransaction platform backend ledger transaction computeLimit = (after, some result))
    (store : PublishedStore) (calls : List PublishedCall)
    (serves : store.Serves calls ledger.shared.published after.shared.published) :
    ChargedOnce ledger.bank after.bank store.iterAll (calls.foldl .serve store).iterAll result ↔
      Accounted platform backend ledger transaction computeLimit := by
  rw [chargedOnce_congr serves.shows.get_iterAll serves.holds.get_iterAll]
  exact Accounted.charged_iff processed

/-- The purse in a cache of its own, with room for another account. -/
def purseStore : PublishedStore := { cache := purseLedger.shared.published, maxEntries := 2, store := none }

theorem plainTransaction_charged : ∃ after result,
      processTransaction (.bare .bare) .idle purseLedger plainTransaction 1000 = (after, some result) ∧
      result.fee = 5000 ∧ ChargedOnce purseLedger.bank after.bank purseStore.iterAll
        (purseStore.serve (.write (empty.insert (.filled 32 7) (purse.debit 5000)) 0)).iterAll result := by
  refine ⟨_, _, rfl, by decide,
    (processTransaction_chargedOnce_iff (.bare .bare) .idle purseLedger _ plainTransaction 1000 _ rfl purseStore
      [.write (empty.insert (.filled 32 7) (purse.debit 5000)) 0] ⟨?_, rfl, by decide +kernel⟩).mpr ?_⟩
  · exact .of_unbacked rfl (fun _ => rfl) (by decide +kernel)
  intro tracker landing admitted
  cases admitted
  refine ⟨by decide, ?_, ?_⟩
  · simp only [Vouched]
    decide
  · intro free
    exact absurd free (by decide)

def crampedTransaction : SanitizedTransaction :=
  .simple [.filled 32 7, computeBudgetProgramId] 1 (.filled 32 9)
    [{ programIdIndex := 1, accountIndices := [], data := [4, 1, 0, 0, 0] }]

/-- The payer does not fit into the byte. The result reports a fee of 5000
lamports that nobody pays. -/
theorem crampedTransaction_unpaid : ∃ after result,
      processTransaction (.bare .bare) .idle purseLedger crampedTransaction 1000 = (after, some result) ∧
      result.fee = 5000 ∧ after.shared.published = purseLedger.shared.published ∧
      after.bank.executionFees = 0 ∧ after.bank.priorityFees = 0 ∧
      ¬ ChargedOnce purseLedger.bank after.bank purseStore.iterAll purseStore.iterAll result := by
  refine ⟨_, _, rfl, by decide, rfl, by decide, by decide, ?_⟩
  intro charged
  exact absurd charged.fees (by decide)

end Karstflow.Runtime
