import Karstflow.Runtime.Executor

namespace Karstflow.Runtime

open Data Karstflow.Types Sbpf Table Option

/-! What is known of a transaction that has landed, and what processing it
leaves behind. -/

variable {platform : Platform}
variable {landing : Landing}

theorem nodup_of_duplicateKey (none : duplicateKey keys = none) : keys.Nodup := by
  induction keys with
  | nil => exact List.nodup_nil
  | cons key rest ih =>
    by_cases again : key ∈ rest
    · simp [duplicateKey, again] at none
    · simp only [duplicateKey, again, if_false] at none
      exact List.nodup_cons.mpr ⟨again, ih none⟩

theorem validateAccountLocks_eq_ok (valid : validateAccountLocks transaction = .ok done) :
    transaction.accountKeys.Nodup := by
  by_cases many : maxTransactionAccountLocks < transaction.accountKeys.length
  · simp [validateAccountLocks, many] at valid
  · cases found : duplicateKey transaction.accountKeys with
    | none => exact nodup_of_duplicateKey found
    | some key => simp [validateAccountLocks, many, found] at valid

theorem storedNonce_eq_some (read : storedNonce account = some stored) :
    account.data.length = nonceAccountSize ∧ account.data.extract 40 72 = stored.durableNonce.bytes := by
  simp only [storedNonce, deserializeNonceState] at read
  split at read
  · rename_i data parsed
    cases read
    split at parsed
    · cases parsed
    rename_i sized
    split at parsed
    · cases parsed
    split at parsed
    · cases parsed
    simp only [bind_eq_bind, bind_eq_some_iff, Octets.ofBytes_eq_some, pure,
      some.injEq, Nonce.initialized.injEq] at parsed
    obtain ⟨authority, -, durableNonce, spelled, same⟩ := parsed
    cases same
    exact ⟨not_not.mp sized, spelled.symm⟩
  · cases read

theorem tryDetectDurableNonce_eq_some
    (detected : tryDetectDurableNonce platform.host transaction published lastBlockhash fee
      requireStaticNonce = some info) : nonceKeyOf transaction requireStaticNonce = some info.nonceKey ∧
      ∃ account stored, published.get info.nonceKey = some account ∧ storedNonce account = some stored ∧
        stored.durableNonce = transaction.recentBlockhash ∧
        stored.durableNonce ≠ deriveDurableNonce platform.host lastBlockhash ∧ info.rollbackAccount = { account with
            data := serializeNonceState (.initialized
              { authority := stored.authority
                durableNonce := deriveDurableNonce platform.host lastBlockhash
                lamportsPerSignature := fee }) } := by
  simp only [tryDetectDurableNonce, bind_eq_bind, bind_eq_some_iff] at detected
  obtain ⟨nonceKey, named, account, found, stored, read, detected⟩ := detected
  split at detected
  · cases detected
  · rename_i fresh
    cases detected
    obtain ⟨same, advanced⟩ := not_or.mp fresh
    exact ⟨named, account, stored, found, read, not_not.mp same, advanced, rfl⟩

theorem nonce_of_serializeNonceState :
    (serializeNonceState (.initialized data)).extract 40 72 = data.durableNonce.bytes :=
  NonceVersionedState.durableNonce_of_serialize

structure Screened (platform : Platform) (ledger : Ledger) (transaction : SanitizedTransaction)
    (durableNonce : Option DurableNonceInfo) : Prop where
  open_ : ledger.bank.status ≠ .rooted
  distinct : transaction.accountKeys.Nodup
  recent : durableNonce = none → ledger.bank.isBlockhashValid transaction.recentBlockhash = true
  durable : ∀ info, durableNonce = some info →
    ledger.bank.isBlockhashValid transaction.recentBlockhash = false ∧
    tryDetectDurableNonce platform.host transaction ledger.shared.published ledger.bank.lastBlockhash
      baseLamportsPerSignature (ledger.shared.isActive requireStaticNonceAccountFeature) = some info
  unseen : transaction.signatures ≠ [] →
    ledger.shared.transactionCache.contains transaction.recentBlockhash
      (computeMessageHash platform.host transaction) ledger.bank.slot = false

theorem screen_eq_ok (passed : screen platform ledger transaction = .ok durableNonce) :
    Screened platform ledger transaction durableNonce := by
  simp only [screen, bind_eq_ok, ensure_eq_ok, exists_const, pure_eq_ok] at passed
  obtain ⟨running, _, locks, -, _, -, _, aged, _, signed, same⟩ := passed
  subst same
  have unseen : transaction.signatures ≠ [] → ledger.shared.transactionCache.contains
      transaction.recentBlockhash (computeMessageHash platform.host transaction) ledger.bank.slot = false := by
    intro present
    simp only [checkSigned, present, if_false, bind_eq_ok, ensure_eq_ok] at signed
    obtain ⟨_, -, fresh⟩ := signed
    exact fresh
  cases valid : ledger.bank.isBlockhashValid transaction.recentBlockhash with
  | true =>
    simp only [checkAge, valid, if_true, Except.ok.injEq] at aged
    subst aged
    refine ⟨running, validateAccountLocks_eq_ok locks, fun _ => valid, ?_, unseen⟩
    intro info impossible
    cases impossible
  | false =>
    cases detected : tryDetectDurableNonce platform.host transaction ledger.shared.published
        ledger.bank.lastBlockhash baseLamportsPerSignature
        (ledger.shared.isActive requireStaticNonceAccountFeature) with
    | none => simp [checkAge, valid, detected] at aged
    | some info =>
      simp only [checkAge, valid, Bool.false_eq_true, if_false, detected, Except.ok.injEq] at aged
      subst aged
      refine ⟨running, validateAccountLocks_eq_ok locks, ?_, ?_, unseen⟩
      · intro impossible
        cases impossible
      · intro other same
        cases same
        exact ⟨valid, detected⟩

theorem validateFeePayer_eq_ok (valid : validateFeePayer rent relax feePayer fee found = .ok paid) :
    ∃ payer, found = some payer ∧ payer.owner = systemProgramId ∧ fee ≤ payer.lamports ∧ paid = payer.debit fee := by
  cases found with
  | none => cases valid
  | some payer =>
    cases kind : getSystemAccountKind payer with
    | none => simp [validateFeePayer, kind, bind_eq_ok] at valid
    | some sort =>
      simp only [validateFeePayer, kind, bind_eq_ok, ensure_eq_ok, exists_const, pure_eq_ok] at valid
      obtain ⟨-, enough, -, same⟩ := valid
      have owned : payer.owner = systemProgramId := by
        by_contra foreign
        simp [getSystemAccountKind, foreign] at kind
      exact ⟨payer, rfl, owned, le_trans enough (Nat.sub_le _ _), same.symm⟩

structure Landed (platform : Platform) (ledger : Ledger) (transaction : SanitizedTransaction)
    (landing : Landing) : Prop where
  screened : Screened platform ledger transaction landing.durableNonce
  payer_first : ∃ rest, transaction.accountKeys = landing.feePayer :: rest
  executionFee_eq : landing.executionFee = executionFee ledger.bank.lamportsPerSignature transaction
  priorityFee_eq : landing.priorityFee = calculatePriorityFee (parseComputeBudget transaction)
  budget_eq : landing.budget = parseComputeBudget transaction
  paid : ∃ payer, ledger.shared.published.get landing.feePayer = some payer ∧
    payer.owner = systemProgramId ∧ landing.fee ≤ payer.lamports ∧
    landing.payerAfterFee = payer.debit landing.fee

theorem Landed.withTracker (landed : Landed platform ledger transaction landing) (tracker : CostTracker) :
    Landed platform { ledger with bank.costTracker := tracker } transaction landing :=
  ⟨⟨landed.screened.open_, landed.screened.distinct, landed.screened.recent, landed.screened.durable,
    landed.screened.unseen⟩, landed.payer_first, landed.executionFee_eq, landed.priorityFee_eq,
    landed.budget_eq, landed.paid⟩

theorem admission_eq_landed (landed : admission platform ledger transaction computeLimit = .landed tracker landing) :
    Landed platform ledger transaction landing := by
  cases screened : screen platform ledger transaction with
  | error error => simp [admission, screened] at landed
  | ok durableNonce =>
    simp only [admission, screened] at landed
    split at landed
    · cases landed
    split at landed
    · cases landed
    rename_i feePayer rest keys
    split at landed
    · cases landed
    · rename_i paid valid
      cases landed
      exact ⟨screen_eq_ok screened, ⟨rest, keys⟩, rfl, rfl, rfl, validateFeePayer_eq_ok valid⟩

section

variable {published : Table Pubkey Account}

theorem get_orInsert :
    (orInsert modified key account).get other =
      (modified.get other).or (if other = key then some account else none) := by
  by_cases there : modified.contains key = true
  · obtain ⟨value, found⟩ := contains_iff.mp there
    by_cases same : other = key
    · simp [orInsert, there, same, found]
    · simp [orInsert, there, same]
  · have absent : modified.get key = none := by
      simpa [contains] using there
    by_cases same : other = key
    · subst same
      simp [orInsert, there, absent]
    · simp [orInsert, there, same, get_insert_ne same]

theorem get_overlay_failureWrites (plain : landing.durableNonce = none) :
    (published.overlay landing.failureWrites).get key =
      (published.insert landing.feePayer landing.payerAfterFee).get key := by
  rw [get_overlay, Landing.failureWrites, plain, get_insert, get_insert]
  split <;> rfl

theorem get_overlay_failureWrites_nonce (durable : landing.durableNonce = some info) :
    (published.overlay landing.failureWrites).get key =
      ((published.insert landing.feePayer landing.payerAfterFee).insert info.nonceKey
        info.rollbackAccount).get key := by
  rw [get_overlay, Landing.failureWrites, durable]
  simp only [get_insert, get_empty]
  split
  · rfl
  · split <;> rfl

theorem get_successWrites (written : (landing.successWrites modified).get key = some account) :
    (∃ returned, modified.get key = some returned ∧ account = reclaim returned) ∨
      modified.get key = none ∧ key = landing.feePayer ∧ account = reclaim landing.payerAfterFee ∨
      modified.get key = none ∧ key ≠ landing.feePayer ∧
        ∃ info, landing.durableNonce = some info ∧ key = info.nonceKey ∧ account = reclaim info.rollbackAccount := by
  rw [Landing.successWrites, reclaimZeroLamportAccounts, get_mapValues] at written
  obtain ⟨source, found, same⟩ := map_eq_some_iff.mp written
  subst same
  cases returned : modified.get key with
  | some given =>
    have first : source = given := by
      cases durable : landing.durableNonce with
      | none | some info => simpa [durable, get_orInsert, returned] using found.symm
    exact .inl ⟨given, rfl, by rw [first]⟩
  | none =>
    by_cases payer : key = landing.feePayer
    · subst payer
      have first : source = landing.payerAfterFee := by
        cases durable : landing.durableNonce with
        | none | some info => simpa [durable, get_orInsert, returned] using found.symm
      exact .inr (.inl ⟨rfl, rfl, by rw [first]⟩)
    · cases durable : landing.durableNonce with
      | none => simp [durable, get_orInsert, returned, payer] at found
      | some info =>
        simp only [durable, get_orInsert, returned, payer, if_false, or_none, none_or,
          ite_none_right_eq_some, some.injEq] at found
        exact .inr (.inr ⟨rfl, payer, info, rfl, found.1, by rw [found.2]⟩)

theorem get_failureWrites (written : landing.failureWrites.get key = some account) :
    key = landing.feePayer ∧ account = landing.payerAfterFee ∨
      ∃ info, landing.durableNonce = some info ∧ key = info.nonceKey ∧ account = info.rollbackAccount := by
  cases durable : landing.durableNonce with
  | none =>
    simp only [Landing.failureWrites, durable, get_insert, get_empty, ite_none_right_eq_some, some.injEq] at written
    exact .inl ⟨written.1, written.2.symm⟩
  | some info =>
    simp only [Landing.failureWrites, durable, get_insert, get_empty] at written
    split at written
    · exact .inr ⟨info, rfl, by assumption, (some.inj written).symm⟩
    · simp only [ite_none_right_eq_some, some.injEq] at written
      exact .inl ⟨written.1, written.2.symm⟩

end

theorem Landed.payer_mem (landed : Landed platform ledger transaction landing) :
    landing.feePayer ∈ transaction.accountKeys := by
  obtain ⟨rest, keys⟩ := landed.payer_first
  rw [keys]
  exact List.mem_cons_self

namespace Execution

section

variable {execution : Execution}

theorem mem_instructionAccounts
    (resolved : execution.instructionAccounts index programId modified indices = .ok accounts)
    (member : entry ∈ accounts) : ∃ position, execution.transaction.key position = some entry.pubkey ∧
      entry.writable = isAccountWritable execution.transaction position.toNat programId ∧
      (entry.pubkey ≠ instructionsSysvarId → entry.account = execution.current modified entry.pubkey) := by
  induction indices generalizing accounts with
  | nil =>
    cases resolved
    cases member
  | cons position rest ih =>
    simp only [instructionAccounts] at resolved
    split at resolved
    · cases resolved
    rename_i pubkey named
    split at resolved
    · cases resolved
    rename_i entries later
    cases resolved
    cases member with
    | head => exact ⟨position, named, rfl, fun other => if_neg other⟩
    | tail _ member => exact ih later member

theorem instructionAccounts_congr {other : Execution} (transaction : other.transaction = execution.transaction)
    (accountState : other.accountState = execution.accountState) (indices : List UInt8) :
    other.instructionAccounts index programId modified indices =
      execution.instructionAccounts index programId modified indices := by
  induction indices with
  | nil => rfl
  | cons position rest ih => simp only [instructionAccounts, ih, current, transaction, accountState]

theorem mem_withProgram (member : entry ∈ execution.withProgram programId modified accounts) :
    entry ∈ accounts ∨ entry = ⟨programId, execution.current modified programId, false, false⟩ := by
  rw [withProgram] at member
  split at member
  · exact .inl member
  · simpa using member

/-- The account that is brought along for an upgradeable program, if there is one. -/
def codeAccount (execution : Execution) (programId : Pubkey) (modified : Modified) (accounts : List AccountEntry) :
    Option AccountEntry :=
  (programdataAddressOf accounts programId).bind fun address =>
    if accounts.any fun entry => entry.pubkey = address then none
    else
      ((modified.get address).or (execution.ledger.shared.published.get address)).map fun account =>
        { pubkey := address, account, writable := false, signer := false }

theorem withProgramdata_eq : execution.withProgramdata programId modified accounts =
      accounts ++ (execution.codeAccount programId modified accounts).toList := by
  rw [withProgramdata, codeAccount]
  split
  · rename_i absent
    simp [absent]
  rename_i address found
  rw [found, bind_some]
  split
  · simp
  split
  · rename_i missing
    simp [missing]
  · rename_i account there
    simp [there]

theorem question_eq_some (asked : execution.question index instruction state = some info) :
    ∃ programId accounts, execution.transaction.key instruction.programIdIndex = some programId ∧
      execution.instructionAccounts index programId state.modified instruction.accountIndices = .ok accounts ∧
      info = execution.instructionInfo programId instruction accounts state := by
  simp only [question] at asked
  split at asked
  · cases asked
  rename_i programId named
  split at asked
  · cases asked
  · rename_i accounts resolved
    exact ⟨programId, accounts, named, resolved, (some.inj asked).symm⟩

end

end Execution

/-- What an executed transaction leaves: its writes in the published accounts,
its place in the cache, and the fee in the counters. -/
structure Executed (platform : Platform) (ledger after : Ledger) (transaction : SanitizedTransaction)
    (landing : Landing) (result : TransactionExecutionResult) (writes : Modified) : Prop where
  published : after.shared.published = ledger.shared.published.overlay writes
  transactionCache : ∃ status, after.shared.transactionCache =
    landing.remembered platform.host ledger.shared.transactionCache transaction ledger.bank.slot status
  sysvars : after.shared.sysvars = ledger.shared.sysvars
  features : after.shared.features = ledger.shared.features
  stakeTracker : after.shared.stakeTracker = (ledger.shared.publish platform writes).stakeTracker
  slot : after.bank.slot = ledger.bank.slot
  blockhashQueue : after.bank.blockhashQueue = ledger.bank.blockhashQueue
  executionFees : after.bank.executionFees = wrapAdd ledger.bank.executionFees landing.executionFee
  priorityFees : after.bank.priorityFees = wrapAdd ledger.bank.priorityFees landing.priorityFee
  fee : result.fee = landing.fee

/-- What a call does: it turns the transaction away, or it lands it and does
not load its accounts, or it executes it. -/
inductive Outcome (platform : Platform) (backend : Backend) (ledger : Ledger)
    (transaction : SanitizedTransaction) (computeLimit : Nat) :
    Ledger → Option TransactionExecutionResult → Prop where
  | turnedAway {costTracker : CostTracker} {answer : Option TransactionExecutionResult}
      (missed : ∀ tracker landing,
        admission platform ledger transaction computeLimit ≠ .landed tracker landing)
      (refused : ∀ result, answer = some result → ∃ error, result = refusal error) :
      Outcome platform backend ledger transaction computeLimit
        { ledger with bank := { ledger.bank with costTracker } } answer
  | unloaded {tracker costTracker : CostTracker} {landing : Landing} {error : TransactionExecutionError}
      {result : TransactionExecutionResult}
      (landed : admission platform ledger transaction computeLimit = .landed tracker landing)
      (failed : loadTransactionAccounts platform ledger.shared transaction
        landing.budget.loadedAccountsDataSizeLimit = .error error)
      (fee : result.fee = landing.fee) :
      Outcome platform backend ledger transaction computeLimit
        { ledger with bank := { ledger.bank with costTracker } } (some result)
  | executed {tracker : CostTracker} {landing : Landing} {loaded : Modified} {size : Nat} {state : LoopState}
      {error : Option TransactionExecutionError} {after : Ledger} {result : TransactionExecutionResult}
      (landed : admission platform ledger transaction computeLimit = .landed tracker landing)
      (loads : loadTransactionAccounts platform ledger.shared transaction
        landing.budget.loadedAccountsDataSizeLimit = .ok (loaded, size))
      (ran : (executionOf platform backend { ledger with bank.costTracker := tracker } transaction landing
        loaded computeLimit).run = (state, error))
      (effect : Executed platform ledger after transaction landing result
        (error.elim (landing.successWrites state.modified) fun _ => landing.failureWrites)) :
      Outcome platform backend ledger transaction computeLimit after (some result)

theorem commitFailure_executed {error : TransactionExecutionError}
    (committed : commitFailure platform ledger landing transaction loadedDataSize state error = (after, some result)) :
    Executed platform ledger after transaction landing result landing.failureWrites := by
  simp only [commitFailure, Prod.mk.injEq, some.injEq] at committed
  obtain ⟨same, answered⟩ := committed
  subst same answered
  refine ⟨rfl, ⟨.failed, ?_⟩, rfl, rfl, rfl, ?_, ?_, ?_, ?_, rfl⟩ <;>
    dsimp only [Ledger.writeAccounts, Shared.publish, Bank.record, Bank.reconcile]

theorem commitSuccess_executed
    (committed : commitSuccess platform ledger landing transaction accountState loadedDataSize state =
      (after, some result)) :
    Executed platform ledger after transaction landing result (landing.successWrites state.modified) := by
  simp only [commitSuccess, Prod.mk.injEq, some.injEq] at committed
  obtain ⟨same, answered⟩ := committed
  subst same answered
  refine ⟨rfl, ⟨.success, ?_⟩, rfl, rfl, rfl, ?_, ?_, ?_, ?_, rfl⟩ <;>
    dsimp only [Ledger.writeAccounts, Shared.publish, Bank.record, Bank.reconcile, Bank.trackDataSize]

theorem Executed.ofTracker
    (executed : Executed platform { ledger with bank.costTracker := tracker } after transaction landing result
      writes) : Executed platform ledger after transaction landing result writes :=
  ⟨executed.published, executed.transactionCache, executed.sysvars, executed.features, executed.stakeTracker,
    executed.slot, executed.blockhashQueue, executed.executionFees, executed.priorityFees, executed.fee⟩

theorem processTransaction_outcome
    (processed : processTransaction platform backend ledger transaction computeLimit = (after, answer)) :
    Outcome platform backend ledger transaction computeLimit after answer := by
  cases admitted : admission platform ledger transaction computeLimit with
  | refused error | unpaid tracker error =>
    simp only [processTransaction, admitted] at processed
    cases processed
    refine .turnedAway (by simp [admitted]) ?_
    intro result answered
    exact ⟨error, (some.inj answered).symm⟩
  | aborted tracker =>
    simp only [processTransaction, admitted] at processed
    cases processed
    refine .turnedAway (by simp [admitted]) ?_
    intro result impossible
    cases impossible
  | landed tracker landing =>
    simp only [processTransaction, admitted, processLanded] at processed
    split at processed
    · rename_i error failed
      cases processed
      exact .unloaded admitted failed rfl
    rename_i loaded size loads
    split at processed
    · rename_i state error ran
      cases answer with
      | none => simp [commitFailure] at processed
      | some result =>
        exact .executed admitted loads ran (.ofTracker (commitFailure_executed processed))
    · rename_i state ran
      cases answer with
      | none => simp [commitSuccess] at processed
      | some result =>
        exact .executed admitted loads ran (.ofTracker (commitSuccess_executed processed))

structure Call where
  backend : Backend
  transaction : SanitizedTransaction
  computeLimit : Nat

namespace Call

variable (platform : Platform) (ledger : Ledger) (call : Call)

def process : Ledger × Option TransactionExecutionResult :=
  processTransaction platform call.backend ledger call.transaction call.computeLimit

/-- The accounts that a transaction publishes once it has landed. -/
def landedWrites (landing : Landing) : Modified :=
  match loadTransactionAccounts platform ledger.shared call.transaction
      landing.budget.loadedAccountsDataSizeLimit with
  | .error _ => empty
  | .ok (loaded, _) =>
    match (executionOf platform call.backend ledger call.transaction landing loaded call.computeLimit).run with
    | (_, some _) => landing.failureWrites
    | (state, none) => landing.successWrites state.modified

def writes : Modified :=
  match admission platform ledger call.transaction call.computeLimit with
  | .landed tracker landing => call.landedWrites platform { ledger with bank.costTracker := tracker } landing
  | _ => empty

end Call

/-- The ledger after a call: the accounts are published, and the lattice hash
follows them. -/
structure Published (platform : Platform) (ledger after : Ledger) (writes : Modified) : Prop where
  shared : { after.shared with transactionCache := ledger.shared.transactionCache } =
    ledger.shared.publish platform writes
  lthash : after.bank.lthash = rehash platform ledger.shared.published ledger.bank.lthash writes

def Ledger.afterCalls (platform : Platform) (start : Ledger) (calls : List Call) : Ledger :=
  calls.foldl (fun ledger call => (call.process platform ledger).1) start

theorem afterCalls_append (start : Ledger) :
    start.afterCalls platform (calls ++ [call]) = (call.process platform (start.afterCalls platform calls)).1 := by
  simp [Ledger.afterCalls]

theorem publish_empty (platform : Platform) (shared : Shared) : shared.publish platform empty = shared := by
  cases shared with
  | mk published transactionCache sysvars features stakeTracker stakeHistory voteAccountCache =>
    cases stakeTracker <;> cases voteAccountCache <;> rfl

theorem Published.unchanged : Published platform ledger { ledger with bank.costTracker := tracker } empty :=
  ⟨(publish_empty platform ledger.shared).symm, rfl⟩

theorem processLanded_published (ledger : Ledger) (call : Call) (landing : Landing) : Published platform ledger
      (processLanded platform call.backend ledger call.transaction call.computeLimit landing).1
      (call.landedWrites platform ledger landing) := by
  cases loads : loadTransactionAccounts platform ledger.shared call.transaction
      landing.budget.loadedAccountsDataSizeLimit with
  | error error =>
    simp only [processLanded, Call.landedWrites, loads, reportUnloaded]
    exact .unchanged
  | ok loading =>
    obtain ⟨loaded, size⟩ := loading
    simp only [processLanded, Call.landedWrites, loads]
    cases ran : (executionOf platform call.backend ledger call.transaction landing loaded call.computeLimit).run with
    | mk state error =>
      cases error with
      | some error =>
        exact ⟨rfl, rfl⟩
      | none =>
        dsimp only [commitSuccess, Ledger.writeAccounts, Shared.publish, Bank.record, Bank.reconcile,
          Bank.trackDataSize]
        exact ⟨rfl, rfl⟩

theorem Call.published (platform : Platform) (ledger : Ledger) (call : Call) :
    Published platform ledger (call.process platform ledger).1 (call.writes platform ledger) := by
  rw [process, processTransaction, writes]
  cases admission platform ledger call.transaction call.computeLimit with
  | refused error | unpaid tracker error | aborted tracker => exact .unchanged
  | landed tracker landing =>
    obtain ⟨shared, lthash⟩ :=
      @processLanded_published platform { ledger with bank.costTracker := tracker } call landing
    exact ⟨shared, lthash⟩

def purse : Account :=
  { lamports := 1000000, owner := systemProgramId, executable := false, rentEpoch := 0, data := [],
    lamports_le := by decide }

def purseLedger : Ledger :=
  .opening (empty.insert (.filled 32 7) purse) (.filled 32 9)

def plainTransaction : SanitizedTransaction :=
  .simple [.filled 32 7, computeBudgetProgramId] 1 (.filled 32 9)
    [{ programIdIndex := 1, accountIndices := [], data := [] }]

def purseCall : Call :=
  { backend := .idle, transaction := plainTransaction, computeLimit := 1400000 }

end Karstflow.Runtime
