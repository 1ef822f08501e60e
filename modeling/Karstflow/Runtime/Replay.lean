import Karstflow.Data.Steps
import Karstflow.Runtime.Landing

namespace Karstflow.Runtime

open Data Karstflow.Types Sbpf List Table

/-! Transactions that come back on a chain of banks. -/

/-- A chain of banks, the oldest first, with what they share. `charged` lists
the calls that reported a fee: the place of the bank and the transaction. -/
structure Chain where
  shared : Shared
  banks : List Bank
  charged : List (Nat × SanitizedTransaction)

inductive ChainStep where
  | process (index : Nat) (backend : Backend) (transaction : SanitizedTransaction) (computeLimit : Nat)
  | extend (slot : Nat) (leaderSchedule : LeaderSchedule)

namespace Chain

def start (ledger : Ledger) : Chain := { shared := ledger.shared, banks := [ledger.bank], charged := [] }

def note (chain : Chain) (index : Nat) (transaction : SanitizedTransaction) :
    Option TransactionExecutionResult → List (Nat × SanitizedTransaction)
  | some result => if 0 < result.fee then chain.charged ++ [(index, transaction)] else chain.charged
  | none => chain.charged

def step (platform : Platform) (chain : Chain) : ChainStep → Chain
  | .process index backend transaction computeLimit =>
    match chain.banks[index]? with
    | none => chain
    | some bank =>
      let (after, answer) :=
        processTransaction platform backend { shared := chain.shared, bank } transaction computeLimit
      { shared := after.shared
        banks := chain.banks.set index after.bank
        charged := chain.note index transaction answer }
  | .extend slot leaderSchedule =>
    match chain.banks.getLast? with
    | none => chain
    | some parent =>
      { chain with
        banks := chain.banks ++
          [.newFromParent platform chain.shared parent slot leaderSchedule] }

def run (platform : Platform) (ledger : Ledger) (steps : List ChainStep) : Chain :=
  steps.foldl (step platform) (start ledger)

/-- A signed transaction that was charged on this bank or on an ancestor is
refused: it costs nothing and changes no account. -/
def Rejects (platform : Platform) (chain : Chain) : ChainStep → Prop
  | .process index backend transaction computeLimit =>
    ∀ bank earlier, chain.banks[index]? = some bank → earlier ≤ index →
      (earlier, transaction) ∈ chain.charged → transaction.signatures ≠ [] →
      transaction.messageBytes ≠ [] →
      let call := processTransaction platform backend { shared := chain.shared, bank } transaction
        computeLimit
      ∃ result, call.2 = some result ∧ result.error ≠ none ∧ result.fee = 0 ∧
        ∀ key, call.1.shared.published.get key = chain.shared.published.get key
  | .extend _ _ => True

end Chain

def HoldsNonce (account : Account) (hash : Hash) : Prop :=
  ∃ stored, storedNonce account = some stored ∧ stored.durableNonce = hash

/-- When a transaction that lands will not land again. Its accounts load; the
cache has room for it, or its nonce advances to one that was not used; and the
backend neither brings a used nonce back nor leaves out a nonce account that
pays the fee. `used` are the blockhashes of the charged transactions. -/
structure KeptOut (platform : Platform) (backend : Backend) (ledger : Ledger) (used : List Hash)
    (transaction : SanitizedTransaction) (computeLimit : Nat) (tracker : CostTracker) (landing : Landing) :
    Prop where
  loads : ∃ loaded, loadTransactionAccounts platform ledger.shared transaction
    landing.budget.loadedAccountsDataSizeLimit = .ok loaded
  room : landing.durableNonce = none →
    ledger.shared.transactionCache.entryCount < ledger.shared.transactionCache.maxEntries
  fresh : landing.durableNonce ≠ none → deriveDurableNonce platform.host ledger.bank.lastBlockhash ∉ used
  returned : ∀ loaded size state,
    loadTransactionAccounts platform ledger.shared transaction
      landing.budget.loadedAccountsDataSizeLimit = .ok (loaded, size) →
    (executionOf platform backend { ledger with bank.costTracker := tracker } transaction landing loaded
      computeLimit).run = (state, none) →
    (∀ key account, state.modified.get key = some account →
      ∀ hash ∈ transaction.recentBlockhash :: used, ¬ HoldsNonce account hash) ∧
    ∀ info, landing.durableNonce = some info → info.nonceKey = landing.feePayer →
      state.modified.get landing.feePayer ≠ none

/-- When a call is safe against replay: the cache knows the transaction under
this bank's slot only, and once landed it is kept out. -/
structure Guarded (platform : Platform) (backend : Backend) (ledger : Ledger) (used : List Hash)
    (transaction : SanitizedTransaction) (computeLimit : Nat) : Prop where
  seen_here : ∀ fork, ledger.shared.transactionCache.contains transaction.recentBlockhash
    (computeMessageHash platform.host transaction) fork = true → fork = ledger.bank.slot
  kept_out : ∀ tracker landing,
    admission platform ledger transaction computeLimit = .landed tracker landing →
    KeptOut platform backend ledger used transaction computeLimit tracker landing

namespace Chain

def used (chain : Chain) : List Hash := chain.charged.map fun call => call.2.recentBlockhash

def StepGuarded (platform : Platform) (chain : Chain) : ChainStep → Prop
  | .process index backend transaction computeLimit =>
    ∀ bank, chain.banks[index]? = some bank →
      Guarded platform backend { shared := chain.shared, bank } chain.used transaction computeLimit
  | .extend _ _ => True

/-- What keeps the charged transactions out: the cache for those with a recent
blockhash, the nonce account for the others. The blockhash queue is the same
all along the chain. -/
structure Protected (platform : Platform) (queue : BlockhashQueue) (features : Option (List Pubkey))
    (chain : Chain) : Prop where
  queues : ∀ bank ∈ chain.banks, bank.blockhashQueue = queue
  features : chain.shared.features = features
  recorded : ∀ call ∈ chain.charged, call.2.signatures ≠ [] →
    queue.isHashValid call.2.recentBlockhash = true →
    ∃ fork, chain.shared.transactionCache.contains call.2.recentBlockhash
      (computeMessageHash platform.host call.2) fork = true
  spent : ∀ call ∈ chain.charged, queue.isHashValid call.2.recentBlockhash = false →
    ∀ key, nonceKeyOf call.2 (chain.shared.isActive requireStaticNonceAccountFeature) = some key →
    ∀ account, chain.shared.published.get key = some account → ¬ HoldsNonce account call.2.recentBlockhash

end Chain

section

variable {platform : Platform} {backend : Backend} {ledger after : Ledger}
variable {landing : Landing}
variable {hash : Hash}

theorem HoldsNonce.of_data (holds : HoldsNonce other hash) (same : account.data = other.data) :
    HoldsNonce account hash := by
  obtain ⟨stored, read, spelled⟩ := holds
  rw [storedNonce, ← same] at read
  exact ⟨stored, read, spelled⟩

theorem HoldsNonce.of_reclaim (holds : HoldsNonce (reclaim account) hash) : HoldsNonce account hash := by
  by_cases empty : account.lamports = 0
  · obtain ⟨stored, read, -⟩ := holds
    rw [reclaim, if_pos empty] at read
    exact absurd (storedNonce_eq_some read).1 (by decide)
  · rwa [reclaim, if_neg empty] at holds

section

variable (landed : Landed platform ledger transaction landing)

include landed

/-- The rolled-back nonce account stores the next nonce, which is not the one
that the transaction used. -/
theorem Landed.rollback_nonce
    (durable : landing.durableNonce = some info) (holds : HoldsNonce info.rollbackAccount hash) :
    hash = deriveDurableNonce platform.host ledger.bank.lastBlockhash ∧ hash ≠ transaction.recentBlockhash := by
  obtain ⟨stored, read, spelled⟩ := holds
  obtain ⟨-, account, before, -, -, named, stale, advanced⟩ :=
    tryDetectDurableNonce_eq_some (landed.screened.durable info durable).2
  have bytes := (storedNonce_eq_some read).2
  rw [advanced, nonce_of_serializeNonceState, spelled] at bytes
  have next := Octets.ext_bytes bytes.symm
  refine ⟨next, ?_⟩
  intro same
  exact stale (named.trans (same.symm.trans next))

theorem Landed.payer_nonce (holds : HoldsNonce landing.payerAfterFee hash) :
    ∃ payer, ledger.shared.published.get landing.feePayer = some payer ∧ HoldsNonce payer hash := by
  obtain ⟨payer, found, -, -, debited⟩ := landed.paid
  rw [debited] at holds
  exact ⟨payer, found, holds.of_data (payer.debit_data landing.fee).symm⟩

theorem Landed.spent_paid (old : ∀ account, ledger.shared.published.get key = some account → ¬ HoldsNonce account hash)
    (now : (ledger.shared.published.insert landing.feePayer landing.payerAfterFee).get key = some account) :
    ¬ HoldsNonce account hash := by
  by_cases paying : key = landing.feePayer
  · rw [paying, get_insert_self] at now
    cases now
    intro holds
    obtain ⟨payer, found, stores⟩ := landed.payer_nonce holds
    exact old payer (paying ▸ found) stores
  · rw [get_insert_ne paying] at now
    exact old account now

end

section

variable (landed : Landed platform ledger transaction landing)
variable (before : (∀ account, ledger.shared.published.get key = some account → ¬ HoldsNonce account hash) ∨
  ∃ info, landing.durableNonce = some info ∧ key = info.nonceKey)
variable (advanced : ∀ {info}, landing.durableNonce = some info → ¬ HoldsNonce info.rollbackAccount hash)

include landed before advanced

theorem Landed.spent_failure (now : (ledger.shared.published.overlay landing.failureWrites).get key = some account) :
    ¬ HoldsNonce account hash := by
  cases durable : landing.durableNonce with
  | none =>
    rw [get_overlay_failureWrites durable] at now
    exact landed.spent_paid (by simpa [durable] using before) now
  | some info =>
    rw [get_overlay_failureWrites_nonce durable] at now
    by_cases own : key = info.nonceKey
    · rw [own, get_insert_self] at now
      cases now
      exact advanced durable
    · rw [get_insert_ne own] at now
      exact landed.spent_paid (by simpa [durable, own] using before) now

theorem Landed.spent_success (clean : ∀ account, modified.get key = some account → ¬ HoldsNonce account hash)
    (ownPayer : ∀ info, landing.durableNonce = some info → info.nonceKey = landing.feePayer →
      modified.get landing.feePayer ≠ none)
    (now : (ledger.shared.published.overlay (landing.successWrites modified)).get key = some account) :
    ¬ HoldsNonce account hash := by
  intro holds
  rw [get_overlay] at now
  cases written : (landing.successWrites modified).get key with
  | none =>
    rw [written, Option.none_or] at now
    obtain old | nonce := before
    · exact old account now holds
    · obtain ⟨info, durable, own⟩ := nonce
      rw [own, Landing.successWrites, reclaimZeroLamportAccounts, get_mapValues, durable] at written
      simp [get_orInsert] at written
  | some value =>
    rw [written, Option.some_or] at now
    cases now
    obtain given | rest := get_successWrites written
    · obtain ⟨returned, found, same⟩ := given
      rw [same] at holds
      exact clean returned found holds.of_reclaim
    obtain paid | nonce := rest
    · obtain ⟨absent, paying, same⟩ := paid
      rw [same] at holds
      obtain ⟨payer, found, stores⟩ := landed.payer_nonce holds.of_reclaim
      obtain old | nonce := before
      · exact old payer (paying ▸ found) stores
      · -- The payer is the nonce account, so it came back advanced.
        obtain ⟨info, durable, own⟩ := nonce
        exact ownPayer info durable (own.symm.trans paying) (paying ▸ absent)
    · obtain ⟨-, -, info, durable, -, same⟩ := nonce
      rw [same] at holds
      exact advanced durable holds.of_reclaim

end

/-- A hash that the account did not store, or that the transaction uses up, is
not stored in it afterwards. -/
theorem Landed.spent_writes {size : Nat} {error : Option TransactionExecutionError}
    (landed : Landed platform ledger transaction landing)
    (kept : KeptOut platform backend ledger used transaction computeLimit tracker landing)
    (loads : loadTransactionAccounts platform ledger.shared transaction
      landing.budget.loadedAccountsDataSizeLimit = .ok (loaded, size))
    (ran : (executionOf platform backend { ledger with bank.costTracker := tracker } transaction landing loaded
      computeLimit).run = (state, error))
    (known : hash = transaction.recentBlockhash ∨ hash ∈ used)
    (before : (∀ account, ledger.shared.published.get key = some account → ¬ HoldsNonce account hash) ∨
      ∃ info, landing.durableNonce = some info ∧ key = info.nonceKey)
    (now : (ledger.shared.published.overlay
      (error.elim (landing.successWrites state.modified) fun _ => landing.failureWrites)).get key = some account) :
    ¬ HoldsNonce account hash := by
  -- The next nonce is neither the transaction's own nor a used one.
  have advanced {info : DurableNonceInfo} (durable : landing.durableNonce = some info) :
      ¬ HoldsNonce info.rollbackAccount hash := by
    intro rolled
    obtain ⟨next, other⟩ := landed.rollback_nonce durable rolled
    obtain own | member := known
    · exact other own
    · exact kept.fresh (by simp [durable]) (next ▸ member)
  cases error with
  | some error => exact landed.spent_failure before advanced now
  | none =>
    obtain ⟨clean, ownPayer⟩ := kept.returned loaded size state loads ran
    refine landed.spent_success before advanced ?_ ownPayer now
    intro account found
    exact clean key account found hash (by simpa using known)

theorem processTransaction_refused
    (seen_here : ∀ fork, ledger.shared.transactionCache.contains transaction.recentBlockhash
      (computeMessageHash platform.host transaction) fork = true → fork = ledger.bank.slot)
    (signed : transaction.signatures ≠ []) (recorded : ledger.bank.isBlockhashValid transaction.recentBlockhash = true →
      ∃ fork, ledger.shared.transactionCache.contains transaction.recentBlockhash
        (computeMessageHash platform.host transaction) fork = true)
    (spent : ledger.bank.isBlockhashValid transaction.recentBlockhash = false →
      ∀ key, nonceKeyOf transaction (ledger.shared.isActive requireStaticNonceAccountFeature) = some key →
      ∀ account, ledger.shared.published.get key = some account → ¬ HoldsNonce account transaction.recentBlockhash) :
    ∃ error, processTransaction platform backend ledger transaction computeLimit = (ledger, some (refusal error)) := by
  cases screened : screen platform ledger transaction with
  | error error => exact ⟨error, by simp only [processTransaction, admission, screened]⟩
  | ok durableNonce =>
    exfalso
    have passed := screen_eq_ok screened
    cases valid : ledger.bank.isBlockhashValid transaction.recentBlockhash with
    | true =>
      obtain ⟨fork, known⟩ := recorded valid
      have unseen := passed.unseen signed
      rw [← seen_here fork known, known] at unseen
      cases unseen
    | false =>
      cases durableNonce with
      | none => exact absurd (passed.recent rfl) (by simp [valid])
      | some info =>
        obtain ⟨named, account, stored, found, read, same, -⟩ :=
          tryDetectDurableNonce_eq_some (passed.durable info rfl).2
        exact spent valid info.nonceKey named account found ⟨stored, read, same⟩

theorem contains_remembered (known : cache.contains blockhash message fork = true) :
    (landing.remembered host cache transaction slot status).contains blockhash message fork = true := by
  rw [Landing.remembered]
  split
  · exact TransactionCache.contains_insertWithStatus.mpr (.inl known)
  · exact known

theorem contains_remembered_self (plain : landing.durableNonce = none) (signed : transaction.signatures ≠ [])
    (room : cache.entryCount < cache.maxEntries) :
    (landing.remembered host cache transaction slot status).contains transaction.recentBlockhash
      (computeMessageHash host transaction) slot = true := by
  rw [Landing.remembered, if_pos ⟨plain, signed⟩]
  exact TransactionCache.contains_insertWithStatus.mpr (.inr ⟨room, rfl, rfl, rfl⟩)

namespace Chain

variable {chain : Chain} {features : Option (List Pubkey)}

theorem mem_note (answer : Option TransactionExecutionResult) (member : call ∈ chain.note index transaction answer) :
    call ∈ chain.charged ∨ call = (index, transaction) := by
  cases answer with
  | none => exact .inl member
  | some result =>
    by_cases paid : 0 < result.fee
    · simpa [note, paid] using member
    · simp only [note, paid, if_false] at member
      exact .inl member

theorem note_eq_charged (refused : ∀ result, answer = some result → ∃ error, result = refusal error) :
    chain.note index transaction answer = chain.charged := by
  cases answer with
  | none => rfl
  | some result =>
    obtain ⟨error, same⟩ := refused result rfl
    rw [same]
    rfl

theorem queues_set (queues : ∀ bank ∈ chain.banks, bank.blockhashQueue = queue)
    (same : new.blockhashQueue = queue) : ∀ bank ∈ chain.banks.set index new, bank.blockhashQueue = queue := by
  intro other member
  obtain old | written := mem_or_eq_of_mem_set member
  · exact queues other old
  · rw [written, same]

section

variable (secure : Protected platform queue features chain)

include secure

theorem Protected.process (found : chain.banks[index]? = some bank)
    (guarded : Guarded platform backend { shared := chain.shared, bank } chain.used transaction computeLimit)
    (processed : processTransaction platform backend { shared := chain.shared, bank } transaction computeLimit =
      (after, answer)) :
    Protected platform queue features
      { shared := after.shared, banks := chain.banks.set index after.bank,
        charged := chain.note index transaction answer } := by
  have own := secure.queues bank (mem_of_getElem? found)
  cases processTransaction_outcome processed with
  | turnedAway missed refused =>
    rw [note_eq_charged refused]
    exact ⟨queues_set secure.queues own, secure.features, secure.recorded, secure.spent⟩
  | unloaded landed failed fee =>
    obtain ⟨loaded, loads⟩ := (guarded.kept_out _ _ landed).loads
    rw [failed] at loads
    cases loads
  | executed landed loads ran effect =>
    have kept := guarded.kept_out _ _ landed
    have facts := admission_eq_landed landed
    obtain ⟨status, remembered⟩ := effect.transactionCache
    refine ⟨queues_set secure.queues (effect.blockhashQueue.trans own), effect.features.trans secure.features, ?_, ?_⟩
    · intro call member signed valid
      have either : call ∈ chain.charged ∨ call = (index, transaction) := mem_note (some _) member
      simp only [remembered]
      obtain old | new := either
      · obtain ⟨fork, known⟩ := secure.recorded call old signed valid
        exact ⟨fork, contains_remembered known⟩
      subst new
      -- A recent blockhash leaves no room for a nonce.
      cases durable : (Landing.durableNonce _) with
      | none => exact ⟨_, contains_remembered_self durable signed (kept.room durable)⟩
      | some info =>
        have stale := (facts.screened.durable info durable).1
        rw [Bank.isBlockhashValid, own] at stale
        exact absurd valid (by simp [stale])
    · intro call member invalid key named account now
      rw [isActive_congr effect.features] at named
      have either : call ∈ chain.charged ∨ call = (index, transaction) := mem_note (some _) member
      simp only [effect.published] at now
      obtain old | new := either
      · exact facts.spent_writes kept loads ran (.inr (mem_map_of_mem old))
          (.inl (secure.spent call old invalid key named)) now
      subst new
      refine facts.spent_writes kept loads ran (.inl rfl) (.inr ?_) now
      cases durable : (Landing.durableNonce _) with
      | none =>
        have recent := facts.screened.recent durable
        rw [Bank.isBlockhashValid, own] at recent
        exact absurd recent (by simp [invalid])
      | some info =>
        have same := (tryDetectDurableNonce_eq_some (facts.screened.durable info durable).2).1
        rw [named] at same
        exact ⟨info, rfl, Option.some.inj same⟩

theorem Protected.step {next : ChainStep}
    (guarded : chain.StepGuarded platform next) : Protected platform queue features (chain.step platform next) := by
  cases next with
  | process index backend transaction computeLimit =>
    cases found : chain.banks[index]? with
    | none => simpa only [Chain.step, found] using secure
    | some bank =>
      simp only [Chain.step, found]
      exact secure.process found (guarded bank found) rfl
  | extend slot leaderSchedule =>
    cases last : chain.banks.getLast? with
    | none => simpa only [Chain.step, last] using secure
    | some parent =>
      simp only [Chain.step, last]
      refine ⟨?_, secure.features, secure.recorded, secure.spent⟩
      intro bank member
      obtain old | new := mem_append.mp member
      · exact secure.queues bank old
      · rw [mem_singleton.mp new]
        exact secure.queues parent (mem_of_getLast? last)

theorem Protected.rejects {next : ChainStep} (guarded : chain.StepGuarded platform next) :
    chain.Rejects platform next := by
  cases next with
  | extend slot leaderSchedule => trivial
  | process index backend transaction computeLimit =>
    intro bank earlier found _ charged signed _
    have own := secure.queues bank (mem_of_getElem? found)
    obtain ⟨error, refused⟩ := @processTransaction_refused platform backend { shared := chain.shared, bank }
      transaction computeLimit (guarded bank found).seen_here signed
      (by rw [Bank.isBlockhashValid, own]; exact secure.recorded _ charged signed)
      (by rw [Bank.isBlockhashValid, own]; exact secure.spent _ charged)
    exact ⟨refusal error, by rw [refused], by simp [refusal], rfl, fun _ => by rw [refused]⟩

end

theorem run_append {next : ChainStep} :
    run platform ledger (steps ++ [next]) = (run platform ledger steps).step platform next := by
  simp only [run, foldl_append, foldl_cons, foldl_nil]

theorem Protected.start (platform : Platform) (ledger : Ledger) :
    Protected platform ledger.bank.blockhashQueue ledger.shared.features (start ledger) := by
  refine ⟨?_, rfl, ?_, ?_⟩
  · intro bank member
    rw [mem_singleton.mp member]
  · intro call impossible
    cases impossible
  · intro call impossible
    cases impossible

/-- A charged transaction does not land again, on any chain whose calls are all
safe against replay. -/
theorem rejects_of_guarded (platform : Platform) (ledger : Ledger) (steps : List ChainStep)
    (guarded : ∀ earlier next, earlier ++ [next] <+: steps → (run platform ledger earlier).StepGuarded platform next) :
    ∀ earlier next, earlier ++ [next] <+: steps → (run platform ledger earlier).Rejects platform next := by
  intro earlier next inside
  have secure : Protected platform ledger.bank.blockhashQueue ledger.shared.features
      (run platform ledger earlier) := by
    apply @invariant_of_steps _ steps _
      (fun taken => Protected platform ledger.bank.blockhashQueue ledger.shared.features (run platform ledger taken))
      (fun earlier next => (run platform ledger earlier).StepGuarded platform next)
      (.start platform ledger) _ _ ((prefix_append earlier [next]).trans inside)
    · intro done last _ before allowed
      rw [run_append]
      exact before.step allowed
    · intro done last within
      exact guarded done last (within.trans ((prefix_append earlier [next]).trans inside))
  exact secure.rejects (guarded earlier next inside)

/-- Twice the same transaction in one bank: the second call is refused. -/
theorem plainTransaction_rejected :
    (run (.bare .bare) purseLedger [.process 0 .idle plainTransaction 1000]).Rejects (.bare .bare)
      (.process 0 .idle plainTransaction 1000) := by
  apply rejects_of_guarded (.bare .bare) purseLedger
    [.process 0 .idle plainTransaction 1000, .process 0 .idle plainTransaction 1000] _ _ _ (prefix_refl _)
  rw [forall_step_cons, forall_step_cons]
  refine ⟨?_, ?_, fun earlier next inside => by simp at inside⟩
  · intro bank found
    cases found
    refine ⟨?_, ?_⟩
    · intro fork impossible
      cases impossible
    · intro tracker landing landed
      cases landed
      refine ⟨⟨_, rfl⟩, fun _ => (by decide : 0 < 1000000), absurd rfl, ?_⟩
      intro loaded size state loads ran
      cases ran
      refine ⟨?_, ?_⟩
      · intro key account impossible
        cases impossible
      · intro info impossible
        cases impossible
  · intro bank found
    cases found
    refine ⟨?_, ?_⟩
    · intro fork known
      change decide (fork ∈ [0]) = true at known
      change fork = 0
      simpa using known
    · intro tracker landing impossible
      cases impossible

/-- The child of the bank takes the transaction once more: it looks for it
under its own slot. -/
theorem plainTransaction_lands_again : (0, plainTransaction) ∈
      (run (.bare .bare) purseLedger [.process 0 .idle plainTransaction 1000, .extend 1 (.sole (.filled 32 7))]).charged ∧
    ¬ (run (.bare .bare) purseLedger [.process 0 .idle plainTransaction 1000, .extend 1 (.sole (.filled 32 7))]).Rejects
      (.bare .bare) (.process 1 .idle plainTransaction 1000) := by
  have charged : (0, plainTransaction) ∈
      (run (.bare .bare) purseLedger [.process 0 .idle plainTransaction 1000, .extend 1 (.sole (.filled 32 7))]).charged :=
    Mem.head _
  refine ⟨charged, ?_⟩
  intro rejects
  obtain ⟨result, answered, errored, -⟩ := rejects _ 0 rfl (by decide) charged (by decide) (by decide)
  cases answered
  exact errored rfl

end Chain

end

end Karstflow.Runtime
