import Karstflow.Data.RunningSum
import Karstflow.Runtime.EpochBoundary
import Karstflow.Runtime.Freezing
import Karstflow.Storage.PublishedStore

namespace Karstflow.Runtime

open Data Karstflow.Types Sbpf Ledger Table
open Storage (PublishedStore PublishedCall)

/-! The lattice hash of a bank against the accounts it stands for, along a
chain of banks. -/

/-- What happens to the newest bank of a chain: one of its operations, or a
child that takes its place. -/
inductive ChainOperation where
  | operate (operation : BankOperation)
  | child (slot : Nat) (leaderSchedule : LeaderSchedule)

def ChainOperation.apply (platform : Platform) (ledger : Ledger) : ChainOperation → Ledger
  | .operate operation => operation.apply platform ledger
  | .child slot leaderSchedule =>
    { ledger with bank := Bank.newFromParent platform ledger.shared ledger.bank slot leaderSchedule }

def Ledger.along (platform : Platform) (ledger : Ledger) (operations : List ChainOperation) : Ledger :=
  operations.foldl (fun ledger operation => operation.apply platform ledger) ledger

/-- The accounts were written one by one, and the lattice hash followed each
write with the account it replaced. -/
structure Replays (platform : Platform) (before after : Ledger) (writes : List (Pubkey × Account)) : Prop where
  published : after.shared.published = before.shared.published.replay writes
  lthash : after.bank.lthash =
    Table.mirror (hashAccount platform) writes before.shared.published before.bank.lthash

/-- Every change of the published accounts is in the lattice hash. -/
def Mirrored (platform : Platform) (before after : Ledger) : Prop :=
  ∃ writes, Replays platform before after writes

section

variable {platform : Platform} {after : Ledger}

theorem Mirrored.untouched (published : after.shared.published = before.shared.published)
    (lthash : after.bank.lthash = before.bank.lthash) : Mirrored platform before after :=
  ⟨[], published, lthash⟩

theorem Mirrored.trans (first : Mirrored platform before middle) (second : Mirrored platform middle after) :
    Mirrored platform before after := by
  obtain ⟨writes, written⟩ := first
  obtain ⟨more, further⟩ := second
  refine ⟨writes ++ more, ?_, ?_⟩
  · rw [further.published, written.published, replay_append]
  · rw [further.lthash, written.lthash, written.published, mirror_append]

theorem Mirrored.then (first : Mirrored platform before middle)
    (published : after.shared.published = middle.shared.published)
    (lthash : after.bank.lthash = middle.bank.lthash) : Mirrored platform before after :=
  first.trans (.untouched published lthash)

theorem Published.mirrored {writes : Modified} (published : Published platform ledger after writes) :
    Mirrored platform ledger after := by
  refine ⟨writes.entries, ?_, ?_⟩
  · exact congrArg Shared.published published.shared
  · rw [published.lthash, mirror_of_distinct writes.entries_pairwise]
    rfl

theorem Mirrored.withBoundary (boundary : Boundary) (mirrored : Mirrored platform before after) :
    Mirrored (platform.withBoundary boundary) before after := by
  obtain ⟨writes, published, lthash⟩ := mirrored
  exact ⟨writes, published, lthash⟩

variable (platform boundary ledger)

theorem Mirrored.refl : Mirrored platform ledger ledger :=
  .untouched rfl rfl

theorem orRefused_mirrored {platform : Platform} {ledger : Ledger} {ε : Type} {answer : Except ε Bank}
    (kept : ∀ bank, answer = .ok bank → bank.lthash = ledger.bank.lthash) :
    Mirrored platform ledger (ledger.orRefused answer) := by
  cases answered : answer with
  | error reason => exact .refl platform ledger
  | ok bank => exact .untouched rfl (kept bank answered)

theorem storeAccount_mirrored (key : Pubkey) (account : Account) :
    Mirrored platform ledger (ledger.storeAccount platform key account) :=
  ⟨[(key, account)], rfl, rfl⟩

theorem applyRewards_mirrored (rewards : List PendingReward) (ledger : Ledger) :
    Mirrored platform ledger (applyRewards platform rewards ledger).1 := by
  induction rewards generalizing ledger with
  | nil => exact .refl platform ledger
  | cons reward rest ih =>
    cases found : ledger.shared.published.get reward.account with
    | none =>
      simp only [applyRewards, found]
      exact ih ledger
    | some account =>
      by_cases nothing : reward.amount = 0
      · simp only [applyRewards, found, nothing, if_true]
        exact ih ledger
      · simp only [applyRewards, found, nothing, if_false]
        exact (storeAccount_mirrored platform ledger _ _).trans (ih _)

theorem distributeSlotRewards_mirrored : Mirrored platform ledger (ledger.distributeSlotRewards platform) := by
  cases rewarding : ledger.bank.rewardsDistributor with
  | none =>
    simp only [distributeSlotRewards, rewarding]
    exact .refl platform ledger
  | some distributor =>
    simp only [distributeSlotRewards, rewarding]
    exact (applyRewards_mirrored platform _ ledger).then rfl rfl

theorem distributeFees_mirrored {platform : Platform} {ledger : Ledger} {shares : Nat × Nat}
    (paid : ledger.distributeFees platform = .ok (after, shares)) : Mirrored platform ledger after := by
  simp only [distributeFees] at paid
  split at paid
  · cases paid
  split at paid
  · cases paid
    exact .untouched rfl rfl
  split at paid
  · cases paid
    exact .untouched rfl rfl
  split at paid
  · cases paid
    exact ⟨[(_, _)], rfl, rfl⟩
  · cases paid
    exact .untouched rfl rfl

theorem runIncinerator_mirrored : Mirrored platform ledger (ledger.runIncinerator platform) := by
  simp only [runIncinerator]
  split
  · exact .refl platform ledger
  · split
    · exact .refl platform ledger
    · exact (storeAccount_mirrored platform ledger _ _).then rfl rfl

theorem foldl_storeAccount_mirrored (writes : List (Pubkey × Account)) (ledger : Ledger) : Mirrored platform ledger
      (writes.foldl (fun ledger write => ledger.storeAccount platform write.1 write.2) ledger) := by
  induction writes generalizing ledger with
  | nil => exact .refl platform ledger
  | cons write rest ih => exact (storeAccount_mirrored platform ledger write.1 write.2).trans (ih _)

theorem commitAll_mirrored (attempts : List (Ledger → Except MigrationError MigrationOutcome)) (ledger : Ledger) :
    Mirrored platform ledger (ledger.commitAll platform attempts) := by
  induction attempts generalizing ledger with
  | nil => exact .refl platform ledger
  | cons attempt rest ih =>
    cases ran : attempt ledger with
    | error reason =>
      simp only [commitAll, ran]
      exact ih ledger
    | ok outcome =>
      simp only [commitAll, ran]
      have committed : Mirrored platform ledger (ledger.commitCoreBpfOutcome platform outcome) :=
        (foldl_storeAccount_mirrored platform outcome.writes ledger).then rfl rfl
      exact committed.trans (ih _)

theorem activatePendingFeatures_mirrored :
    Mirrored platform ledger (ledger.activatePendingFeatures platform boundary) := by
  simp only [activatePendingFeatures]
  split
  · exact .refl platform ledger
  · have recorded : Mirrored platform ledger (ledger.recordActivations boundary) := .untouched rfl rfl
    exact recorded.trans (commitAll_mirrored platform _ _)

theorem recordEpoch_mirrored {platform : Platform} {ledger : Ledger} {recorded : Ledger} (ran : ledger.recordEpoch platform = some recorded) :
    Mirrored platform ledger recorded := by
  simp only [recordEpoch] at ran
  split at ran
  · split at ran
    · cases ran
    · cases ran
      exact .untouched rfl rfl
  · cases ran

theorem calculateAndPrepareRewards_mirrored :
    Mirrored platform ledger (ledger.calculateAndPrepareRewards platform boundary) := by
  cases ran : ledger.recordEpoch platform with
  | none =>
    simp only [calculateAndPrepareRewards, ran]
    exact .refl platform ledger
  | some recorded =>
    have kept := recordEpoch_mirrored ran
    cases due : boundary.validatorRewards recorded with
    | none =>
      simp only [calculateAndPrepareRewards, ran, due]
      exact kept
    | some rewards =>
      simp only [calculateAndPrepareRewards, ran, due]
      exact kept.trans ((applyRewards_mirrored platform _ recorded).then rfl rfl)

theorem refreshVoteAccountCache_mirrored : Mirrored platform ledger (ledger.refreshVoteAccountCache platform) := by
  rw [refreshVoteAccountCache]
  split
  · exact .untouched rfl rfl
  · exact .refl platform ledger

theorem regenerateLeaderSchedule_mirrored : Mirrored platform ledger (ledger.regenerateLeaderSchedule platform) := by
  simp only [regenerateLeaderSchedule]
  split
  · exact .refl platform ledger
  · split
    · exact .untouched rfl rfl
    · exact .refl platform ledger

theorem processEpochBoundary_mirrored : Mirrored (platform.withBoundary boundary) ledger
      (ledger.processEpochBoundary (platform.withBoundary boundary)) := by
  have activated := (activatePendingFeatures_mirrored platform boundary ledger).withBoundary boundary
  have rewarded : Mirrored (platform.withBoundary boundary) (ledger.activatePendingFeatures platform boundary)
      ((ledger.activatePendingFeatures platform boundary).calculateAndPrepareRewards platform boundary) :=
    (calculateAndPrepareRewards_mirrored platform boundary _).withBoundary boundary
  exact ((activated.trans rewarded).trans (refreshVoteAccountCache_mirrored _ _)).trans
    (regenerateLeaderSchedule_mirrored _ _)

theorem finishSlot_mirrored {platform : Platform} {boundary : Boundary} {ledger : Ledger} {summary : Ledger.SlotFinalizationResult}
    (done : ledger.finishSlot (platform.withBoundary boundary) = .ok (after, summary)) :
    Mirrored (platform.withBoundary boundary) ledger after := by
  obtain ⟨paid, shares, distributed, rfl⟩ := finishSlot_stages done
  have rewarded := distributeSlotRewards_mirrored (platform.withBoundary boundary) ledger
  have hashed : Mirrored (platform.withBoundary boundary) ledger
      (paid.publishHash (platform.withBoundary boundary) (paid.bank.hash (platform.withBoundary boundary))) :=
    (rewarded.trans (distributeFees_mirrored distributed)).then rfl rfl
  have burned := hashed.trans (runIncinerator_mirrored _ _)
  split
  · exact (burned.trans (processEpochBoundary_mirrored platform boundary _)).then rfl rfl
  · exact burned.then rfl rfl

theorem BankOperation.apply_mirrored (operation : BankOperation) :
    Mirrored (platform.withBoundary boundary) ledger (operation.apply (platform.withBoundary boundary) ledger) := by
  cases operation with
  | processTransaction backend transaction computeLimit =>
    exact (Call.published (platform.withBoundary boundary) ledger ⟨backend, transaction, computeLimit⟩).mirrored
  | distributeFees =>
    rw [BankOperation.apply]
    split
    · rename_i paid
      exact distributeFees_mirrored paid
    · exact .refl _ ledger
  | finishSlot =>
    rw [BankOperation.apply]
    split
    · rename_i done
      exact finishSlot_mirrored done
    · exact .refl _ ledger
  -- the other operations move counters of the bank at most
  | registerTick => exact orRefused_mirrored (by grind [Bank.registerTick])
  | registerTickWithHash pohHash => exact orRefused_mirrored (by grind [Bank.registerTickWithHash])
  | registerTransaction => exact orRefused_mirrored (by grind [Bank.registerTransaction])
  | collectFees => exact orRefused_mirrored (by grind [Bank.collectFees, Except.map])
  | freeze => exact orRefused_mirrored (by grind [Bank.freeze])
  | markRooted => exact orRefused_mirrored (by grind [Bank.markRooted])

theorem ChainOperation.apply_mirrored (operation : ChainOperation) :
    Mirrored (platform.withBoundary boundary) ledger (operation.apply (platform.withBoundary boundary) ledger) := by
  cases operation with
  | operate operation => exact operation.apply_mirrored platform boundary ledger
  | child slot leaderSchedule => exact .untouched rfl rfl

theorem Ledger.along_mirrored :
    Mirrored (platform.withBoundary boundary) ledger (ledger.along (platform.withBoundary boundary) operations) := by
  induction operations generalizing ledger with
  | nil => exact .refl _ ledger
  | cons operation rest ih =>
    exact (operation.apply_mirrored platform boundary ledger).trans (ih _)

end

/-- The lattice hash of the newest bank is the sum over the accounts of the
store, if it was so at the start and the store keeps what is written; and the
writes of the run keep such a sum for every hash of accounts into a
commutative group. -/
theorem along_lthash_eq_sum (platform : Platform) (boundary : Boundary) (start : Ledger)
    (operations : List ChainOperation) (store : PublishedStore) (calls : List PublishedCall)
    (serves : store.Serves calls start.shared.published
      (start.along (platform.withBoundary boundary) operations).shared.published)
    (summed : start.bank.lthash = store.iterAll.sum (hashAccount platform)) :
    (start.along (platform.withBoundary boundary) operations).bank.lthash =
      (calls.foldl .serve store).iterAll.sum (hashAccount platform) ∧
    ∃ writes, Replays platform start (start.along (platform.withBoundary boundary) operations) writes ∧
      ∀ (G : Type) [AddCommGroup G] (hash : Pubkey → Account → G),
        Table.mirror hash writes start.shared.published (store.iterAll.sum hash) =
          (calls.foldl .serve store).iterAll.sum hash := by
  have before {G : Type} [AddCommGroup G] := @sum_ext _ _ _ _ G _ _ serves.shows.get_iterAll
  have after {G : Type} [AddCommGroup G] := @sum_ext _ _ _ _ G _ _ serves.holds.get_iterAll
  obtain ⟨writes, published, lthash⟩ := start.along_mirrored platform boundary
  have followed : (start.along (platform.withBoundary boundary) operations).bank.lthash =
      Table.mirror (hashAccount platform) writes start.shared.published start.bank.lthash := lthash
  refine ⟨?_, writes, ⟨published, followed⟩, ?_⟩
  · rw [followed, summed, before, after, mirror_sum, published]
  · intro G _ hash
    rw [before, after, mirror_sum, published]

/-- A platform that hashes an account to the lowest byte of its balance. -/
def lowBytePlatform : Platform :=
  { Platform.bare .bare with blake3 := fun bytes _ => BitVec.ofNat 16 (bytes.headD 0).toNat }

/-- The bank with one purse after its last tick, its hash taken over the purse. -/
def summedLedger : Ledger :=
  { tickedLedger with bank.lthash := tickedLedger.shared.published.sum (hashAccount lowBytePlatform) }

/-- A cache that holds the purse and has room for nothing else. -/
def fullStore : PublishedStore := { cache := tickedLedger.shared.published, maxEntries := 1, store := none }

/-- The hash is still the sum after the slot is finished and a child has paid for a transaction. -/
theorem summedLedger_lthash :
    (summedLedger.along (lowBytePlatform.withBoundary .quiet) [.operate .finishSlot, .child 1 (.sole (.filled 32 7)),
      .operate (.processTransaction .idle plainTransaction 1400000)]).bank.lthash =
      (fullStore.serve (.write (empty.insert (.filled 32 7) (purse.debit 5000)) 0)).iterAll.sum
        (hashAccount lowBytePlatform) :=
  (along_lthash_eq_sum lowBytePlatform .quiet summedLedger _ fullStore
    [.write (empty.insert (.filled 32 7) (purse.debit 5000)) 0]
    ⟨.of_unbacked rfl (fun _ => rfl) (by decide +kernel), rfl, by decide +kernel⟩ rfl).1

/-- A backend that pays a thousand lamports from the first account to the second. -/
def payingBackend : Backend := fun info remaining =>
  { Backend.idle info remaining with
    modifiedAccounts :=
      match info.accounts with
      | payer :: receiver :: _ =>
        (empty.insert payer.pubkey (payer.account.debit 1000)).insert receiver.pubkey (receiver.account.credit 1000)
      | _ => empty }

/-- The payer opens another account. -/
def openingTransaction : SanitizedTransaction :=
  .simple [.filled 32 7, .filled 32 6, computeBudgetProgramId] 1 (.filled 32 9)
    [{ programIdIndex := 2, accountIndices := [0, 1], data := [] }]

def openedLedger : Ledger :=
  summedLedger.along (lowBytePlatform.withBoundary .quiet)
    [.operate (.processTransaction payingBackend openingTransaction 1400000)]

/-- The payer and the new account are written, in this order or the other. -/
def openingWrites : List Modified :=
  [(empty.insert (.filled 32 7) (purse.debit 6000)).insert (.filled 32 6) (Account.zeroed.credit 1000),
    (empty.insert (.filled 32 6) (Account.zeroed.credit 1000)).insert (.filled 32 7) (purse.debit 6000)]

/-- The store keeps one of the two accounts, and the hash is that of both. -/
theorem openingTransaction_lthash_ne :
    (openingWrites.all fun writes => openingTransaction.accountKeys.all fun key =>
      openedLedger.shared.published.get key = (summedLedger.shared.published.overlay writes).get key) = true ∧
    ¬ ∃ writes ∈ openingWrites, openedLedger.bank.lthash =
      (fullStore.serve (.write writes 0)).iterAll.sum (hashAccount lowBytePlatform) := by
  have first : ∀ writes ∈ openingWrites, openedLedger.bank.lthash ⟨0, by decide⟩ ≠
      (fullStore.serve (.write writes 0)).iterAll.sum (hashAccount lowBytePlatform) ⟨0, by decide⟩ := by
    decide +kernel
  refine ⟨by decide +kernel, ?_⟩
  rintro ⟨writes, member, same⟩
  exact first writes member (congrFun same _)

end Karstflow.Runtime
