import Karstflow.Runtime.EpochBoundary
import Karstflow.Runtime.Freezing
import Karstflow.Runtime.Settlement

namespace Karstflow.Runtime

open Data Karstflow.Types Sbpf Ledger Option List Table
open Storage (PublishedStore PublishedCall)

/-! The supply over the end of a slot: the capitalization against the
lamports in the published accounts. -/

/-- The capitalization is ahead of the published lamports and the fees that
were not distributed yet by `drift`. -/
structure Ledger.Ahead (ledger : Ledger) (fees drift : Nat) : Prop where
  capitalization : ledger.bank.capitalization = supply ledger.shared.published + fees + drift
  counters : ledger.bank.executionFees + ledger.bank.priorityFees = fees
  bounded : ledger.bank.capitalization ≤ u64Max

def Ledger.slotRewards (ledger : Ledger) : List PendingReward :=
  match ledger.bank.rewardsDistributor with
  | none => []
  | some distributor => distributor.rewardsForSlot ledger.bank.slot

/-- The state after the fees and the incinerator, where the epoch may change. -/
def Ledger.upToBoundary (platform : Platform) (ledger : Ledger) : Ledger :=
  match (ledger.distributeSlotRewards platform).distributeFees platform with
  | .ok (paid, _) => (paid.publishHash platform (paid.bank.hash platform)).runIncinerator platform
  | .error _ => ledger

/-- The state at the end of the slot, before the bank is frozen. -/
def Ledger.acrossBoundary (platform : Platform) (ledger : Ledger) : Ledger :=
  if (ledger.upToBoundary platform).bank.isEpochBoundary then
    (ledger.upToBoundary platform).processEpochBoundary platform
  else ledger.upToBoundary platform

def RewardsFit (platform : Platform) (rewards : List PendingReward) (ledger : Ledger) : Prop :=
  ledger.bank.capitalization + (applyRewards platform rewards ledger).2 ≤ u64Max

instance (platform : Platform) (rewards : List PendingReward) (ledger : Ledger) :
    Decidable (RewardsFit platform rewards ledger) :=
  inferInstanceAs (Decidable (_ ≤ _))

/-- The capitalization has room for what each of the attempts mints over what
it burns. -/
def CommitsFit (platform : Platform) : List (Ledger → Except MigrationError MigrationOutcome) → Ledger → Prop
  | [], _ => True
  | attempt :: rest, ledger =>
    match attempt ledger with
    | .ok outcome =>
      ledger.bank.capitalization + (outcome.writes.map fun write => write.2.lamports).sum ≤
          u64Max + outcome.lamportsBurned ∧
        CommitsFit platform rest (ledger.commitCoreBpfOutcome platform outcome)
    | .error _ => CommitsFit platform rest ledger

structure BoundaryFits (platform : Platform) (boundary : Boundary) (ledger : Ledger) : Prop where
  commits : ledger.shared.features ≠ none →
    CommitsFit platform (ledger.coreBpfAttempts platform boundary) (ledger.recordActivations boundary)
  rewards : ∀ recorded rewards,
    (ledger.activatePendingFeatures platform boundary).recordEpoch platform = some recorded →
    boundary.validatorRewards recorded = some rewards →
    RewardsFit platform (rewards.filter fun reward => 0 < reward.amount) recorded

structure SlotFits (platform : Platform) (boundary : Boundary) (ledger : Ledger) : Prop where
  rewards : RewardsFit (platform.withBoundary boundary) ledger.slotRewards ledger
  crossing : (ledger.upToBoundary (platform.withBoundary boundary)).bank.isEpochBoundary = true →
    BoundaryFits platform boundary (ledger.upToBoundary (platform.withBoundary boundary))

section

variable {ledger after : Ledger}

theorem applyRewards_supply (platform : Platform) (rewards : List PendingReward) (ledger : Ledger)
    (room : supply ledger.shared.published + (applyRewards platform rewards ledger).2 ≤ u64Max) :
    supply (applyRewards platform rewards ledger).1.shared.published =
      supply ledger.shared.published + (applyRewards platform rewards ledger).2 := by
  induction rewards generalizing ledger with
  | nil => rfl
  | cons reward rest ih =>
    cases found : ledger.shared.published.get reward.account with
    | none =>
      simp only [applyRewards, found] at room ⊢
      exact ih ledger room
    | some account =>
      by_cases nothing : reward.amount = 0
      · simp only [applyRewards, found, nothing, if_true] at room ⊢
        exact ih ledger room
      simp only [applyRewards, found, nothing, if_false] at room ⊢
      have held : account.lamports ≤ supply ledger.shared.published :=
        le_total found fun _ account => account.lamports
      have stored := supply_insert ledger.shared.published reward.account (account.credit reward.amount)
      rw [Execution.lamportsOf, found, elim_some, Account.credit_lamports, satAdd_eq_add (by omega)] at stored
      have next : supply (ledger.storeAccount platform reward.account
          (account.credit reward.amount)).shared.published =
          supply ledger.shared.published + reward.amount := by
        change supply (ledger.shared.published.insert reward.account (account.credit reward.amount)) = _
        omega
      have later := ih (ledger.storeAccount platform reward.account (account.credit reward.amount))
        (by rw [next]; omega)
      omega

/-- Rewards and their sum, added to accounts and to the capitalization. -/
theorem Ledger.Ahead.rewarded (ahead : ledger.Ahead fees drift) (room : RewardsFit platform rewards ledger)
    (same : after.shared.published = (applyRewards platform rewards ledger).1.shared.published)
    (executionFees : after.bank.executionFees = ledger.bank.executionFees)
    (priorityFees : after.bank.priorityFees = ledger.bank.priorityFees) (counted : after.bank.capitalization =
      wrapAdd ledger.bank.capitalization (applyRewards platform rewards ledger).2) : after.Ahead fees drift := by
  have exact_ := ahead.capitalization
  rw [RewardsFit] at room
  rw [wrapAdd_eq_add room] at counted
  have credited := applyRewards_supply platform rewards ledger (by omega)
  constructor
  · rw [counted, same, credited]
    omega
  · rw [executionFees, priorityFees]
    exact ahead.counters
  · rw [counted]
    exact room

theorem distributeSlotRewards_ahead (ahead : ledger.Ahead fees drift)
    (room : RewardsFit platform ledger.slotRewards ledger) :
    (ledger.distributeSlotRewards platform).Ahead fees drift := by
  cases rewarding : ledger.bank.rewardsDistributor with
  | none =>
    simp only [distributeSlotRewards, rewarding]
    exact ahead
  | some distributor =>
    have due : ledger.slotRewards = distributor.rewardsForSlot ledger.bank.slot := by
      simp only [slotRewards, rewarding]
    obtain ⟨published, lthash, same, -⟩ := applyRewards_frame platform ledger.slotRewards ledger
    rw [due] at room same
    apply ahead.rewarded room
    · simp only [distributeSlotRewards, rewarding]
    · simp only [distributeSlotRewards, rewarding, same]
    · simp only [distributeSlotRewards, rewarding, same]
    · simp only [distributeSlotRewards, rewarding, same]

/-- What the leader of the slot should receive and nobody does, because the
schedule does not name one. -/
def Ledger.unclaimed (ledger : Ledger) : Nat :=
  if ledger.bank.getLeader = none then
    ledger.bank.priorityFees + (ledger.bank.executionFees - ledger.bank.executionFees / 2)
  else 0

theorem creditLeaderFees_supply (room : supply ledger.shared.published + amount ≤ u64Max) :
    supply (ledger.creditLeaderFees platform leader amount).shared.published =
      supply ledger.shared.published + amount := by
  change supply (ledger.shared.published.insert leader
    (((ledger.shared.published.get leader).getD .zeroed).credit amount)) = _
  have stored := supply_insert ledger.shared.published leader
    (((ledger.shared.published.get leader).getD .zeroed).credit amount)
  cases found : ledger.shared.published.get leader with
  | none =>
    have nothing : Account.zeroed.lamports = 0 := rfl
    rw [Execution.lamportsOf, found, elim_none, getD_none, Account.credit_lamports, nothing,
      satAdd_eq_add (by omega)] at stored
    rw [getD_none]
    omega
  | some account =>
    have held : account.lamports ≤ supply ledger.shared.published :=
      le_total found fun _ account => account.lamports
    rw [Execution.lamportsOf, found, elim_some, getD_some, Account.credit_lamports, satAdd_eq_add (by omega)] at stored
    rw [getD_some]
    omega

/-- The fees leave the counters: what is burned leaves the capitalization,
what the leader gets arrives in an account, and without a leader the rest is
gone from the accounts only. -/
theorem distributeFees_ahead (ahead : ledger.Ahead fees 0)
    (paid : ledger.distributeFees platform = .ok (after, shares)) : after.Ahead 0 ledger.unclaimed := by
  obtain ⟨counted, counters, bounded⟩ := ahead
  simp only [distributeFees] at paid
  split at paid
  · cases paid
  split at paid
  · rename_i empty
    cases paid
    refine ⟨?_, rfl, bounded⟩
    simp only [unclaimed, empty.1, empty.2, add_zero, ite_self]
    omega
  have share : satAdd ledger.bank.priorityFees (ledger.bank.executionFees - ledger.bank.executionFees / 2) =
      ledger.bank.priorityFees + (ledger.bank.executionFees - ledger.bank.executionFees / 2) :=
    satAdd_eq_add (by omega)
  have burn : wrapSub ledger.bank.capitalization (ledger.bank.executionFees / 2) =
      ledger.bank.capitalization - ledger.bank.executionFees / 2 := wrapSub_eq_sub (by omega) bounded
  rw [share, if_pos (by omega)] at paid
  split at paid
  · rename_i missing
    cases paid
    refine ⟨?_, rfl, ?_⟩
    · simp only [unclaimed, missing, if_true, burn]
      omega
    · simp only [burn]
      omega
  rename_i leader known
  have claimed : ledger.unclaimed = 0 := by
    simp only [unclaimed, known, reduceCtorEq, if_false]
  split at paid
  · cases paid
    refine ⟨?_, rfl, ?_⟩
    · rw [creditLeaderFees_supply (by simp only; omega)]
      simp only [creditLeaderFees, storeAccount, burn]
      omega
    · simp only [creditLeaderFees, storeAccount, burn]
      omega
  cases paid
  refine ⟨?_, rfl, ?_⟩
  · simp only [burn]
    rw [wrapSub_eq_sub (by omega) (by omega)]
    omega
  · simp only [burn]
    rw [wrapSub_eq_sub (by omega) (by omega)]
    omega

theorem runIncinerator_ahead (ahead : ledger.Ahead fees drift) : (ledger.runIncinerator platform).Ahead fees drift := by
  cases found : ledger.shared.published.get incineratorId with
  | none =>
    simp only [runIncinerator, found]
    exact ahead
  | some account =>
    by_cases empty : account.lamports = 0
    · simp only [runIncinerator, found, empty, if_true]
      exact ahead
    obtain ⟨counted, counters, bounded⟩ := ahead
    have stored := supply_insert ledger.shared.published incineratorId (account.setLamports 0)
    rw [Execution.lamportsOf, found, elim_some, Account.setLamports_lamports, Nat.zero_mod] at stored
    have burn : wrapSub ledger.bank.capitalization account.lamports =
        ledger.bank.capitalization - account.lamports := wrapSub_eq_sub (by omega) bounded
    simp only [runIncinerator, found, empty, if_false, storeAccount]
    refine ⟨?_, counters, ?_⟩
    · simp only [burn]
      omega
    · simp only [burn]
      omega

theorem foldl_storeAccount (platform : Platform) (writes : List (Pubkey × Account)) (ledger : Ledger) :
    ∃ lthash, writes.foldl (fun ledger write => ledger.storeAccount platform write.1 write.2) ledger =
      { shared :=
          { ledger.shared with
            published := writes.foldl (fun published write => published.insert write.1 write.2)
              ledger.shared.published }
        bank := { ledger.bank with lthash } } := by
  induction writes generalizing ledger with
  | nil => exact ⟨ledger.bank.lthash, rfl⟩
  | cons write rest ih => exact ih (ledger.storeAccount platform write.1 write.2)

theorem sum_lamports_le_supply {writes : List (Pubkey × Account)}
    (distinct : writes.Pairwise fun left right => left.1 ≠ right.1) (published : Table Pubkey Account) :
    (writes.map fun write => (published.get write.1).elim 0 Account.lamports).sum ≤ supply published := by
  have keys := pairwise_map.mpr distinct
  have weighed := sum_map_get keys published fun _ account => account.lamports
  rw [List.map_map] at weighed
  refine le_trans (le_of_eq weighed) ?_
  apply total_mono
  intro key account
  by_cases listed : key ∈ writes.map Prod.fst
  · simp [listed]
  · simp [listed]

theorem Ledger.Ahead.committed (ahead : ledger.Ahead fees drift)
    (accounted : outcome.Accounted ledger.shared.published.get)
    (room : ledger.bank.capitalization + (outcome.writes.map fun write => write.2.lamports).sum ≤
      u64Max + outcome.lamportsBurned) : (ledger.commitCoreBpfOutcome platform outcome).Ahead fees drift := by
  obtain ⟨counted, counters, bounded⟩ := ahead
  obtain ⟨lthash, stored⟩ := foldl_storeAccount platform outcome.writes ledger
  have held := sum_lamports_le_supply accounted.distinct ledger.shared.published
  have moved : supply (outcome.writes.foldl (fun published write => published.insert write.1 write.2)
        ledger.shared.published) +
      (outcome.writes.map fun write => (ledger.shared.published.get write.1).elim 0 Account.lamports).sum =
      supply ledger.shared.published + (outcome.writes.map fun write => write.2.lamports).sum :=
    total_foldl_insert accounted.distinct ledger.shared.published fun _ account => account.lamports
  have burned := accounted.burned
  have funded := accounted.funded
  have after : (ledger.commitCoreBpfOutcome platform outcome).bank.capitalization + outcome.lamportsBurned =
      ledger.bank.capitalization + outcome.lamportsFunded := by
    simp only [commitCoreBpfOutcome, stored]
    by_cases shrinks : outcome.lamportsFunded < outcome.lamportsBurned
    · rw [if_pos shrinks, wrapSub_eq_sub (by omega) bounded]
      omega
    by_cases grows : outcome.lamportsBurned < outcome.lamportsFunded
    · rw [if_neg shrinks, if_pos grows, wrapAdd_eq_add (by omega)]
      omega
    · rw [if_neg shrinks, if_neg grows]
      omega
  constructor
  · have same : supply (ledger.commitCoreBpfOutcome platform outcome).shared.published =
        supply (outcome.writes.foldl (fun published write => published.insert write.1 write.2)
          ledger.shared.published) := by
      simp only [commitCoreBpfOutcome, stored]
    omega
  · simp only [commitCoreBpfOutcome, stored]
    exact counters
  · omega

theorem Ledger.Ahead.committedAll (ahead : ledger.Ahead fees drift)
    (accounted : ∀ attempt ∈ attempts, ∀ (ledger : Ledger) outcome, attempt ledger = .ok outcome →
      outcome.Accounted ledger.shared.published.get)
    (room : CommitsFit platform attempts ledger) : (commitAll platform attempts ledger).Ahead fees drift := by
  induction attempts generalizing ledger with
  | nil => exact ahead
  | cons attempt rest ih =>
    have later : ∀ attempt ∈ rest, ∀ (ledger : Ledger) outcome, attempt ledger = .ok outcome →
        outcome.Accounted ledger.shared.published.get :=
      fun attempt member => accounted attempt (mem_cons_of_mem _ member)
    cases ran : attempt ledger with
    | error reason =>
      simp only [CommitsFit, commitAll, ran] at room ⊢
      exact ih ahead later room
    | ok outcome =>
      simp only [CommitsFit, commitAll, ran] at room ⊢
      exact ih (ahead.committed (accounted attempt mem_cons_self ledger outcome ran) room.1) later room.2

theorem coreBpfAttempts_accounted (platform : Platform) (boundary : Boundary) (start : Ledger) :
    ∀ attempt ∈ start.coreBpfAttempts platform boundary, ∀ (ledger : Ledger) outcome,
      attempt ledger = .ok outcome → outcome.Accounted ledger.shared.published.get := by
  intro attempt member ledger outcome ran
  obtain migration | upgrade := mem_append.mp member
  · obtain ⟨config, listed, rfl⟩ := mem_map.mp migration
    exact migrate_accounted (boundary.programdata_other config (mem_filter.mp listed).1) ran
  · obtain ⟨config, -, rfl⟩ := mem_map.mp upgrade
    exact applyUpgrade_accounted ran

section

variable (ahead : ledger.Ahead fees drift)

include ahead

theorem activatePendingFeatures_ahead (room : BoundaryFits platform boundary ledger) :
    (ledger.activatePendingFeatures platform boundary).Ahead fees drift := by
  cases features : ledger.shared.features with
  | none =>
    simp only [activatePendingFeatures, features]
    exact ahead
  | some active =>
    simp only [activatePendingFeatures, features]
    have recorded : (ledger.recordActivations boundary).Ahead fees drift := ⟨ahead.capitalization, ahead.counters, ahead.bounded⟩
    apply recorded.committedAll (coreBpfAttempts_accounted platform boundary ledger)
    apply room.commits
    rw [features]
    exact some_ne_none active

theorem recordEpoch_ahead (ran : ledger.recordEpoch platform = some recorded) : recorded.Ahead fees drift := by
  simp only [recordEpoch] at ran
  split at ran
  · split at ran
    · cases ran
    · cases ran
      exact ⟨ahead.capitalization, ahead.counters, ahead.bounded⟩
  · cases ran

theorem calculateAndPrepareRewards_ahead (room : ∀ recorded rewards, ledger.recordEpoch platform = some recorded →
      boundary.validatorRewards recorded = some rewards →
      RewardsFit platform (rewards.filter fun reward => 0 < reward.amount) recorded) :
    (ledger.calculateAndPrepareRewards platform boundary).Ahead fees drift := by
  cases ran : ledger.recordEpoch platform with
  | none =>
    simp only [calculateAndPrepareRewards, ran]
    exact ahead
  | some recorded =>
    have kept := recordEpoch_ahead ahead ran
    cases due : boundary.validatorRewards recorded with
    | none =>
      simp only [calculateAndPrepareRewards, ran, due]
      exact kept
    | some rewards =>
      simp only [calculateAndPrepareRewards, ran, due]
      obtain ⟨published, lthash, same, -⟩ :=
        applyRewards_frame platform (rewards.filter fun reward => 0 < reward.amount) recorded
      apply kept.rewarded (room recorded rewards ran due)
      · rfl
      · simp only [payEpochRewards, same]
      · simp only [payEpochRewards, same]
      · simp only [payEpochRewards, same]

theorem processEpochBoundary_ahead (room : BoundaryFits platform boundary ledger) :
    (ledger.processEpochBoundary (platform.withBoundary boundary)).Ahead fees drift := by
  have activated := activatePendingFeatures_ahead ahead room
  have rewarded := calculateAndPrepareRewards_ahead activated room.rewards
  have refreshed : ((((ledger.activatePendingFeatures platform boundary).calculateAndPrepareRewards platform
      boundary).refreshVoteAccountCache (platform.withBoundary boundary))).Ahead fees drift := by
    rw [refreshVoteAccountCache]
    split
    · exact ⟨rewarded.capitalization, rewarded.counters, rewarded.bounded⟩
    · exact rewarded
  change (((((ledger.activatePendingFeatures platform boundary).calculateAndPrepareRewards platform
    boundary).refreshVoteAccountCache (platform.withBoundary boundary))).regenerateLeaderSchedule
      (platform.withBoundary boundary)).Ahead fees drift
  generalize (((ledger.activatePendingFeatures platform boundary).calculateAndPrepareRewards platform
    boundary).refreshVoteAccountCache (platform.withBoundary boundary)) = refreshedLedger at refreshed
  simp only [regenerateLeaderSchedule]
  split
  · exact refreshed
  · split
    · exact ⟨refreshed.capitalization, refreshed.counters, refreshed.bounded⟩
    · exact refreshed

end

theorem finishSlot_across (done : ledger.finishSlot platform = .ok (after, summary)) :
    after = { ledger.acrossBoundary platform with bank.status := .frozen } ∧
      ∃ paid, (ledger.distributeSlotRewards platform).distributeFees platform = .ok paid := by
  obtain ⟨paid, shares, distributed, reached⟩ := finishSlot_stages done
  refine ⟨?_, _, distributed⟩
  rw [reached]
  simp only [acrossBoundary, upToBoundary, distributed]

theorem upToBoundary_ahead (ahead : ledger.Ahead fees 0) (room : RewardsFit platform ledger.slotRewards ledger)
    (distributed : (ledger.distributeSlotRewards platform).distributeFees platform = .ok paid) :
    (ledger.upToBoundary platform).Ahead 0 (ledger.distributeSlotRewards platform).unclaimed := by
  have kept := distributeFees_ahead (distributeSlotRewards_ahead ahead room) distributed
  simp only [upToBoundary, distributed]
  apply runIncinerator_ahead
  exact ⟨kept.capitalization, kept.counters, kept.bounded⟩

theorem distributeSlotRewards_unclaimed : (ledger.distributeSlotRewards platform).unclaimed = ledger.unclaimed := by
  cases rewarding : ledger.bank.rewardsDistributor with
  | none => simp only [distributeSlotRewards, rewarding]
  | some distributor =>
    obtain ⟨published, lthash, same, -⟩ :=
      applyRewards_frame platform (distributor.rewardsForSlot ledger.bank.slot) ledger
    simp only [distributeSlotRewards, rewarding, same]
    rfl

theorem unclaimed_eq_zero : ledger.unclaimed = 0 ↔
    ledger.bank.getLeader.isSome = true ∨ ledger.bank.executionFees + ledger.bank.priorityFees = 0 := by
  cases leader : ledger.bank.getLeader with
  | none =>
    simp only [unclaimed, leader, if_true, isSome_none, Bool.false_eq_true, false_or]
    omega
  | some key => simp [unclaimed, leader]

/-- Only what nobody claimed is missing from the accounts when the slot has ended. -/
theorem finishSlot_ahead (done : ledger.finishSlot (platform.withBoundary boundary) = .ok (after, summary))
    (ahead : ledger.Ahead fees 0) (fits : SlotFits platform boundary ledger) : after.Ahead 0 ledger.unclaimed := by
  obtain ⟨rfl, paid, distributed⟩ := finishSlot_across done
  have reached := upToBoundary_ahead ahead fits.rewards distributed
  rw [distributeSlotRewards_unclaimed] at reached
  have crossed : (ledger.acrossBoundary (platform.withBoundary boundary)).Ahead 0 ledger.unclaimed := by
    rw [acrossBoundary]
    split
    · rename_i ended
      exact processEpochBoundary_ahead reached (fits.crossing ended)
    · exact reached
  exact ⟨crossed.capitalization, crossed.counters, crossed.bounded⟩

end

/-- When a slot ends without an overflow and the store keeps what is written,
the capitalization is the sum of the published lamports again if and only if
the schedule knows the leader or no fees are left to distribute. -/
theorem finishSlot_supply_iff (platform : Platform) (boundary : Boundary) (ledger after : Ledger)
    (summary : Ledger.SlotFinalizationResult)
    (done : ledger.finishSlot (platform.withBoundary boundary) = .ok (after, summary))
    (store : PublishedStore) (calls : List PublishedCall)
    (serves : store.Serves calls ledger.shared.published after.shared.published)
    (backed : ledger.bank.capitalization =
      supply store.iterAll + (ledger.bank.executionFees + ledger.bank.priorityFees))
    (fits : SlotFits platform boundary ledger) :
    after.bank.capitalization = supply (calls.foldl .serve store).iterAll ↔
      ledger.bank.getLeader.isSome = true ∨ ledger.bank.executionFees + ledger.bank.priorityFees = 0 := by
  have before : supply store.iterAll = supply ledger.shared.published := total_ext serves.shows.get_iterAll _
  have left : supply (calls.foldl .serve store).iterAll = supply after.shared.published :=
    total_ext serves.holds.get_iterAll _
  have bounded := le_trans (Nat.le_add_right _ _) fits.rewards
  rw [before] at backed
  have counted := (finishSlot_ahead done ⟨backed, rfl, bounded⟩ fits).capitalization
  rw [left, ← unclaimed_eq_zero]
  omega

/-- A bank of an epoch twice as long as the schedule, after its last tick and
with ten lamports of fees to distribute. -/
def feesLedger (slot : Nat) : Ledger :=
  { tickedLedger with
    bank.slot := slot
    bank.slotIndex := slot
    bank.parentSlot := some (slot - 1)
    bank.epochSchedule :=
      { slotsPerEpoch := 864000, leaderScheduleSlotOffset := 864000, warmup := false, firstNormalEpoch := 0,
        firstNormalSlot := 0 }
    bank.executionFees := 10
    bank.capitalization := supply tickedLedger.shared.published + 10 }

/-- The leader gets half of the fees, and the sum is right again. -/
theorem feesLedger_supply : ∃ after summary,
      (feesLedger 1).finishSlot (Platform.withBoundary (.bare .bare) .quiet) = .ok (after, summary) ∧
        after.bank.capitalization =
          supply (purseStore.serve (.write (empty.insert (.filled 32 7) (purse.credit 5)) 0)).iterAll := by
  refine ⟨_, _, rfl, (finishSlot_supply_iff (.bare .bare) .quiet (feesLedger 1) _ _ rfl purseStore
    [.write (empty.insert (.filled 32 7) (purse.credit 5)) 0] ⟨?_, rfl, by decide +kernel⟩ rfl
    ⟨by decide, fun crossing => absurd crossing (by decide +kernel)⟩).mpr ?_⟩
  · exact .of_unbacked rfl (fun _ => rfl) (by decide +kernel)
  · decide

/-- Past the end of the schedule the leader's share of the fees stays in the
capitalization and is in no account. -/
theorem leaderless_supply_ne : ∃ after summary,
      (feesLedger 432000).finishSlot (Platform.withBoundary (.bare .bare) .quiet) = .ok (after, summary) ∧
      after.shared.published = (feesLedger 432000).shared.published ∧
      (feesLedger 432000).bank.capitalization = supply purseStore.iterAll +
        ((feesLedger 432000).bank.executionFees + (feesLedger 432000).bank.priorityFees) ∧
      SlotFits (.bare .bare) .quiet (feesLedger 432000) ∧
      after.bank.capitalization = supply purseStore.iterAll + 5 := by
  have leaderless : (feesLedger 432000).bank.getLeader = none :=
    getElem?_eq_none (le_of_eq (LeaderSchedule.sole (.filled 32 7)).length_eq)
  have unrewarded : (feesLedger 432000).distributeSlotRewards (Platform.withBoundary (.bare .bare) .quiet) =
      feesLedger 432000 := rfl
  have paid : (feesLedger 432000).distributeFees (Platform.withBoundary (.bare .bare) .quiet) =
      .ok ({ feesLedger 432000 with
        bank := { (feesLedger 432000).bank with
          executionFees := 0
          priorityFees := 0
          capitalization := supply tickedLedger.shared.published + 5 } }, 5, 5) := by
    rw [distributeFees, leaderless]
    rfl
  have fits : SlotFits (.bare .bare) .quiet (feesLedger 432000) := by
    refine ⟨by decide, fun crossing => ?_⟩
    rw [upToBoundary, unrewarded, paid] at crossing
    exact absurd crossing (by decide +kernel)
  rw [finishSlot, if_neg (by decide), if_neg (by decide), unrewarded, paid]
  exact ⟨_, _, rfl, rfl, rfl, fits, rfl⟩

end Karstflow.Runtime
