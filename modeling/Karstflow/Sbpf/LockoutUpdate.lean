import Karstflow.Sbpf.VoteState

namespace Karstflow.Sbpf.VoteState

open Data Consensus List

/-! # Updates of a whole tower

An update replaces all votes of the account at once. What it may drop is decided
by one merge over the current and the proposed votes.
-/

variable {state after : VoteState}

/-- `apply_vote_state_update` on the state itself: each exit returns the state
as it is at that point. -/
def applyVoteStateUpdateInPlace (state : VoteState) (newVotes : List LandedVote) (newRoot : Option Nat)
    (epoch currentSlot : Nat) : Except VoteError Unit × VoteState :=
  if maxLockoutHistory < newVotes.length then (.error .tooManyVotes, state)
  else if newVotes = [] then (.error .emptySlots, state)
  else if rootRollsBack state.rootSlot newRoot then (.error .rootRollBack, state)
  else
    match checkVotes newRoot none newVotes with
    | .error reason => (.error reason, state)
    | .ok () =>
      let earned := earnedCredits state.votes newRoot
      match verifyLockoutConsistency state.votes newVotes with
      | .error reason => (.error reason, state)
      | .ok () =>
        let finalVotes := newVotes.map (state.landedLatency currentSlot)
        let state :=
          if state.rootSlot ≠ newRoot ∧ 0 < earned then
            { state with epochCredits := addEpochCredits state.epochCredits epoch earned }
          else state
        let state := { state with rootSlot := newRoot }
        (.ok (), { state with votes := finalVotes })

theorem applyVoteStateUpdateInPlace_eq : state.applyVoteStateUpdateInPlace newVotes newRoot epoch currentSlot =
      match state.applyVoteStateUpdate newVotes newRoot epoch currentSlot with
      | .ok after => (.ok (), after)
      | .error reason => (.error reason, state) := by
  rw [applyVoteStateUpdateInPlace, applyVoteStateUpdate]
  split
  · rfl
  split
  · rfl
  split
  · rfl
  cases checkVotes newRoot none newVotes with
  | error reason => rfl
  | ok checked =>
    cases verifyLockoutConsistency state.votes newVotes with
    | error reason => rfl
    | ok merged =>
      simp only [bind, bind]
      split <;> rfl

theorem accepted_of_inPlace
    (ran : state.applyVoteStateUpdateInPlace newVotes newRoot epoch currentSlot = (.ok (), after)) :
    state.applyVoteStateUpdate newVotes newRoot epoch currentSlot = .ok after := by
  rw [applyVoteStateUpdateInPlace_eq] at ran
  split at ran
  · rename_i accepted
    cases ran
    exact accepted
  · cases ran

structure Accepted (state : VoteState) (newVotes : List LandedVote) (newRoot : Option Nat) (after : VoteState) :
    Prop where
  nonempty : newVotes ≠ []
  root : rootRollsBack state.rootSlot newRoot = false
  checked : checkVotes newRoot none newVotes = .ok ()
  merged : verifyLockoutConsistency state.votes newVotes = .ok ()
  rootSlot : after.rootSlot = newRoot
  slots : after.votes.map LandedVote.slot = newVotes.map LandedVote.slot

theorem applyVoteStateUpdate_accepted
    (ran : state.applyVoteStateUpdate newVotes newRoot epoch currentSlot = .ok after) :
    Accepted state newVotes newRoot after := by
  rw [applyVoteStateUpdate] at ran
  split at ran
  · cases ran
  split at ran
  · cases ran
  rename_i nonempty
  split at ran
  · cases ran
  rename_i forward
  obtain ⟨_, checked, ran⟩ := bind_eq_ok.mp ran
  obtain ⟨_, merged, done⟩ := bind_eq_ok.mp ran
  cases done
  refine ⟨nonempty, Bool.eq_false_iff.mpr forward, checked, merged, rfl, ?_⟩
  rw [map_map]
  rfl

def Increasing (votes : List LandedVote) : Prop := votes.Pairwise fun earlier later => earlier.slot < later.slot

instance (votes : List LandedVote) : Decidable (Increasing votes) :=
  inferInstanceAs (Decidable (votes.Pairwise fun earlier later => earlier.slot < later.slot))

theorem checkVotes_increasing {votes : List LandedVote} (checked : checkVotes newRoot previous votes = .ok ()) :
    Increasing votes ∧ ∀ earlier, previous = some earlier → ∀ vote ∈ votes, earlier.slot < vote.slot := by
  induction votes generalizing previous with
  | nil => exact ⟨.nil, fun _ _ vote member => absurd member not_mem_nil⟩
  | cons vote rest ih =>
    have both : checkVotes newRoot (some vote) rest = .ok () ∧
        ∀ earlier, previous = some earlier → earlier.slot < vote.slot := by
      rw [checkVotes.eq_def] at checked
      dsimp only at checked
      split at checked
      · cases checked
      split at checked
      · cases checked
      split at checked
      · cases checked
      cases previous with
      | none => exact ⟨checked, fun _ absent => by cases absent⟩
      | some earlier =>
        dsimp only at checked
        split at checked
        · cases checked
        rename_i ordered
        split at checked
        · cases checked
        split at checked
        · cases checked
        · refine ⟨checked, fun _ same => ?_⟩
          cases same
          exact Nat.lt_of_not_le ordered
    obtain ⟨increasing, above⟩ := ih both.1
    refine ⟨.cons (above vote rfl) increasing, fun earlier same next member => ?_⟩
    obtain here | later := mem_cons.mp member
    · exact here ▸ both.2 earlier same
    · exact lt_trans (both.2 earlier same) (above vote rfl next later)

/-- The last slot that the merge takes a vote to be locked out for. -/
def lastLocked (vote : LandedVote) : Nat :=
  satAdd vote.slot (satPow initialLockout (min vote.lockout.confirmationCount maxLockoutHistory))

/-- One current vote passes over the proposed votes up to its own slot, and if
it is not among them, the next one is past its lockout. -/
theorem verifyAgainst_spec (finished : later [] = .ok ()) (verified : verifyAgainst current later proposed = .ok ()) :
    ∃ passed rest, proposed = passed ++ rest ∧ (∀ vote ∈ passed, vote.slot ≤ current.slot) ∧ later rest = .ok () ∧
      ((∀ vote ∈ proposed, vote.slot ≠ current.slot) → ∀ vote ∈ rest.head?, lastLocked current < vote.slot) := by
  induction proposed with
  | nil => exact ⟨[], [], rfl, by simp, finished, by simp⟩
  | cons vote rest ih =>
    rw [verifyAgainst] at verified
    split at verified
    · dsimp only at verified
      split at verified
      · cases verified
      · rename_i free
        refine ⟨[], vote :: rest, rfl, by simp, verified, fun _ next head => ?_⟩
        cases head
        exact Nat.lt_of_not_le free
    rename_i reached
    split at verified
    · rename_i same
      split at verified
      · cases verified
      · refine ⟨[vote], rest, rfl, ?_, verified, fun missing => ?_⟩
        · intro passed member
          rw [mem_singleton.mp member, same]
        · exact absurd same.symm (missing vote mem_cons_self)
    · obtain ⟨passed, remaining, split, below, merged, free⟩ := ih verified
      refine ⟨vote :: passed, remaining, by rw [split, cons_append], ?_, merged, fun missing => ?_⟩
      · intro next member
        obtain here | later := mem_cons.mp member
        · exact here ▸ Nat.le_of_not_lt reached
        · exact below next later
      · exact free fun next member => missing next (mem_cons_of_mem _ member)

theorem lastLocked_lt_of_merged (currentIncreasing : Increasing current)
    (increasing : Increasing proposed) (merged : verifyLockoutConsistency current proposed = .ok ())
    {next : LandedVote} (member : vote ∈ current) (missing : ∀ other ∈ proposed, other.slot ≠ vote.slot)
    (after : next ∈ proposed) (above : vote.slot < next.slot) : lastLocked vote < next.slot := by
  induction current generalizing proposed with
  | nil => cases member
  | cons first rest ih =>
    obtain ⟨passed, remaining, rfl, below, merged, free⟩ := verifyAgainst_spec (by cases rest <;> rfl) merged
    obtain ⟨_, remainingIncreasing, _⟩ := pairwise_append.mp increasing
    obtain ⟨firstBelow, restIncreasing⟩ := pairwise_cons.mp currentIncreasing
    have least : first.slot ≤ vote.slot := by
      obtain here | later := mem_cons.mp member
      · rw [here]
      · exact le_of_lt (firstBelow vote later)
    have kept : next ∈ remaining := by
      refine (mem_append.mp after).resolve_left fun passedBy => ?_
      exact not_le.mpr above (le_trans (below next passedBy) least)
    obtain here | later := mem_cons.mp member
    · subst here
      cases remaining with
      | nil => cases kept
      | cons head tail =>
        have expired := free missing head rfl
        obtain same | later := mem_cons.mp kept
        · exact same ▸ expired
        · exact lt_trans expired ((pairwise_cons.mp remainingIncreasing).1 next later)
    · exact ih restIncreasing remainingIncreasing merged later
        (fun other inside => missing other (mem_append_right _ inside)) kept

/-- Neither the last voted slot nor the root goes back, and whatever vote above
the new root is dropped has expired before the votes that come after it. -/
structure KeepsLockouts (state after : VoteState) : Prop where
  last : ∀ old ∈ state.votes.getLast?, ∃ new ∈ after.votes.getLast?, old.slot ≤ new.slot
  root : ∀ old ∈ state.rootSlot, ∃ new ∈ after.rootSlot, old ≤ new
  lockouts : ∀ vote ∈ state.votes, (∀ root ∈ after.rootSlot, root < vote.slot) →
    (∀ new ∈ after.votes, new.slot ≠ vote.slot) →
      ∀ new ∈ after.votes, vote.slot < new.slot → vote.slot + 2 ^ vote.lockout.confirmationCount < new.slot

/-- The last proposed vote is not below the last current one. -/
def NotOlder (state : VoteState) (newVotes : List LandedVote) : Prop :=
  ∀ old ∈ state.votes.getLast?, ∃ new ∈ newVotes.getLast?, old.slot ≤ new.slot

/-- A vote with more confirmations than the lockout history is long is dropped
for one that is past the capped lockout only. -/
def CutsShort (state : VoteState) (newVotes : List LandedVote) (newRoot : Option Nat) : Prop :=
  ∃ vote ∈ state.votes, maxLockoutHistory < vote.lockout.confirmationCount ∧
    (∀ root ∈ newRoot, root < vote.slot) ∧ (∀ new ∈ newVotes, new.slot ≠ vote.slot) ∧
      ∃ new ∈ newVotes, vote.slot + 2 ^ maxLockoutHistory < new.slot ∧
        new.slot ≤ vote.slot + 2 ^ vote.lockout.confirmationCount

theorem add_lt_of_lastLocked_lt (typed : slot ≤ u64Max) (expired : lastLocked vote < slot) :
    vote.slot + 2 ^ min vote.lockout.confirmationCount maxLockoutHistory < slot := by
  have power : 2 ^ min vote.lockout.confirmationCount maxLockoutHistory ≤ 2 ^ maxLockoutHistory :=
    Nat.pow_le_pow_right (by decide) (min_le_right _ _)
  simp only [lastLocked, satAdd, satPow, initialLockout] at expired
  omega

section Slots

variable {left right : List LandedVote} (slots : left.map LandedVote.slot = right.map LandedVote.slot)

include slots

theorem forall_slot_iff (Holds : Nat → Prop) : (∀ vote ∈ left, Holds vote.slot) ↔ ∀ vote ∈ right, Holds vote.slot := by
  rw [← forall_mem_map, slots, forall_mem_map]

theorem exists_last_slot_iff (Holds : Nat → Prop) :
    (∃ vote ∈ left.getLast?, Holds vote.slot) ↔ ∃ vote ∈ right.getLast?, Holds vote.slot := by
  have last : left.getLast?.map LandedVote.slot = right.getLast?.map LandedVote.slot := by
    rw [← getLast?_map, ← getLast?_map, slots]
  have mapped : ∀ votes : List LandedVote, (∃ vote ∈ votes.getLast?, Holds vote.slot) ↔
      ∃ slot ∈ votes.getLast?.map LandedVote.slot, Holds slot := by
    intro votes
    cases votes.getLast? <;> simp
  rw [mapped, last, ← mapped]

end Slots

theorem Accepted.root_le (accepted : Accepted state newVotes newRoot after) :
    ∀ old ∈ state.rootSlot, ∃ new ∈ after.rootSlot, old ≤ new := by
  intro old current
  have forward := accepted.root
  rw [accepted.rootSlot]
  rw [Option.mem_def.mp current] at forward
  cases newRoot with
  | none => cases forward
  | some proposed => exact ⟨proposed, rfl, Nat.le_of_not_lt (of_decide_eq_false forward)⟩

theorem Accepted.expired (accepted : Accepted state newVotes newRoot after) (increasing : Increasing state.votes)
    (typed : ∀ vote ∈ newVotes, vote.slot ≤ u64Max) {new : LandedVote} (member : vote ∈ state.votes)
    (missing : ∀ other ∈ newVotes, other.slot ≠ vote.slot) (proposed : new ∈ newVotes) (above : vote.slot < new.slot) :
    vote.slot + 2 ^ min vote.lockout.confirmationCount maxLockoutHistory < new.slot :=
  add_lt_of_lastLocked_lt (typed new proposed)
    (lastLocked_lt_of_merged increasing (checkVotes_increasing accepted.checked).1 accepted.merged member missing
      proposed above)

/-- An accepted update keeps the lockouts exactly when it does not go back to an
older last vote and cuts no long lockout short. A refused one changes nothing. -/
theorem update_keeps_lockouts_iff (state : VoteState) (increasing : Increasing state.votes)
    (newVotes : List LandedVote) (typed : ∀ vote ∈ newVotes, vote.slot ≤ u64Max) (newRoot : Option Nat)
    (epoch currentSlot : Nat) : (∀ reason after, state.applyVoteStateUpdateInPlace newVotes newRoot epoch currentSlot =
      (.error reason, after) → after = state) ∧
    ∀ after, state.applyVoteStateUpdateInPlace newVotes newRoot epoch currentSlot = (.ok (), after) →
      (KeepsLockouts state after ↔ NotOlder state newVotes ∧ ¬ CutsShort state newVotes newRoot) := by
  constructor
  · intro reason after ran
    rw [applyVoteStateUpdateInPlace_eq] at ran
    split at ran <;> cases ran
    rfl
  · intro after ran
    have accepted := applyVoteStateUpdate_accepted (accepted_of_inPlace ran)
    have last : ∀ old, (∃ new ∈ after.votes.getLast?, old ≤ new.slot) ↔ ∃ new ∈ newVotes.getLast?, old ≤ new.slot :=
      fun old => exists_last_slot_iff accepted.slots (old ≤ ·)
    have missing : ∀ slot, (∀ new ∈ after.votes, new.slot ≠ slot) ↔ ∀ new ∈ newVotes, new.slot ≠ slot :=
      fun slot => forall_slot_iff accepted.slots (· ≠ slot)
    constructor
    · intro keeps
      refine ⟨fun old current => (last old.slot).mp (keeps.last old current), ?_⟩
      rintro ⟨vote, member, _, unrooted, dropped, new, proposed, capped, locked⟩
      have lockouts := keeps.lockouts vote member (accepted.rootSlot ▸ unrooted) ((missing _).mpr dropped)
      have expired := (forall_slot_iff accepted.slots fun slot =>
        vote.slot < slot → vote.slot + 2 ^ vote.lockout.confirmationCount < slot).mp lockouts new proposed
        (lt_of_le_of_lt (Nat.le_add_right _ _) capped)
      exact not_le.mpr expired locked
    · rintro ⟨notOlder, whole⟩
      refine ⟨fun old current => (last old.slot).mpr (notOlder old current), accepted.root_le, ?_⟩
      intro vote member unrooted dropped
      rw [missing] at dropped
      apply (forall_slot_iff accepted.slots fun slot =>
        vote.slot < slot → vote.slot + 2 ^ vote.lockout.confirmationCount < slot).mpr
      intro new proposed above
      have expired := accepted.expired increasing typed member dropped proposed above
      by_cases short : vote.lockout.confirmationCount ≤ maxLockoutHistory
      · rwa [min_eq_left short] at expired
      · rw [min_eq_right (Nat.le_of_not_le short)] at expired
        by_contra locked
        exact whole ⟨vote, member, Nat.lt_of_not_le short, accepted.rootSlot ▸ unrooted, dropped, new, proposed,
          expired, Nat.le_of_not_lt locked⟩

def landed (slot confirmationCount : Nat) : LandedVote := { latency := 0, lockout := { slot, confirmationCount } }

/-- The only vote is replaced by an older one, and a vote with 32 confirmations
is dropped before its lockout ends. -/
theorem older_update_accepted :
    (let state : VoteState := { new with votes := [landed 10 1] }
     (state.applyVoteStateUpdateInPlace [landed 3 1] none 0 11).1 = .ok () ∧
       ¬ KeepsLockouts state (state.applyVoteStateUpdateInPlace [landed 3 1] none 0 11).2) ∧
    (let state : VoteState := { new with votes := [landed 1 32] }
     (state.applyVoteStateUpdateInPlace [landed 2147483650 1] none 0 11).1 = .ok () ∧
       ¬ KeepsLockouts state (state.applyVoteStateUpdateInPlace [landed 2147483650 1] none 0 11).2) := by
  refine ⟨⟨by decide, fun keeps => ?_⟩, ⟨by decide, fun keeps => ?_⟩⟩
  · have last := keeps.last (landed 10 1) (by decide)
    revert last
    decide
  · have lockouts := keeps.lockouts (landed 1 32) (by decide) (by decide) (by decide) ⟨0, ⟨2147483650, 1⟩⟩
    revert lockouts
    decide

theorem extended_update_keeps_lockouts :
    let state : VoteState := { new with votes := [landed 3 2, landed 4 1], rootSlot := some 1 }
    ∃ after, state.applyVoteStateUpdateInPlace [landed 3 2, landed 7 1] (some 1) 0 8 = (.ok (), after) ∧
      KeepsLockouts state after := by
  intro state
  have decided := update_keeps_lockouts_iff state (by decide) [landed 3 2, landed 7 1] (by decide) (some 1) 0 8
  refine ⟨_, rfl, (decided.2 _ rfl).mpr ⟨?_, ?_⟩⟩
  · rintro old ⟨⟩
    exact ⟨_, rfl, by decide⟩
  · rintro ⟨vote, member, many, _⟩
    revert vote
    decide

end Karstflow.Sbpf.VoteState
