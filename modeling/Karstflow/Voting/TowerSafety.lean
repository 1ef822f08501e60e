import Karstflow.Stages.VoteIntegration
import Karstflow.Consensus.GhostWeights

namespace Karstflow.Voting

open Data Consensus Stages List

/-! # Tower safety of the live voting path

Four branches of `run_consensus_decision` end in a vote or in none. A vote is
safe when it is newer than everything the tower holds and leaves no lockout for
another fork. `Guarded` says on the tower before the call when the branch that
is taken gives a safe vote.
-/

section Descent

variable {choice : ForkChoice}

theorem mem_validChildren (member : child ∈ choice.validChildren current) : choice.parentOf child = some current := by
  simp only [ForkChoice.validChildren, mem_map, mem_filter, Bool.and_eq_true, decide_eq_true_eq] at member
  obtain ⟨⟨slot, fork⟩, ⟨stored, parent, _⟩, rfl⟩ := member
  rw [ForkChoice.parentOf, Table.get_eq_some_iff_mem.mpr stored]
  exact parent

theorem bestChild_mem (nonempty : children ≠ []) : ∃ best ∈ children, choice.bestChild children = some best := by
  cases children with
  | nil => exact absurd rfl nonempty
  | cons first rest =>
    refine ⟨_, ?_, rfl⟩
    induction rest generalizing first with
    | nil => simp
    | cons next rest ih =>
      have picked : choice.heavierChild first next = first ∨ choice.heavierChild first next = next := by
        simp only [ForkChoice.heavierChild]
        split
        · exact .inl rfl
        · split
          · exact .inl rfl
          · exact .inr rfl
      have inside := ih (choice.heavierChild first next) (by simp)
      rw [foldl_cons]
      obtain here | there := mem_cons.mp inside
      · rw [here]
        obtain same | same := picked <;> simp [same]
      · simp [there]

/-- The tracked slots above `current` bound the rounds that are left. -/
def slotsAbove (choice : ForkChoice) (current : Nat) : List Nat :=
  (choice.forks.entries.map Prod.fst).filter (current < ·)

theorem slotsAbove_child (tree : choice.Tree) (up : choice.parentOf child = some current) :
    (slotsAbove choice child).length < (slotsAbove choice current).length := by
  have higher := tree up
  have sublist : (slotsAbove choice child).Sublist (slotsAbove choice current) := by
    have narrowed : slotsAbove choice child = (slotsAbove choice current).filter (child < ·) := by
      rw [slotsAbove, slotsAbove, filter_filter]
      apply filter_congr
      intro slot _
      by_cases above : child < slot
      · simp [above, lt_trans higher above]
      · simp [above]
    rw [narrowed]
    exact filter_sublist
  have tracked : child ∈ slotsAbove choice current := by
    simpa [slotsAbove, higher] using ForkChoice.parentOf_inside up
  have absent : child ∉ slotsAbove choice child := by simp [slotsAbove]
  apply lt_of_le_of_ne sublist.length_le
  intro same
  rw [sublist.eq_of_length same] at absent
  exact absent tracked

theorem descend_returns (tree : choice.Tree) (enough : (slotsAbove choice current).length < fuel) :
    ∃ best, choice.descend fuel current = some (some best) := by
  induction fuel generalizing current with
  | zero => simp at enough
  | succ fuel ih =>
    simp only [ForkChoice.descend]
    by_cases leaf : choice.validChildren current = []
    · exact ⟨current, by simp [leaf]⟩
    · obtain ⟨best, member, picked⟩ := @bestChild_mem choice _ leaf
      have closer := slotsAbove_child tree (mem_validChildren member)
      rw [if_neg leaf, picked]
      exact ih (by omega)

theorem computeBestFork_returns (tree : choice.Tree) (root : Nat) :
    ∃ best, choice.computeBestFork root = some (some best, { choice with bestSlot := some best }) := by
  have enough : (slotsAbove choice root).length < choice.forks.size + 1 := by
    have kept := length_filter_le (root < ·) (choice.forks.entries.map Prod.fst)
    rw [length_map] at kept
    simp only [slotsAbove, Table.size]
    omega
  obtain ⟨best, descended⟩ := descend_returns tree enough
  exact ⟨best, by simp [ForkChoice.computeBestFork, descended]⟩

end Descent

/-- The inputs of one decision: the fork tree at that moment, the slot just
replayed and the ancestry of banks. -/
structure Call where
  choice : ForkChoice
  tree : choice.Tree
  replayedSlot : Nat
  isAncestor : Nat → Nat → Bool

namespace Call

def sameFork (call : Call) (left right : Nat) : Bool :=
  call.isAncestor left right || call.isAncestor right left

def decide (call : Call) (tower : Tower) : Option (ConsensusDecision × Tower × ForkChoice) :=
  runConsensusDecision tower call.choice call.replayedSlot call.isAncestor

def best (call : Call) (tower : Tower) : Option Nat :=
  (call.choice.computeBestFork (tower.root.getD 0)).map fun found => found.1.getD call.replayedSlot

end Call

/-- A vote for `slot` that takes `tower` to `after` breaks no rule of the tower. -/
structure SafeVote (tower after : Tower) (sameFork : Nat → Nat → Bool) (slot : Nat) : Prop where
  newer : ∀ last ∈ tower.lastVoteSlot, last < slot
  aboveRoot : ∀ root ∈ tower.root, root < slot
  unlocked : ∀ vote ∈ tower.votes, slot < vote.expirationSlot → sameFork vote.slot slot = true
  voted : after.lastVoteSlot = some slot

def SafeDecision (tower : Tower) (call : Call) : Prop :=
  ∃ decision after choice, call.decide tower = some (decision, after, choice) ∧
    ∀ slot, decision.voteSlot = some slot → SafeVote tower after call.sameFork slot

/-- When the branch taken for the best fork votes, the best fork is newer than
the last vote and not locked out. -/
def Guarded (tower : Tower) (call : Call) : Prop :=
  ∀ best, call.best tower = some best →
    match tower.lastVoteSlot with
    | none => tower.isLockedOut best call.sameFork = false
    | some last =>
      if call.sameFork last best = true then
        tower.isLockedOut best call.sameFork = true ∨ last < best
      else
        call.choice.canSwitchFork last best = true →
          last < best ∧ tower.isLockedOut best call.sameFork = false

theorem isLockedOut_eq_false {tower : Tower} :
    tower.isLockedOut slot sameFork = false ↔ (∀ root ∈ tower.root, root < slot) ∧
        ∀ vote ∈ tower.votes, slot < vote.expirationSlot → sameFork vote.slot slot = true := by
  simp only [Tower.isLockedOut, Bool.or_eq_false_iff, any_eq_false, Bool.and_eq_true,
    Lockout.isLockedOutAt, decide_eq_true_eq, Bool.not_eq_true', not_and, Bool.not_eq_false]
  apply and_congr_left
  intro _
  cases tower.root with
  | none => simp
  | some root => simp

theorem pushVote_last {tower : Tower} (newer : ∀ last ∈ tower.lastVoteSlot, last < slot) :
    (tower.pushVote slot).2.lastVoteSlot = some slot := by
  have fresh : ¬ tower.lastVoteSlot.any (fun last => slot ≤ last) = true := by
    cases top : tower.lastVoteSlot with
    | none => simp
    | some last =>
      have below := newer last top
      simp [below]
  rw [Tower.pushVote, if_neg fresh]
  simp [Tower.lastVoteSlot, Lockout.new]

theorem safeVote_push_iff : SafeVote tower (tower.pushVote slot).2 sameFork slot ↔
      (∀ last ∈ tower.lastVoteSlot, last < slot) ∧ tower.isLockedOut slot sameFork = false := by
  rw [isLockedOut_eq_false]
  constructor
  · intro safe
    exact ⟨safe.newer, safe.aboveRoot, safe.unlocked⟩
  · rintro ⟨newer, aboveRoot, unlocked⟩
    exact ⟨newer, aboveRoot, unlocked, pushVote_last newer⟩

/-- What a call votes for when fork choice answers `best`. -/
def chosenVote (tower : Tower) (call : Call) (best : Nat) : Option Nat :=
  match tower.lastVoteSlot with
  | none => some best
  | some last =>
    if call.sameFork last best = true then
      if tower.isLockedOut best call.sameFork = true then none else some best
    else if call.choice.canSwitchFork last best = true then some best else none

theorem decideFork_voteSlot (tower : Tower) (call : Call) (last best : Nat) (bestSlot : Option Nat) :
    (decideFork tower { call.choice with bestSlot } call.isAncestor last best).voteSlot =
      if call.sameFork last best = true then
        if tower.isLockedOut best call.sameFork = true then none else some best
      else if call.choice.canSwitchFork last best = true then some best else none := by
  by_cases same : call.sameFork last best = true
  · have inner : (call.isAncestor last best || call.isAncestor best last) = true := same
    simp only [decideFork, if_pos inner]
    change (ite (tower.isLockedOut best call.sameFork = true) _ _ : ConsensusDecision).voteSlot = _
    split <;> rfl
  · have inner : ¬ (call.isAncestor last best || call.isAncestor best last) = true := same
    simp only [decideFork, if_neg inner]
    change (ite (call.choice.canSwitchFork last best = true) _ _ : ConsensusDecision).voteSlot = _
    split <;> rfl

/-- Every call returns, votes as `chosenVote` says and pushes exactly that vote. -/
theorem decide_returns (tower : Tower) (call : Call) : ∃ best decision choice, call.best tower = some best ∧
      decision.voteSlot = chosenVote tower call best ∧ call.decide tower = some
        (decision, decision.voteSlot.elim tower fun slot => (tower.pushVote slot).2, choice) := by
  obtain ⟨best, computed⟩ := computeBestFork_returns call.tree (tower.root.getD 0)
  have answered : call.best tower = some best := by simp [Call.best, computed]
  let choice : ForkChoice := { call.choice with bestSlot := some best }
  cases top : tower.lastVoteSlot with
  | none =>
    let decision : ConsensusDecision :=
      { resetSlot := best, voteSlot := some best, newRoot := (tower.pushVote best).1,
        reason := .emptyTower }
    refine ⟨best, decision, choice, answered, ?_, ?_⟩
    · simp [decision, chosenVote, top]
    · simp [decision, choice, Call.decide, runConsensusDecision, computed, top]
  | some last =>
    let decided := decideFork tower choice call.isAncestor last best
    have chosen : decided.voteSlot = chosenVote tower call best := by
      rw [chosenVote, top]
      exact decideFork_voteSlot tower call last best (some best)
    cases vote : decided.voteSlot with
    | none =>
      refine ⟨best, { decided with newRoot := none }, choice, answered, chosen, ?_⟩
      simp [Call.decide, runConsensusDecision, computed, top, decided, choice, vote]
    | some slot =>
      refine ⟨best, { decided with newRoot := (tower.pushVote slot).1 }, choice, answered, chosen, ?_⟩
      simp [Call.decide, runConsensusDecision, computed, top, decided, choice, vote]

theorem safeDecision_iff_guarded : SafeDecision tower call ↔ Guarded tower call := by
  obtain ⟨best, decision, choice, answered, votes, decided⟩ := decide_returns tower call
  have safe : SafeDecision tower call ↔ ∀ slot, chosenVote tower call best = some slot →
      (∀ last ∈ tower.lastVoteSlot, last < slot) ∧ tower.isLockedOut slot call.sameFork = false := by
    simp only [← safeVote_push_iff, ← votes, SafeDecision, decided, Option.some.injEq, Prod.mk.injEq]
    constructor
    · rintro ⟨_, _, _, ⟨rfl, rfl, rfl⟩, each⟩ slot voted
      have kept := each slot voted
      rwa [voted] at kept
    · intro each
      refine ⟨decision, _, choice, ⟨rfl, rfl, rfl⟩, ?_⟩
      intro slot voted
      rw [voted]
      exact each slot voted
  rw [safe]
  simp only [Guarded, answered, Option.some.injEq, forall_eq', chosenVote]
  cases tower.lastVoteSlot with
  | none => simp
  | some last =>
    by_cases same : call.sameFork last best = true
    · cases locked : tower.isLockedOut best call.sameFork <;> simp [same, locked]
    · cases switch : call.choice.canSwitchFork last best <;> simp [same, switch]

def towerAfter (start : Tower) (calls : List Call) : Option Tower :=
  calls.foldlM (fun tower call => (call.decide tower).map fun outcome => outcome.2.1) start

/-- Over every run of decisions, all votes are safe exactly when every call is
guarded in the tower it finds. -/
theorem decisions_safe_iff_guarded (start : Tower) (calls : List Call) : (∀ earlier call, earlier ++ [call] <+: calls →
        ∃ tower, towerAfter start earlier = some tower ∧ SafeDecision tower call) ↔
      ∀ earlier call, earlier ++ [call] <+: calls →
        ∃ tower, towerAfter start earlier = some tower ∧ Guarded tower call := by
  simp only [safeDecision_iff_guarded]

/-! Slots 1 and 2 are forks of slot 0; the cluster votes for 2 after this
validator has voted for 1. -/

def firstFork : ForkChoice := ((ForkChoice.new 100).addFork 0 none).addFork 1 (some 0)

def secondFork : ForkChoice := (firstFork.addFork 2 (some 0)).recordValidatorVote 7 2 10

theorem firstFork_sound : firstFork.Sound := by
  have rooted : ((ForkChoice.new 100).addFork 0 none).Sound :=
    (ForkOp.sound_new 100).addFork rfl (by simp) (by intro validator vote found; cases found)
  exact rooted.addFork rfl (by simp) (by intro validator vote found; cases found)

theorem secondFork_sound : secondFork.Sound := by
  have grown : (firstFork.addFork 2 (some 0)).Sound :=
    firstFork_sound.addFork rfl (by simp) (by intro validator vote found; cases found)
  exact grown.recordValidatorVote (by decide)

def firstCall : Call where
  choice := firstFork
  tree := firstFork_sound.tree
  replayedSlot := 1
  isAncestor ancestor slot := ancestor == 0 && slot != 0

def secondCall : Call where
  choice := secondFork
  tree := secondFork_sound.tree
  replayedSlot := 2
  isAncestor ancestor slot := ancestor == 0 && slot != 0

/-- The second call switches to slot 2 although the vote for slot 1, on the
other fork, is locked until slot 3. -/
theorem switch_votes_inside_lockout : towerAfter Tower.new [firstCall] =
        some { votes := [Lockout.new 1], root := none, maxSize := maxLockoutHistory } ∧
      ¬ SafeDecision { votes := [Lockout.new 1], root := none, maxSize := maxLockoutHistory } secondCall := by
  refine ⟨by rfl, ?_⟩
  rw [safeDecision_iff_guarded]
  intro guarded
  have kept := guarded 2 (by rfl)
  exact absurd (kept (by decide)).2 (by decide)

end Karstflow.Voting
