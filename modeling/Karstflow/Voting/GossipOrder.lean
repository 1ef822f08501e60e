import Karstflow.Consensus.VoteProcessor
import Karstflow.Consensus.GhostWeights
import Mathlib.Data.List.Dedup

namespace Karstflow.Voting

open Data Consensus List Table

/-! # Gossip votes in any order

Gossip votes go to fork choice without a check of their order, so the record of
a validator is the vote that arrived last. The reference is the delivery of one
vote per validator, the highest.
-/

structure ForkTree where
  choice : ForkChoice
  tree : choice.Tree
  voteless : ∀ validator, choice.validatorLatestVotes.get validator = none
  weightless : ∀ slot fork, choice.forks.get slot = some fork → fork.stakeWeight = 0

structure GossipState where
  processor : VoteProcessor
  choice : Option ForkChoice
  tracker : CommitmentTracker

def deliver (state : GossipState) (vote : Pubkey × Nat) : GossipState :=
  let (processor, choice, tracker, _) :=
    state.processor.processGossipVote vote.1 vote.2 state.choice state.tracker
  { processor, choice, tracker }

def gossip (processor : VoteProcessor) (choice : ForkChoice) (tracker : CommitmentTracker)
    (votes : List (Pubkey × Nat)) : GossipState :=
  votes.foldl deliver { processor, choice := some choice, tracker }

def gossipStep (stakes : StakeTracker) (choice : ForkChoice) (vote : Pubkey × Nat) : ForkChoice :=
  if stakes.totalStakeForVoter vote.1 = 0 then choice
  else choice.recordValidatorVote vote.1 vote.2 (stakes.totalStakeForVoter vote.1)

theorem deliver_choice (vote : Pubkey × Nat) (given : state.choice = some choice) :
    (deliver state vote).processor.stakeTracker = state.processor.stakeTracker ∧
      (deliver state vote).choice = some (gossipStep state.processor.stakeTracker choice vote) := by
  by_cases unstaked : state.processor.stakeTracker.totalStakeForVoter vote.1 = 0
  · simp [deliver, VoteProcessor.processGossipVote, VoteProcessor.getVoteStake, gossipStep, unstaked, given]
  · simp [deliver, VoteProcessor.processGossipVote, VoteProcessor.getVoteStake, gossipStep, unstaked, given]

theorem foldl_deliver_choice (votes : List (Pubkey × Nat))
    (given : state.choice = some choice) : (votes.foldl deliver state).choice =
      some (votes.foldl (gossipStep state.processor.stakeTracker) choice) := by
  induction votes generalizing state choice with
  | nil => exact given
  | cons vote rest ih =>
    obtain ⟨stakes, recorded⟩ := deliver_choice vote given
    rw [foldl_cons, foldl_cons, ih recorded, stakes]

theorem stakes_bounded (stakes : StakeTracker) (votes : Table Pubkey (Nat × Nat)) :
    votes.total (fun voter _ => stakes.totalStakeForVoter voter) ≤ u64Max := by
  refine le_trans ?_ stakes.fits
  simp only [StakeTracker.totalStakeForVoter]
  induction stakes.delegations with
  | nil =>
    simp [total]
  | cons delegation rest ih =>
    have split : ∀ voter : Pubkey, (((delegation :: rest).filter fun held => held.1 = voter).map
        Prod.snd).sum = (if delegation.1 = voter then delegation.2 else 0) +
          ((rest.filter fun held => held.1 = voter).map Prod.snd).sum := by
      intro voter
      by_cases here : delegation.1 = voter <;> simp [here]
    have single : votes.total (fun voter _ => if delegation.1 = voter then delegation.2 else 0) ≤
        delegation.2 := by
      rw [total_eq_erase votes delegation.1]
      have others : (votes.erase delegation.1).total
          (fun voter _ => if delegation.1 = voter then delegation.2 else 0) =
          (votes.erase delegation.1).total fun _ _ => 0 := by
        apply total_congr
        intro voter vote found
        by_cases here : delegation.1 = voter
        · rw [← here, get_erase_self] at found
          cases found
        · rw [if_neg here]
      have nothing : (votes.erase delegation.1).total (fun _ _ => 0) = 0 := by simp [total]
      rw [others, nothing]
      cases votes.get delegation.1 <;> simp
    simp only [split, total_add, map_cons, sum_cons]
    omega

/-- The slots `validator` votes for, in the order of delivery. -/
def slotsOf (votes : List (Pubkey × Nat)) (validator : Pubkey) : List Nat :=
  (votes.filter fun vote => vote.1 = validator).map Prod.snd

def lastSlot (votes : List (Pubkey × Nat)) (validator : Pubkey) : Option Nat :=
  (slotsOf votes validator).getLast?

theorem mem_slotsOf : slot ∈ slotsOf votes validator ↔ (validator, slot) ∈ votes := by
  simp only [slotsOf, mem_map, mem_filter, decide_eq_true_eq]
  constructor
  · rintro ⟨⟨voter, voted⟩, ⟨member, rfl⟩, rfl⟩
    exact member
  · intro member
    exact ⟨(validator, slot), ⟨member, rfl⟩, rfl⟩

theorem lastSlot_concat :
    lastSlot (votes ++ [vote]) validator =
      if validator = vote.1 then some vote.2 else lastSlot votes validator := by
  by_cases same : vote.1 = validator
  · simp [lastSlot, slotsOf, same]
  · have other : ¬ validator = vote.1 := fun equal => same equal.symm
    simp [lastSlot, slotsOf, same, other]

structure Delivered (stakes : StakeTracker) (start : ForkTree) (done : List (Pubkey × Nat))
    (choice : ForkChoice) : Prop where
  sound : choice.Sound
  shape : ForkChoice.SameShape start.choice choice
  latest : ∀ validator, choice.validatorLatestVotes.get validator =
    if stakes.totalStakeForVoter validator = 0 then none
    else (lastSlot done validator).map fun slot => (slot, stakes.totalStakeForVoter validator)

theorem Delivered.nil : Delivered stakes start [] start.choice where
  sound := by
    refine ⟨start.tree, ?_⟩
    intro slot fork stored
    have empty : start.choice.supportFrom start.choice.validatorLatestVotes slot =
        start.choice.validatorLatestVotes.total fun _ _ => 0 := by
      apply total_congr
      intro validator vote found
      rw [start.voteless] at found
      cases found
    rw [empty, start.weightless slot fork stored]
    simp [total]
  shape := ⟨fun _ => rfl, fun _ => rfl⟩
  latest validator := by
    rw [start.voteless]
    simp [lastSlot, slotsOf]

theorem Delivered.step (delivered : Delivered stakes start done choice) (vote : Pubkey × Nat) :
    Delivered stakes start (done ++ [vote]) (gossipStep stakes choice vote) := by
  obtain ⟨sound, shape, latest⟩ := delivered
  by_cases unstaked : stakes.totalStakeForVoter vote.1 = 0
  · rw [gossipStep, if_pos unstaked]
    refine ⟨sound, shape, ?_⟩
    intro validator
    rw [latest, lastSlot_concat]
    by_cases same : validator = vote.1
    · simp [same, unstaked]
    · rw [if_neg same]
  · rw [gossipStep, if_neg unstaked]
    refine ⟨sound.recordValidatorVote ?_, shape.trans (ForkChoice.sameShape_recordValidatorVote sound.tree _ _ _), ?_⟩
    · -- every recorded stake is the voter's own
      refine le_trans (le_of_eq ?_) (stakes_bounded stakes
        (choice.validatorLatestVotes.insert vote.1 (vote.2, stakes.totalStakeForVoter vote.1)))
      apply total_congr
      intro validator recorded found
      rw [get_insert] at found
      by_cases same : validator = vote.1
      · rw [if_pos same] at found
        cases found
        rw [same]
      rw [if_neg same, latest] at found
      by_cases none : stakes.totalStakeForVoter validator = 0
      · rw [if_pos none] at found
        cases found
      · rw [if_neg none, Option.map_eq_some_iff] at found
        obtain ⟨slot, _, rfl⟩ := found
        rfl
    · intro validator
      rw [ForkChoice.votes_recordValidatorVote, lastSlot_concat]
      by_cases same : validator = vote.1
      · simp [same, unstaked]
      · rw [if_neg same, if_neg same, latest]

theorem delivered_all (stakes : StakeTracker) (start : ForkTree) (votes : List (Pubkey × Nat)) :
    Delivered stakes start votes (votes.foldl (gossipStep stakes) start.choice) := by
  induction votes using reverseRecOn with
  | nil => exact .nil
  | append_singleton done vote ih =>
    rw [foldl_append]
    exact ih.step vote

theorem Delivered.weights_eq (left : Delivered stakes start done first) (right : Delivered stakes start done' second)
    (same : ∀ validator, first.validatorLatestVotes.get validator =
      second.validatorLatestVotes.get validator) (slot : Nat) :
    (first.forks.get slot).map ForkInfo.stakeWeight = (second.forks.get slot).map ForkInfo.stakeWeight := by
  have tracked := (left.shape.tracked slot).trans (right.shape.tracked slot).symm
  have parents : ∀ other, first.parentOf other = second.parentOf other :=
    fun other => (left.shape.parents other).trans (right.shape.parents other).symm
  have support : first.supportFrom first.validatorLatestVotes slot =
      second.supportFrom second.validatorLatestVotes slot := by
    simp only [ForkChoice.supportFrom, ForkChoice.lineage_congr right.sound.tree parents]
    exact total_ext same _
  cases stored : first.forks.get slot with
  | none =>
    cases stored' : second.forks.get slot with
    | none => rfl
    | some fork => simp [stored, stored'] at tracked
  | some fork =>
    cases stored' : second.forks.get slot with
    | none => simp [stored, stored'] at tracked
    | some fork' =>
      rw [Option.map_some, Option.map_some, left.sound.weighs slot fork stored,
        right.sound.weighs slot fork' stored', support]

def highestSlot (votes : List (Pubkey × Nat)) (validator : Pubkey) : Option Nat :=
  (slotsOf votes validator).max?

def keepHighest (votes : List (Pubkey × Nat)) : List (Pubkey × Nat) :=
  (votes.map Prod.fst).dedup.filterMap fun validator =>
    (highestSlot votes validator).map fun slot => (validator, slot)

/-- Two deliveries end with the same recorded votes and the same weights. -/
def SameEnd (first second : GossipState) : Prop :=
  ∃ left right, first.choice = some left ∧ second.choice = some right ∧
    (∀ validator, left.validatorLatestVotes.get validator = right.validatorLatestVotes.get validator) ∧
    ∀ slot, (left.forks.get slot).map ForkInfo.stakeWeight = (right.forks.get slot).map ForkInfo.stakeWeight

def OneSlotEach (stakes : StakeTracker) (votes : List (Pubkey × Nat)) : Prop :=
  ∀ validator, 0 < stakes.totalStakeForVoter validator →
    ∀ first second, (validator, first) ∈ votes → (validator, second) ∈ votes → first = second

theorem highestSlot_eq_some : highestSlot votes validator = some slot ↔
      (validator, slot) ∈ votes ∧ ∀ other, (validator, other) ∈ votes → other ≤ slot := by
  simp only [highestSlot, max?_eq_some_iff, mem_slotsOf]

theorem lastSlot_mem (last : lastSlot votes validator = some slot) : (validator, slot) ∈ votes :=
  mem_slotsOf.mp (mem_of_getLast? last)

theorem lastSlot_eq_none : lastSlot votes validator = none ↔ ∀ slot, (validator, slot) ∉ votes := by
  simp only [lastSlot, getLast?_eq_none_iff, eq_nil_iff_forall_not_mem, mem_slotsOf]

theorem highestSlot_eq_none : highestSlot votes validator = none ↔ ∀ slot, (validator, slot) ∉ votes := by
  simp only [highestSlot, max?_eq_none_iff, eq_nil_iff_forall_not_mem, mem_slotsOf]

theorem mem_keepHighest : (validator, slot) ∈ keepHighest votes ↔ highestSlot votes validator = some slot := by
  simp only [keepHighest, mem_filterMap, mem_dedup, mem_map, Option.map_eq_some_iff, Prod.mk.injEq]
  constructor
  · rintro ⟨_, _, _, highest, rfl, rfl⟩
    exact highest
  · intro highest
    exact ⟨validator, ⟨_, (highestSlot_eq_some.mp highest).1, rfl⟩, slot, highest, rfl, rfl⟩

theorem lastSlot_keepHighest : lastSlot (keepHighest votes) validator = highestSlot votes validator := by
  cases last : lastSlot (keepHighest votes) validator with
  | some slot => exact (mem_keepHighest.mp (lastSlot_mem last)).symm
  | none =>
    cases highest : highestSlot votes validator with
    | none => rfl
    | some slot => exact absurd (mem_keepHighest.mpr highest) (lastSlot_eq_none.mp last slot)

theorem lastSlot_eq_highest (permuted : order.Perm votes)
    (one : ∀ first second, (validator, first) ∈ votes → (validator, second) ∈ votes → first = second) :
    lastSlot order validator = highestSlot votes validator := by
  symm
  cases last : lastSlot order validator with
  | none =>
    rw [highestSlot_eq_none]
    intro slot member
    exact lastSlot_eq_none.mp last slot (permuted.mem_iff.mpr member)
  | some slot =>
    have member := permuted.mem_iff.mp (lastSlot_mem last)
    rw [highestSlot_eq_some]
    exact ⟨member, fun other voted => le_of_eq (one other slot voted member)⟩

/-- Every order ends with the highest vote of each validator exactly when no
staked validator votes for two slots. -/
theorem gossip_keeps_highest_iff (processor : VoteProcessor) (tracker : CommitmentTracker)
    (start : ForkTree) (votes : List (Pubkey × Nat)) : (∀ order : List (Pubkey × Nat), order.Perm votes →
        SameEnd (gossip processor start.choice tracker order)
          (gossip processor start.choice tracker (keepHighest votes))) ↔ OneSlotEach processor.stakeTracker votes := by
  have ends : ∀ order : List (Pubkey × Nat), (gossip processor start.choice tracker order).choice =
      some (order.foldl (gossipStep processor.stakeTracker) start.choice) :=
    fun order => foldl_deliver_choice order rfl
  have after := delivered_all processor.stakeTracker start
  constructor
  · intro same validator staked first second firstVote secondVote
    -- deliver any of the votes last: it must be the highest one
    have last : ∀ slot, (validator, slot) ∈ votes → highestSlot votes validator = some slot := by
      intro slot member
      have order := (perm_append_singleton _ _).trans (perm_cons_erase member).symm
      obtain ⟨left, right, leftEnd, rightEnd, records, _⟩ := same _ order
      rw [ends] at leftEnd rightEnd
      cases leftEnd
      cases rightEnd
      have record := records validator
      rw [(after _).latest, (after _).latest, if_neg (ne_of_gt staked), if_neg (ne_of_gt staked),
        lastSlot_concat, if_pos rfl, lastSlot_keepHighest] at record
      cases highest : highestSlot votes validator with
      | none => simp [highest] at record
      | some top => simpa [highest, eq_comm] using record
    have equal := (last first firstVote).symm.trans (last second secondVote)
    exact Option.some.inj equal
  · intro one order permuted
    have records : ∀ validator,
        (order.foldl (gossipStep processor.stakeTracker) start.choice).validatorLatestVotes.get validator =
          ((keepHighest votes).foldl (gossipStep processor.stakeTracker)
            start.choice).validatorLatestVotes.get validator := by
      intro validator
      rw [(after _).latest, (after _).latest]
      by_cases unstaked : processor.stakeTracker.totalStakeForVoter validator = 0
      · rw [if_pos unstaked, if_pos unstaked]
      · rw [if_neg unstaked, if_neg unstaked, lastSlot_keepHighest,
          lastSlot_eq_highest permuted (one validator (pos_of_ne_zero unstaked))]
    exact ⟨_, _, ends order, ends (keepHighest votes), records,
      (after order).weights_eq (after (keepHighest votes)) records⟩

def twoSlots : ForkChoice := ((ForkChoice.new 10).addFork 1 none).addFork 2 (some 1)

theorem twoSlots_sound : twoSlots.Sound := by
  have rooted : ((ForkChoice.new 10).addFork 1 none).Sound :=
    (ForkOp.sound_new 10).addFork rfl (by simp) (by intro validator vote found; cases found)
  exact rooted.addFork rfl (by simp) (by intro validator vote found; cases found)

def twoSlotTree : ForkTree where
  choice := twoSlots
  tree := twoSlots_sound.tree
  voteless _ := rfl
  weightless slot fork stored := twoSlots_sound.weighs slot fork stored

def soleStaker : StakeTracker where
  delegations := [(7, 10)]
  fits := by decide

/-- The votes for 1 and 2 arrive in reverse: the validator's record and weight
fall back from slot 2 to slot 1. -/
theorem late_vote_overrides_highest : [((7 : Pubkey), 2), (7, 1)].Perm [(7, 1), (7, 2)] ∧
      ¬ SameEnd (gossip (VoteProcessor.new soleStaker) twoSlotTree.choice CommitmentTracker.new
          [(7, 2), (7, 1)]) (gossip (VoteProcessor.new soleStaker) twoSlotTree.choice CommitmentTracker.new
          (keepHighest [(7, 1), (7, 2)])) := by
  refine ⟨by decide, ?_⟩
  rintro ⟨left, right, leftEnd, rightEnd, records, _⟩
  cases (foldl_deliver_choice _ rfl).symm.trans leftEnd
  cases (foldl_deliver_choice _ rfl).symm.trans rightEnd
  exact absurd (records 7) (by decide)

end Karstflow.Voting
