import Karstflow.Consensus.ForkChoice
import Karstflow.Data.Steps

namespace Karstflow.Consensus

open Data Table

/-! # Exactness of the incremental weights

Fork choice keeps the weight of every subtree by walking ancestors whenever a
vote moves. `Weighs` states what the weights should be for a given table of
votes; each operation is shown to keep it, and `add_fork` to keep it exactly
when no recorded stake already lies below the new slot.
-/

namespace ForkChoice

variable {choice after : ForkChoice} {slot : Nat} {votes : Table Pubkey (Nat × Nat)}

/-- Parents come before their children. -/
def Tree (choice : ForkChoice) : Prop :=
  ∀ {slot parent : Nat}, choice.parentOf slot = some parent → parent < slot

theorem parentOf_inside (found : choice.parentOf slot = some parent) : slot ∈ choice.forks.entries.map Prod.fst := by
  simp only [parentOf, Option.bind_eq_some_iff] at found
  obtain ⟨fork, stored, _⟩ := found
  exact List.mem_map.mpr ⟨(slot, fork), get_eq_some_iff_mem.mp stored, rfl⟩

section

variable (tree : choice.Tree)

include tree

theorem lineage_eq (slot : Nat) :
    choice.lineage slot = slot :: ((choice.parentOf slot).map choice.lineage).getD [] := by
  have unfolded := @walk_some _ choice.parentOf id (choice.forks.entries.map Prod.fst)
    tree parentOf_inside slot
  rw [List.length_map] at unfolded
  rw [lineage, size, unfolded]
  cases choice.parentOf slot with
  | none => simp
  | some parent => rfl

theorem mem_lineage_iff : ancestor ∈ choice.lineage slot ↔
      ancestor = slot ∨ ∃ parent, choice.parentOf slot = some parent ∧ ancestor ∈ choice.lineage parent := by
  rw [lineage_eq tree slot, List.mem_cons]
  cases choice.parentOf slot with
  | none => simp
  | some parent => simp

theorem lineage_nodup (slot : Nat) : (choice.lineage slot).Nodup :=
  @walk_nodup _ choice.parentOf id tree _ _

theorem lineage_le (member : ancestor ∈ choice.lineage slot) : ancestor ≤ slot :=
  (@walk_ranked _ choice.parentOf id tree _ _).2 slot rfl ancestor member

theorem lineage_trans (first : middle ∈ choice.lineage slot)
    (second : ancestor ∈ choice.lineage middle) : ancestor ∈ choice.lineage slot := by
  induction slot using Nat.strong_induction_on with
  | _ slot ih =>
    obtain rfl | ⟨parent, up, above⟩ := (mem_lineage_iff tree).mp first
    · exact second
    · exact (mem_lineage_iff tree).mpr (.inr ⟨parent, up, ih parent (tree up) above⟩)

theorem lineage_congr (same : ∀ slot, after.parentOf slot = choice.parentOf slot)
    (slot : Nat) : after.lineage slot = choice.lineage slot := by
  have treeAfter : after.Tree := fun up => tree (same _ ▸ up)
  induction slot using Nat.strong_induction_on with
  | _ slot ih =>
    rw [lineage_eq treeAfter, lineage_eq tree, same]
    cases up : choice.parentOf slot with
    | none => rfl
    | some parent => simp [ih parent (tree up)]

end

theorem isDescendant_iff : choice.isDescendant slot ancestor = true ↔ ancestor ∈ choice.lineage slot := by
  have own : slot ∈ choice.lineage slot := List.mem_cons_self
  simp only [isDescendant, Bool.or_eq_true, decide_eq_true_eq, List.contains_iff_mem]
  constructor
  · rintro (rfl | member)
    · exact own
    · exact member
  · exact .inr

theorem lineage_untracked (tree : choice.Tree) (untracked : choice.forks.get slot = none) :
    choice.lineage slot = [slot] := by
  rw [lineage_eq tree, parentOf, untracked]
  rfl

theorem tracked_of_reaches (tree : choice.Tree)
    (tracked : choice.forks.get ancestor = some fork) (member : ancestor ∈ choice.lineage slot) :
    ∃ info, choice.forks.get slot = some info := by
  cases stored : choice.forks.get slot with
  | some info => exact ⟨info, rfl⟩
  | none =>
    rw [lineage_untracked tree stored, List.mem_singleton] at member
    rw [member, stored] at tracked
    cases tracked

/-- What the votes in `votes` give to `slot`. -/
def supportFrom (choice : ForkChoice) (votes : Table Pubkey (Nat × Nat)) (slot : Nat) : Nat :=
  votes.total fun _ vote => if slot ∈ choice.lineage vote.1 then vote.2 else 0

/-- Every tracked weight is what `votes` give to its slot. -/
def Weighs (choice : ForkChoice) (votes : Table Pubkey (Nat × Nat)) : Prop :=
  ∀ slot fork, choice.forks.get slot = some fork → fork.stakeWeight = choice.supportFrom votes slot

theorem Weighs.congr (weighs : choice.Weighs votes)
    (tree : choice.Tree) (parents : ∀ slot, after.parentOf slot = choice.parentOf slot)
    (weights : ∀ slot, (after.forks.get slot).map ForkInfo.stakeWeight =
      (choice.forks.get slot).map ForkInfo.stakeWeight) : after.Weighs votes := by
  intro slot fork stored
  have weight := weights slot
  rw [stored, Option.map_some] at weight
  cases before : choice.forks.get slot with
  | none => simp [before] at weight
  | some old =>
    rw [before, Option.map_some, Option.some.injEq] at weight
    rw [weight, weighs slot old before]
    simp only [supportFrom, lineage_congr tree parents]

theorem get_reweigh (tree : choice.Tree) (slot : Nat) (change : Nat → Nat) (other : Nat) :
    (choice.reweighAncestry slot change).forks.get other =
      if other ∈ choice.lineage slot then
        (choice.forks.get other).map fun fork => { fork with stakeWeight := change fork.stakeWeight }
      else choice.forks.get other :=
  get_foldl_modify (lineage_nodup tree slot) _ _ _

theorem parentOf_reweigh (tree : choice.Tree) (slot : Nat) (change : Nat → Nat) (other : Nat) :
    (choice.reweighAncestry slot change).parentOf other = choice.parentOf other := by
  rw [parentOf, parentOf, get_reweigh tree]
  cases choice.forks.get other with
  | none => simp
  | some fork => split <;> rfl

theorem Tree.reweigh (tree : choice.Tree) (slot : Nat) (change : Nat → Nat) :
    (choice.reweighAncestry slot change).Tree := by
  intro child parent up
  rw [parentOf_reweigh tree] at up
  exact tree up

/-- A walk that changes each weight as the votes change keeps the weights exact. -/
theorem Weighs.reweigh (weighs : choice.Weighs votes) (tree : choice.Tree) (on : ∀ other, other ∈ choice.lineage slot →
      change (choice.supportFrom votes other) = choice.supportFrom moved other)
    (off : ∀ other, other ∉ choice.lineage slot → choice.supportFrom votes other = choice.supportFrom moved other) :
    (choice.reweighAncestry slot change).Weighs moved := by
  intro other fork stored
  have support : (choice.reweighAncestry slot change).supportFrom moved other =
      choice.supportFrom moved other := by
    simp only [supportFrom, lineage_congr tree (parentOf_reweigh tree slot change)]
  rw [support]
  rw [get_reweigh tree] at stored
  by_cases member : other ∈ choice.lineage slot
  · rw [if_pos member, Option.map_eq_some_iff] at stored
    obtain ⟨old, before, rfl⟩ := stored
    rw [← on other member, weighs other old before]
  · rw [if_neg member] at stored
    rw [← off other member, weighs other fork stored]

theorem supportFrom_insert :
    choice.supportFrom (votes.insert validator (slot, stake)) other =
      (if other ∈ choice.lineage slot then stake else 0) + choice.supportFrom (votes.erase validator) other :=
  total_insert votes validator (slot, stake) _

theorem supportFrom_erase (found : votes.get validator = some (slot, stake)) (other : Nat) :
    choice.supportFrom votes other = (if other ∈ choice.lineage slot then stake else 0) +
        choice.supportFrom (votes.erase validator) other := by
  rw [supportFrom, total_eq_erase votes validator, found]
  rfl

def recordedStake (votes : Table Pubkey (Nat × Nat)) : Nat := votes.total fun _ vote => vote.2

theorem supportFrom_le (votes : Table Pubkey (Nat × Nat)) (slot : Nat) :
    choice.supportFrom votes slot ≤ recordedStake votes := by
  apply total_mono
  intro _ vote
  split <;> omega

theorem Weighs.subtract (weighs : choice.Weighs votes) (tree : choice.Tree)
    (found : votes.get validator = some (slot, stake)) :
    (choice.subtractStakeFromAncestry slot stake).Weighs (votes.erase validator) := by
  apply weighs.reweigh tree
  · intro other member
    rw [supportFrom_erase found, if_pos member]
    omega
  · intro other outside
    rw [supportFrom_erase found, if_neg outside, zero_add]

theorem Weighs.add (weighs : choice.Weighs (votes.erase validator)) (tree : choice.Tree)
    (bounded : recordedStake (votes.insert validator (slot, stake)) ≤ u64Max) :
    (choice.addStakeToAncestry slot stake).Weighs (votes.insert validator (slot, stake)) := by
  apply weighs.reweigh tree
  · intro other member
    have fits := @supportFrom_le choice (votes.insert validator (slot, stake)) other
    rw [supportFrom_insert, if_pos member] at fits ⊢
    rw [satAdd_eq_add (by omega)]
    omega
  · intro other outside
    rw [supportFrom_insert, if_neg outside, zero_add]

theorem parentOf_updateConfirmation (choice : ForkChoice) (slot other : Nat) :
    (choice.updateConfirmation slot).parentOf other = choice.parentOf other := by
  simp only [parentOf, updateConfirmation, get_modify]
  by_cases same : other = slot
  · subst same
    cases choice.forks.get other <;> simp
  · rw [if_neg same]

theorem weight_updateConfirmation (choice : ForkChoice) (slot other : Nat) :
    ((choice.updateConfirmation slot).forks.get other).map ForkInfo.stakeWeight =
      (choice.forks.get other).map ForkInfo.stakeWeight := by
  simp only [updateConfirmation, get_modify]
  by_cases same : other = slot
  · subst same
    cases choice.forks.get other <;> simp
  · rw [if_neg same]

/-- What holds between operations. -/
structure Sound (choice : ForkChoice) : Prop where
  tree : choice.Tree
  weighs : choice.Weighs choice.validatorLatestVotes

theorem placeVote_sound (tree : choice.Tree) (stored : choice.validatorLatestVotes = votes)
    (weighs : choice.Weighs (votes.erase validator))
    (bounded : recordedStake (votes.insert validator (slot, stake)) ≤ u64Max) :
    (choice.placeVote validator slot stake).Sound := by
  have parents : ∀ other, (choice.placeVote validator slot stake).parentOf other =
      (choice.addStakeToAncestry slot stake).parentOf other :=
    fun other => parentOf_updateConfirmation _ _ _
  have added : (choice.addStakeToAncestry slot stake).Tree := tree.reweigh _ _
  refine ⟨fun up => added (parents _ ▸ up), ?_⟩
  have votesAfter : (choice.placeVote validator slot stake).validatorLatestVotes =
      votes.insert validator (slot, stake) := by
    rw [← stored]
    rfl
  rw [votesAfter]
  exact (weighs.add tree bounded).congr added parents fun other => weight_updateConfirmation _ _ _

theorem Sound.recordValidatorVote (sound : choice.Sound)
    (bounded : recordedStake (choice.validatorLatestVotes.insert validator (slot, stake)) ≤ u64Max) :
    (choice.recordValidatorVote validator slot stake).Sound := by
  obtain ⟨tree, weighs⟩ := sound
  cases found : choice.validatorLatestVotes.get validator with
  | none =>
    simp only [ForkChoice.recordValidatorVote, found]
    refine placeVote_sound tree rfl ?_ bounded
    intro other fork stored
    rw [weighs other fork stored, supportFrom, total_eq_erase _ validator, found]
    exact zero_add _
  | some vote =>
    obtain ⟨oldSlot, oldStake⟩ := vote
    have moved := placeVote_sound (tree.reweigh _ _) rfl (weighs.subtract tree found) bounded
    simp only [ForkChoice.recordValidatorVote, found]
    split
    · split
      · exact moved
      · exact ⟨tree, weighs⟩
    · exact moved

/-- Moving a vote changes weights, confirmations and the record of the voter. -/
structure SameShape (choice after : ForkChoice) : Prop where
  parents : ∀ slot, after.parentOf slot = choice.parentOf slot
  tracked : ∀ slot, (after.forks.get slot).isSome = (choice.forks.get slot).isSome

theorem SameShape.trans (first : SameShape choice after) (second : SameShape after last) :
    SameShape choice last where
  parents slot := (second.parents slot).trans (first.parents slot)
  tracked slot := (second.tracked slot).trans (first.tracked slot)

theorem sameShape_reweigh (tree : choice.Tree) (slot : Nat) (change : Nat → Nat) :
    SameShape choice (choice.reweighAncestry slot change) where
  parents := parentOf_reweigh tree slot change
  tracked other := by
    rw [get_reweigh tree]
    split <;> simp

theorem sameShape_placeVote (tree : choice.Tree) (validator : Pubkey) (slot stake : Nat) :
    SameShape choice (choice.placeVote validator slot stake) := by
  apply (sameShape_reweigh tree slot (satAdd · stake)).trans
  constructor
  · exact parentOf_updateConfirmation _ slot
  · intro other
    have weights := congrArg Option.isSome (weight_updateConfirmation
      ((choice.addStakeToAncestry slot stake).rememberVote validator slot stake) slot other)
    simp only [Option.isSome_map] at weights
    exact weights

theorem sameShape_recordValidatorVote (tree : choice.Tree) (validator : Pubkey) (slot stake : Nat) :
    SameShape choice (choice.recordValidatorVote validator slot stake) := by
  have moved : ∀ oldSlot oldStake, SameShape choice
      ((choice.subtractStakeFromAncestry oldSlot oldStake).placeVote validator slot stake) :=
    fun oldSlot oldStake => (sameShape_reweigh tree oldSlot (· - oldStake)).trans
      (sameShape_placeVote (tree.reweigh _ _) validator slot stake)
  unfold recordValidatorVote
  split
  · split
    · split
      · exact moved _ _
      · exact ⟨fun _ => rfl, fun _ => rfl⟩
    · exact moved _ _
  · exact sameShape_placeVote tree validator slot stake

theorem votes_recordValidatorVote : (choice.recordValidatorVote validator slot stake).validatorLatestVotes.get other =
      if other = validator then some (slot, stake) else choice.validatorLatestVotes.get other := by
  have placed : ∀ before : ForkChoice, (before.placeVote validator slot stake).validatorLatestVotes =
      before.validatorLatestVotes.insert validator (slot, stake) := fun _ => rfl
  have subtracted : ∀ oldSlot oldStake,
      (choice.subtractStakeFromAncestry oldSlot oldStake).validatorLatestVotes =
        choice.validatorLatestVotes := fun _ _ => rfl
  cases found : choice.validatorLatestVotes.get validator with
  | none => simp only [recordValidatorVote, found, placed, get_insert]
  | some vote =>
    obtain ⟨oldSlot, oldStake⟩ := vote
    simp only [recordValidatorVote, found]
    by_cases sameSlot : oldSlot = slot
    · by_cases sameStake : oldStake = stake
      · subst sameSlot sameStake
        by_cases same : other = validator
        · simp [same, found]
        · simp [same]
      · rw [if_pos sameSlot, if_pos sameStake, placed, subtracted, get_insert]
    · rw [if_neg sameSlot, placed, subtracted, get_insert]

theorem parentOf_addFork :
    (choice.addFork slot parent).parentOf other =
      if other = slot then parent else choice.parentOf other := by
  simp only [parentOf, addFork, get_insert]
  by_cases same : other = slot
  · simp [same, ForkInfo.new]
  · rw [if_neg same, if_neg same]

theorem Tree.addFork {parent : Option Nat} (tree : choice.Tree) (below : ∀ up ∈ parent, up < slot) :
    (choice.addFork slot parent).Tree := by
  intro child up found
  rw [parentOf_addFork] at found
  by_cases same : child = slot
  · rw [if_pos same] at found
    exact same ▸ below up found
  · rw [if_neg same] at found
    exact tree found

theorem mem_lineage_addFork {parent : Option Nat} (tree : choice.Tree)
    (fresh : choice.forks.get slot = none) (below : ∀ up ∈ parent, up < slot) :
    ancestor ∈ (choice.addFork slot parent).lineage child ↔ ancestor ∈ choice.lineage child ∨
        (slot ∈ choice.lineage child ∧ ∃ up ∈ parent, ancestor ∈ choice.lineage up) := by
  have grown : (choice.addFork slot parent).Tree := tree.addFork below
  induction child using Nat.strong_induction_on with
  | _ child ih =>
    rw [mem_lineage_iff grown, parentOf_addFork]
    by_cases same : child = slot
    · subst same
      rw [lineage_untracked tree fresh, if_pos rfl]
      simp only [List.mem_singleton, true_and]
      apply or_congr_right
      constructor
      · rintro ⟨up, found, member⟩
        obtain old | ⟨above, _⟩ := (ih up (below up found)).mp member
        · exact ⟨up, found, old⟩
        · exact absurd (lineage_le tree above) (not_le.mpr (below up found))
      · rintro ⟨up, found, member⟩
        exact ⟨up, found, (ih up (below up found)).mpr (.inl member)⟩
    · rw [if_neg same, mem_lineage_iff tree, mem_lineage_iff tree, or_assoc]
      apply or_congr_right
      constructor
      · rintro ⟨up, found, member⟩
        obtain old | ⟨above, beyond⟩ := (ih up (tree found)).mp member
        · exact .inl ⟨up, found, old⟩
        · exact .inr ⟨.inr ⟨up, found, above⟩, beyond⟩
      · rintro (⟨up, found, old⟩ | ⟨rfl | ⟨up, found, above⟩, beyond⟩)
        · exact ⟨up, found, (ih up (tree found)).mpr (.inl old)⟩
        · exact absurd rfl same
        · exact ⟨up, found, (ih up (tree found)).mpr (.inr ⟨above, beyond⟩)⟩

/-- No stake is recorded yet at `slot` or at a tracked slot below it. -/
def Unvoted (choice : ForkChoice) (slot : Nat) : Prop :=
  ∀ validator vote, choice.validatorLatestVotes.get validator = some vote →
    vote.1 = slot ∨ (choice.forks.contains vote.1 = true ∧ choice.isDescendant vote.1 slot = true) →
      vote.2 = 0

theorem Unvoted.stake_zero (tree : choice.Tree)
    (unvoted : choice.Unvoted slot) (found : choice.validatorLatestVotes.get validator = some vote)
    (member : slot ∈ choice.lineage vote.1) : vote.2 = 0 := by
  apply unvoted validator vote found
  cases stored : choice.forks.get vote.1 with
  | none =>
    rw [lineage_untracked tree stored, List.mem_singleton] at member
    exact .inl member.symm
  | some fork => exact .inr ⟨by simp [contains, stored], isDescendant_iff.mpr member⟩

theorem Sound.addFork {parent : Option Nat} (sound : choice.Sound)
    (fresh : choice.forks.get slot = none) (below : ∀ up ∈ parent, up < slot)
    (unvoted : choice.Unvoted slot) : (choice.addFork slot parent).Sound := by
  obtain ⟨tree, weighs⟩ := sound
  refine ⟨tree.addFork below, ?_⟩
  -- lineages that grow carry no stake
  have support : ∀ other, (choice.addFork slot parent).supportFrom choice.validatorLatestVotes other =
      choice.supportFrom choice.validatorLatestVotes other := by
    intro other
    apply total_congr
    intro validator vote found
    simp only [mem_lineage_addFork tree fresh below]
    by_cases reaches : slot ∈ choice.lineage vote.1
    · simp [unvoted.stake_zero tree found reaches]
    · simp [reaches]
  intro other fork stored
  change fork.stakeWeight =
    (choice.addFork slot parent).supportFrom choice.validatorLatestVotes other
  rw [support]
  by_cases same : other = slot
  · subst same
    simp only [addFork, get_insert_self, Option.some.injEq] at stored
    have nothing : choice.supportFrom choice.validatorLatestVotes other =
        choice.validatorLatestVotes.total fun _ _ => 0 := by
      apply total_congr
      intro validator vote found
      split
      · next reaches => exact unvoted.stake_zero tree found reaches
      · rfl
    rw [← stored, nothing]
    simp [total, ForkInfo.new]
  · rw [ForkChoice.addFork, get_insert_ne same] at stored
    exact weighs other fork stored

theorem addFork_inexact {parent : Option Nat} (sound : choice.Sound)
    (fresh : choice.forks.get slot = none) (below : ∀ up ∈ parent, up < slot)
    (weighs : (choice.addFork slot parent).Weighs choice.validatorLatestVotes) : choice.Unvoted slot := by
  intro validator vote found lies
  have weight := weighs slot (.new slot parent) (get_insert_self _ _ _)
  have reaches : slot ∈ (choice.addFork slot parent).lineage vote.1 := by
    rw [mem_lineage_addFork sound.tree fresh below]
    obtain here | ⟨_, descends⟩ := lies
    · exact .inl (here ▸ List.mem_cons_self)
    · exact .inl (isDescendant_iff.mp descends)
  have counted := le_total found
    fun _ vote => if slot ∈ (choice.addFork slot parent).lineage vote.1 then vote.2 else 0
  simp only [if_pos reaches] at counted
  change 0 = _ at weight
  rw [supportFrom] at weight
  omega

def keeps (choice : ForkChoice) (newRoot slot : Nat) : Bool :=
  (choice.forks.get slot).isSome && choice.isDescendant slot newRoot

theorem get_prune : (choice.pruneNonDescendants newRoot).forks.get slot =
      if choice.keeps newRoot slot then choice.forks.get slot else none := by
  have own : slot = newRoot → choice.isDescendant slot newRoot = true := by
    rintro rfl
    simp [isDescendant]
  rw [pruneNonDescendants, get_retain]
  cases stored : choice.forks.get slot with
  | none => simp
  | some fork =>
    by_cases descends : choice.isDescendant slot newRoot = true
    · have kept : choice.keeps newRoot slot = true := by simp [keeps, stored, descends]
      simp [Option.filter, descends, kept]
    · have other : slot ≠ newRoot := fun same => descends (own same)
      have dropped : ¬ choice.keeps newRoot slot = true := by simp [keeps, descends]
      simp [Option.filter, descends, other, dropped]

theorem Tree.prune (tree : choice.Tree) (newRoot : Nat) : (choice.pruneNonDescendants newRoot).Tree := by
  intro slot parent up
  rw [parentOf, get_prune] at up
  split at up
  · exact tree up
  · cases up

theorem mem_lineage_prune (tree : choice.Tree)
    (keptAncestor : choice.keeps newRoot ancestor = true) (kept : choice.keeps newRoot slot = true) :
    ancestor ∈ (choice.pruneNonDescendants newRoot).lineage slot ↔ ancestor ∈ choice.lineage slot := by
  have pruned : (choice.pruneNonDescendants newRoot).Tree := tree.prune newRoot
  simp only [keeps, Bool.and_eq_true, Option.isSome_iff_exists, isDescendant_iff] at keptAncestor
  obtain ⟨⟨ancestorFork, ancestorStored⟩, ancestorDescends⟩ := keptAncestor
  induction slot using Nat.strong_induction_on with
  | _ slot ih =>
    have sameParent : (choice.pruneNonDescendants newRoot).parentOf slot = choice.parentOf slot := by
      rw [parentOf, get_prune, if_pos kept]
      rfl
    rw [mem_lineage_iff pruned, mem_lineage_iff tree, sameParent]
    apply or_congr_right
    apply exists_congr
    intro parent
    apply and_congr_right
    intro up
    by_cases keptParent : choice.keeps newRoot parent = true
    · exact ih parent (tree up) keptParent
    -- a kept ancestor has only kept slots below it
    have gone : (choice.pruneNonDescendants newRoot).forks.get parent = none := by
      rw [get_prune, if_neg keptParent]
    rw [lineage_untracked pruned gone, List.mem_singleton]
    constructor
    · rintro rfl
      exact List.mem_cons_self
    · intro member
      refine absurd ?_ keptParent
      obtain ⟨info, stored⟩ := tracked_of_reaches tree ancestorStored member
      simp [keeps, stored, isDescendant_iff, lineage_trans tree member ancestorDescends]

theorem Sound.prune (sound : choice.Sound) (newRoot : Nat) : (choice.pruneNonDescendants newRoot).Sound := by
  obtain ⟨tree, weighs⟩ := sound
  refine ⟨tree.prune newRoot, ?_⟩
  intro slot fork stored
  rw [get_prune] at stored
  split at stored
  · rename_i kept
    rw [weighs slot fork stored]
    simp only [supportFrom]
    conv_rhs => rw [show (choice.pruneNonDescendants newRoot).validatorLatestVotes =
      choice.validatorLatestVotes.retain fun _ vote =>
        (choice.pruneNonDescendants newRoot).forks.contains vote.1 from rfl, total_retain]
    apply total_congr
    intro validator vote found
    have contained : (choice.pruneNonDescendants newRoot).forks.contains vote.1 =
        choice.keeps newRoot vote.1 := by
      rw [contains, get_prune]
      cases keptVote : choice.keeps newRoot vote.1 with
      | false => rfl
      | true => simpa [keeps] using (Bool.and_eq_true_iff.mp keptVote).1
    rw [contained]
    by_cases keptVote : choice.keeps newRoot vote.1 = true
    · simp only [keptVote, if_true, mem_lineage_prune tree kept keptVote]
    have off : slot ∉ choice.lineage vote.1 := by
      intro member
      refine keptVote ?_
      simp only [keeps, Bool.and_eq_true, isDescendant_iff] at kept
      obtain ⟨info, voteStored⟩ := tracked_of_reaches tree stored member
      simp [keeps, voteStored, isDescendant_iff, lineage_trans tree member kept.2]
    simp [keptVote, off]
  · cases stored

/-- Every tracked weight is the recorded stake of the validators whose recorded
slot is a tracked descendant. -/
def ExactWeights (choice : ForkChoice) : Prop :=
  ∀ slot fork, choice.forks.get slot = some fork →
    fork.stakeWeight = choice.validatorLatestVotes.total fun _ vote =>
      if choice.forks.contains vote.1 && choice.isDescendant vote.1 slot then vote.2 else 0

theorem exactWeights_iff (tree : choice.Tree) : choice.ExactWeights ↔ choice.Weighs choice.validatorLatestVotes := by
  have same : ∀ slot fork, choice.forks.get slot = some fork →
      (choice.validatorLatestVotes.total fun _ vote =>
        if choice.forks.contains vote.1 && choice.isDescendant vote.1 slot then vote.2 else 0) =
      choice.supportFrom choice.validatorLatestVotes slot := by
    intro slot fork stored
    apply total_congr
    intro validator vote _
    by_cases reaches : slot ∈ choice.lineage vote.1
    · obtain ⟨info, voteStored⟩ := tracked_of_reaches tree stored reaches
      simp [contains, voteStored, isDescendant_iff.mpr reaches, reaches]
    · have apart : ¬ choice.isDescendant vote.1 slot = true := fun descends =>
        reaches (isDescendant_iff.mp descends)
      simp [apart, reaches]
  constructor
  · intro exactly slot fork stored
    rw [exactly slot fork stored, same slot fork stored]
  · intro weighs slot fork stored
    rw [weighs slot fork stored, same slot fork stored]

end ForkChoice

inductive ForkOp where
  | addFork (slot : Nat) (parent : Option Nat)
  | recordValidatorVote (validator : Pubkey) (slot stake : Nat)
  | pruneNonDescendants (newRoot : Nat)
deriving Repr, DecidableEq

namespace ForkOp

def apply (choice : ForkChoice) : ForkOp → ForkChoice
  | addFork slot parent => choice.addFork slot parent
  | recordValidatorVote validator slot stake => choice.recordValidatorVote validator slot stake
  | pruneNonDescendants newRoot => choice.pruneNonDescendants newRoot

/-- Forks are added once, under a tracked lower parent or none, and the recorded
stakes stay within 64 bits. -/
def Admissible (choice : ForkChoice) : ForkOp → Prop
  | addFork slot parent =>
    choice.forks.get slot = none ∧
      ∀ up ∈ parent, choice.forks.contains up = true ∧ up < slot
  | recordValidatorVote validator slot stake =>
    ForkChoice.recordedStake (choice.validatorLatestVotes.insert validator (slot, stake)) ≤ u64Max
  | pruneNonDescendants _ => True

/-- A fork is added before any stake is recorded at it or below it. -/
def Timely (choice : ForkChoice) : ForkOp → Prop
  | addFork slot _ => choice.Unvoted slot
  | _ => True

def run (totalStake : Nat) (ops : List ForkOp) : ForkChoice :=
  ops.foldl apply (.new totalStake)

theorem run_concat : run totalStake (ops ++ [op]) = op.apply (run totalStake ops) := by
  simp [run]

theorem sound_apply {op : ForkOp} (sound : choice.Sound)
    (admissible : op.Admissible choice) (timely : op.Timely choice) : (op.apply choice).Sound := by
  cases op with
  | addFork slot parent =>
    exact sound.addFork admissible.1 (fun up found => (admissible.2 up found).2) timely
  | recordValidatorVote validator slot stake => exact sound.recordValidatorVote admissible
  | pruneNonDescendants newRoot => exact sound.prune newRoot

theorem timely_of_exact {op : ForkOp} (sound : choice.Sound)
    (admissible : op.Admissible choice) (exactly : (op.apply choice).ExactWeights) : op.Timely choice := by
  cases op with
  | addFork slot parent =>
    have below : ∀ up ∈ parent, up < slot := fun up found => (admissible.2 up found).2
    exact ForkChoice.addFork_inexact sound admissible.1 below
      ((ForkChoice.exactWeights_iff (ForkChoice.Tree.addFork sound.tree below)).mp exactly)
  | recordValidatorVote validator slot stake => trivial
  | pruneNonDescendants newRoot => trivial

theorem sound_new (totalStake : Nat) : (ForkChoice.new totalStake).Sound := by
  constructor
  · intro slot parent up
    cases up
  · intro slot fork stored
    cases stored

section Runs

variable {totalStake : Nat}

/-- Along a run the weights are exact after every operation exactly when every
fork is added before stake is recorded for it. -/
theorem weights_exact_iff_timely
    (admissible : ∀ earlier op, earlier ++ [op] <+: ops → op.Admissible (run totalStake earlier)) :
    (∀ taken, taken <+: ops → (run totalStake taken).ExactWeights) ↔
      ∀ earlier op, earlier ++ [op] <+: ops → op.Timely (run totalStake earlier) := by
  apply @good_iff_allowed _ ops fun taken => (run totalStake taken).Sound
  · exact sound_new totalStake
  · intro earlier op inside sound timely
    rw [run_concat]
    exact sound_apply sound (admissible earlier op inside) timely
  · intro taken _ sound
    exact (ForkChoice.exactWeights_iff sound.tree).mpr sound.weighs
  · intro earlier op inside sound exactly
    rw [run_concat] at exactly
    exact timely_of_exact sound (admissible earlier op inside) exactly

end Runs

/-- Two sibling forks, a vote for one of them and the pruning of the other. -/
theorem weights_exact_iff_timely_after_prune :
    (∀ earlier op, earlier ++ [op] <+: [addFork 1 none, addFork 2 (some 1), addFork 3 (some 1),
        recordValidatorVote 7 2 10, pruneNonDescendants 2] → op.Admissible (run 100 earlier)) ∧
      ((∀ taken, taken <+: [addFork 1 none, addFork 2 (some 1), addFork 3 (some 1),
          recordValidatorVote 7 2 10, pruneNonDescendants 2] → (run 100 taken).ExactWeights) ↔
        ∀ earlier op, earlier ++ [op] <+: [addFork 1 none, addFork 2 (some 1), addFork 3 (some 1),
          recordValidatorVote 7 2 10, pruneNonDescendants 2] → op.Timely (run 100 earlier)) := by
  have admissible : ∀ earlier op, earlier ++ [op] <+: [addFork 1 none, addFork 2 (some 1),
      addFork 3 (some 1), recordValidatorVote 7 2 10, pruneNonDescendants 2] →
      op.Admissible (run 100 earlier) := by
    simp only [forall_step_cons, forall_step_nil, Admissible]
    decide
  exact ⟨admissible, weights_exact_iff_timely admissible⟩

/-- A vote for slot 5 arrives before the fork does: the fork is added with
weight 0 although 100 of recorded stake votes for it. -/
theorem weight_lost_by_early_vote : (recordValidatorVote 7 5 100).Admissible (run 100 []) ∧
      (addFork 5 none).Admissible (run 100 [recordValidatorVote 7 5 100]) ∧
      ¬ (run 100 [recordValidatorVote 7 5 100, addFork 5 none]).ExactWeights := by
  refine ⟨by simp only [Admissible]; decide, ⟨by decide, by simp⟩, ?_⟩
  intro exactly
  have weight := exactly 5 (.new 5 none) (by decide)
  exact absurd weight (by decide)

end ForkOp

end Karstflow.Consensus
