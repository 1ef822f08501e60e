import Karstflow.Alpenglow.Votor
import Mathlib.Logic.Function.Basic

namespace Karstflow.Alpenglow

open Data List
open Bool hiding not_or

/-! # The voting rules

Every handler of Votor is a sequence of a few acts, each of which casts at most
one vote and changes the state of one slot. The rules say under which state of
the slot an act is possible.
-/

inductive VotorInput where
  | pool (event : VotorPoolEvent)
  | blockstore (event : VotorBlockstoreEvent)
  | timeout (event : VotorTimeout)
deriving Repr, DecidableEq

def VotorInput.apply (votor : Votor) : VotorInput → Except Panic (Votor × VotorOut)
  | pool event => votor.handlePoolEvent event .empty
  | blockstore event => votor.handleBlockstoreEvent event .empty
  | timeout event => votor.handleTimeoutEvent event .empty

def ConsensusMessage.vote? : ConsensusMessage → Option Vote
  | .vote cast => some cast
  | .cert _ => none

def VotorOut.votes (out : VotorOut) : List Vote := out.msgs.filterMap ConsensusMessage.vote?

@[simp] theorem VotorOut.votes_pushVote {out : VotorOut} : (out.pushVote vote).votes = out.votes ++ [vote] := by
  simp [votes, pushVote, ConsensusMessage.vote?]

/-- The states of the slots, without the table that stores them. -/
structure VotorView where
  first : Nat
  slots : Nat → VotorSlotState

namespace VotorView

def set (view : VotorView) (slot : Nat) (state : VotorSlotState) : VotorView :=
  { view with slots := Function.update view.slots slot state }

theorem slots_set (view : VotorView) :
    (view.set slot state).slots other = if other = slot then state else view.slots other :=
  Function.update_apply view.slots slot state other

@[simp] theorem slots_set_self (view : VotorView) : (view.set slot state).slots slot = state := by
  rw [slots_set, if_pos rfl]

def ValidParent (view : VotorView) (slot : Nat) (parent : BlockId) : Prop :=
  if slot = firstSlotInWindow slot then parent ∈ (view.slots slot).parentsReady
  else parent.slot = slot - 1 ∧ (view.slots parent.slot).votedNotar = some parent.hash

end VotorView

/-- One act of Votor while it handles `input`, with the votes it casts. -/
inductive Act (index : Nat) (input : VotorInput) (view : VotorView) : List Vote → VotorView → Prop
  | notar {slot : Nat} {block parent : BlockId} (low : view.first ≤ slot)
      (fresh : (view.slots slot).voted = false)
      (offered : (view.slots slot).pendingBlock = some (block, parent) ∨
        input = .blockstore (.block slot block parent))
      (valid : view.ValidParent slot parent) :
      Act index input view [.newNotar slot block.hash index]
        (view.set slot { view.slots slot with
          voted := true, votedNotar := some block.hash, pendingBlock := none })
  | final {slot : Nat} {hash : BlockHash} (low : view.first ≤ slot)
      (notarized : (view.slots slot).blockNotarized = some hash)
      (voted : (view.slots slot).votedNotar = some hash) (good : (view.slots slot).badWindow = false) :
      Act index input view [.newFinal slot index]
        (view.set slot { view.slots slot with retired := true })
  | skip {slot : Nat} (low : view.first ≤ slot) (fresh : (view.slots slot).voted = false) :
      Act index input view [.newSkip slot index]
        (view.set slot { view.slots slot with voted := true, badWindow := true })
  | notarFallback {block : BlockId} (asked : input = .pool (.safeToNotar block))
      (low : view.first ≤ block.slot) (active : (view.slots block.slot).retired = false) :
      Act index input view [.newNotarFallback block.slot block.hash index]
        (view.set block.slot { view.slots block.slot with badWindow := true })
  | skipFallback {slot : Nat} (asked : input = .pool (.safeToSkip slot))
      (low : view.first ≤ slot) (active : (view.slots slot).retired = false) :
      Act index input view [.newSkipFallback slot index]
        (view.set slot { view.slots slot with badWindow := true })
  | ready {slot : Nat} {parent : BlockId} (asked : input = .pool (.parentReady slot parent)) :
      Act index input view [] (view.set slot { view.slots slot with
        parentsReady := (view.slots slot).parentsReady ++ [parent] })
  | notarized {cert : NotarCert} (asked : input = .pool (.certCreated (.notar cert))) :
      Act index input view [] (view.set cert.slot { view.slots cert.slot with
        blockNotarized := some cert.blockHash })
  | pruned {first : Nat} (above : view.first ≤ first) :
      Act index input view []
        { first, slots := fun slot => if first ≤ slot then view.slots slot else .default }
  | received {slot : Nat} :
      Act index input view [] (view.set slot { view.slots slot with receivedShred := true })
  | pending {slot : Nat} {block parent : BlockId} (low : view.first ≤ slot)
      (fresh : (view.slots slot).voted = false)
      (asked : input = .blockstore (.block slot block parent)) :
      Act index input view [] (view.set slot { view.slots slot with pendingBlock := some (block, parent) })
  | repeated {slot : Nat} {bundle : List ConsensusMessage} {vote : Vote}
      (asked : input = .pool (.standstill slot bundle)) (member : .vote vote ∈ bundle) :
      Act index input view [vote] view

inductive Acts (index : Nat) (input : VotorInput) : VotorView → List Vote → VotorView → Prop
  | none (view : VotorView) : Acts index input view [] view
  | next {view middle after : VotorView} {votes later : List Vote}
      (act : Act index input view votes middle) (rest : Acts index input middle later after) :
      Acts index input view (votes ++ later) after

variable {input : VotorInput}

theorem Act.acts {after : VotorView} (act : Act index input view votes after) : Acts index input view votes after := by
  have single := Acts.next act (.none after)
  rw [append_nil] at single
  exact single

theorem Acts.trans {after : VotorView}
    (first : Acts index input view votes middle) (second : Acts index input middle later after) :
    Acts index input view (votes ++ later) after := by
  induction first with
  | none => exact second
  | next act _ ih =>
    rw [append_assoc]
    exact .next act (ih second)

namespace Votor

variable {hash : BlockHash}

def view (votor : Votor) : VotorView := ⟨votor.firstUnprunedSlot, votor.slotState⟩

@[simp] theorem slotState_setState (votor : Votor) (slot : Nat) (state : VotorSlotState) (other : Nat) :
    (votor.setState slot state).slotState other = if other = slot then state else votor.slotState other := by
  simp only [slotState, setState, Table.get_insert]
  split <;> rfl

@[simp] theorem view_setState (votor : Votor) : (votor.setState slot state).view = votor.view.set slot state := by
  simp only [view, VotorView.set, VotorView.mk.injEq]
  refine ⟨rfl, ?_⟩
  funext other
  rw [slotState_setState, Function.update_apply]

theorem validParent_iff {votor : Votor} :
    votor.validParent slot parent = true ↔ votor.view.ValidParent slot parent := by
  rw [validParent, VotorView.ValidParent]
  split <;> simp [view]

/-- A piece of a handler as acts: what it appends to the votes, and the view it leaves. -/
def Moves (input : VotorInput) (votor : Votor) (out : VotorOut) (after : Votor) (out' : VotorOut) : Prop :=
  after.validatorIndex = votor.validatorIndex ∧
    ∃ votes, Acts votor.validatorIndex input votor.view votes after.view ∧ out'.votes = out.votes ++ votes

variable {votor after : Votor} {slot : Nat}

theorem Moves.stay (votes : out'.votes = out.votes) : Moves input votor out votor out' :=
  ⟨rfl, [], .none _, by rw [votes, append_nil]⟩

theorem Moves.one (same : after.validatorIndex = votor.validatorIndex)
    (act : Act votor.validatorIndex input votor.view votes after.view)
    (cast : out'.votes = out.votes ++ votes) : Moves input votor out after out' :=
  ⟨same, votes, act.acts, cast⟩

theorem Moves.trans (first : Moves input votor out middle out₁) (second : Moves input middle out₁ after out') :
    Moves input votor out after out' := by
  obtain ⟨same, votes, acts, cast⟩ := first
  obtain ⟨same', later, acts', cast'⟩ := second
  rw [same] at acts'
  exact ⟨same'.trans same, votes ++ later, acts.trans acts', by rw [cast', cast, append_assoc]⟩

theorem tryFinal_moves (ran : votor.tryFinal slot hash out = .ok (after, out')) : Moves input votor out after out' := by
  obtain ⟨_, asserted, ran⟩ := bind_eq_ok.mp ran
  have low := of_decide_eq_true (assert_eq_ok.mp asserted)
  dsimp only at ran
  split at ran
  · rename_i holds
    have good : (votor.slotState slot).badWindow = false := by simpa using holds.2.2
    cases ran
    refine .one rfl ?_ (VotorOut.votes_pushVote)
    rw [view_setState]
    exact .final low holds.1 holds.2.1 good
  · cases ran
    exact .stay rfl

def withNotar (votor : Votor) (slot : Nat) (hash : BlockHash) : Votor :=
  votor.setState slot { votor.slotState slot with
    voted := true, votedNotar := some hash, pendingBlock := none }

theorem tryNotar_cases (ran : votor.tryNotar slot block parent out = .ok (after, out', done)) :
    votor.firstUnprunedSlot ≤ slot ∧ ((votor.validParent slot parent = true ∧ done = true ∧
        (votor.withNotar slot block.hash).tryFinal slot block.hash
          (out.pushVote (.newNotar slot block.hash votor.validatorIndex)) = .ok (after, out')) ∨
      (votor.validParent slot parent = false ∧ done = false ∧ after = votor ∧ out' = out)) := by
  obtain ⟨_, asserted, ran⟩ := bind_eq_ok.mp ran
  refine ⟨of_decide_eq_true (assert_eq_ok.mp asserted), ?_⟩
  split at ran
  · rename_i valid
    obtain ⟨⟨final, out₁⟩, finalized, done⟩ := bind_eq_ok.mp ran
    cases done
    exact .inl ⟨valid, rfl, finalized⟩
  · rename_i invalid
    cases ran
    exact .inr ⟨eq_false_iff.mpr invalid, rfl, rfl, rfl⟩

theorem tryNotar_moves (ran : votor.tryNotar slot block parent out = .ok (after, out', done))
    (fresh : votor.validParent slot parent = true → (votor.slotState slot).voted = false)
    (offered : (votor.slotState slot).pendingBlock = some (block, parent) ∨
      input = .blockstore (.block slot block parent)) : Moves input votor out after out' := by
  obtain ⟨low, ⟨valid, _, finalized⟩ | ⟨_, _, rfl, rfl⟩⟩ := tryNotar_cases ran
  · refine .trans ?_ (tryFinal_moves finalized)
    refine .one rfl ?_ (VotorOut.votes_pushVote)
    rw [withNotar, view_setState]
    exact .notar low (fresh valid) offered (validParent_iff.mp valid)
  · exact .stay rfl

theorem skipSlot_moves (low : votor.firstUnprunedSlot ≤ slot) :
    Moves input votor out (votor.skipSlot out slot).1 (votor.skipSlot out slot).2 := by
  rw [skipSlot]
  split
  · exact .stay rfl
  · rename_i fresh
    refine .one rfl ?_ (VotorOut.votes_pushVote)
    rw [view_setState]
    exact .skip low (eq_false_iff.mpr fresh)

def skipSlots (votor : Votor) (out : VotorOut) (slots : List Nat) : Votor × VotorOut :=
  slots.foldl (fun (votor, out) slot => votor.skipSlot out slot) (votor, out)

theorem skipSlots_moves {slots : List Nat} (low : ∀ slot ∈ slots, votor.firstUnprunedSlot ≤ slot) :
    Moves input votor out (votor.skipSlots out slots).1 (votor.skipSlots out slots).2 := by
  induction slots generalizing votor out with
  | nil => exact .stay rfl
  | cons slot rest ih =>
    have still : (votor.skipSlot out slot).1.firstUnprunedSlot = votor.firstUnprunedSlot := by
      rw [skipSlot]
      split <;> rfl
    refine (skipSlot_moves (low slot mem_cons_self)).trans (ih ?_)
    intro other member
    rw [still]
    exact low other (mem_cons_of_mem slot member)

theorem firstUnprunedSlot_le_window (low : votor.firstUnprunedSlot ≤ slot) :
    votor.firstUnprunedSlot ≤ firstSlotInWindow slot := by
  simp only [firstUnprunedSlot, firstSlotInWindow, slotsPerWindow] at low ⊢
  omega

theorem trySkipWindow_slots (ran : votor.trySkipWindow slot out = .ok (after, out')) :
    ∃ slots : List Nat, (∀ other ∈ slots, votor.firstUnprunedSlot ≤ other) ∧
      votor.skipSlots out slots = (after, out') := by
  obtain ⟨_, asserted, ran⟩ := bind_eq_ok.mp ran
  have low := of_decide_eq_true (assert_eq_ok.mp asserted)
  obtain ⟨last, _, done⟩ := bind_eq_ok.mp ran
  refine ⟨_, ?_, Except.ok.inj done⟩
  intro other member
  rw [mem_range'_1] at member
  exact le_trans (firstUnprunedSlot_le_window low) member.1

theorem trySkipWindow_moves (ran : votor.trySkipWindow slot out = .ok (after, out')) :
    Moves input votor out after out' := by
  obtain ⟨slots, low, result⟩ := trySkipWindow_slots ran
  have moves := @skipSlots_moves input votor out slots low
  rw [result] at moves
  exact moves

/-- The notar vote of a slot after the pending blocks were tried again. -/
def notarAfterRetry (votor : Votor) : Nat → Option BlockHash
  | 0 =>
    match (votor.slotState 0).pendingBlock with
    | some (block, parent) =>
      if parent ∈ (votor.slotState 0).parentsReady then some block.hash
      else (votor.slotState 0).votedNotar
    | none => (votor.slotState 0).votedNotar
  | slot + 1 =>
    match (votor.slotState (slot + 1)).pendingBlock with
    | some (block, parent) =>
      if (if slot + 1 = firstSlotInWindow (slot + 1) then
          parent ∈ (votor.slotState (slot + 1)).parentsReady
        else parent.slot = slot ∧ votor.notarAfterRetry slot = some parent.hash) then some block.hash
      else (votor.slotState (slot + 1)).votedNotar
    | none => (votor.slotState (slot + 1)).votedNotar

/-- The pending block of a slot has a valid parent when it is tried again. -/
def Retries (votor : Votor) (slot : Nat) (parent : BlockId) : Prop :=
  if slot = firstSlotInWindow slot then parent ∈ (votor.slotState slot).parentsReady
  else parent.slot = slot - 1 ∧ votor.notarAfterRetry (slot - 1) = some parent.hash

instance (votor : Votor) (slot : Nat) (parent : BlockId) : Decidable (votor.Retries slot parent) :=
  inferInstanceAs (Decidable (if slot = firstSlotInWindow slot then _ else _))

theorem notarAfterRetry_eq : votor.notarAfterRetry slot =
      match (votor.slotState slot).pendingBlock with
      | some (block, parent) =>
        if votor.Retries slot parent then some block.hash else (votor.slotState slot).votedNotar
      | none => (votor.slotState slot).votedNotar := by
  cases slot with
  | zero =>
    rw [notarAfterRetry]
    cases (votor.slotState 0).pendingBlock with
    | none => rfl
    | some pending =>
      have start : (0 : Nat) = firstSlotInWindow 0 := rfl
      simp only [Retries, if_pos start]
  | succ slot =>
    rfl

theorem mem_pendingBlocks : (slot, block, parent) ∈ votor.pendingBlocks ↔
      (votor.slotState slot).pendingBlock = some (block, parent) := by
  rw [pendingBlocks, mem_filterMap]
  constructor
  · rintro ⟨⟨key, state⟩, member, found⟩
    rw [Table.mem_ascending] at member
    simp only [Option.map_eq_some_iff] at found
    obtain ⟨pending, held, same⟩ := found
    cases same
    rw [slotState, member]
    exact held
  · intro held
    rw [slotState] at held
    cases found : votor.slots.get slot with
    | none =>
      rw [found] at held
      cases held
    | some state =>
      rw [found] at held
      refine ⟨(slot, state), Table.mem_ascending.mpr found, ?_⟩
      simp only [Option.getD_some] at held
      simp [held]

theorem pendingBlocks_pairwise (votor : Votor) : votor.pendingBlocks.Pairwise fun left right => left.1 < right.1 := by
  rw [pendingBlocks, pairwise_filterMap]
  refine votor.slots.ascending_pairwise.imp ?_
  intro left right below first held second held'
  simp only [Option.map_eq_some_iff] at held held'
  obtain ⟨_, _, rfl⟩ := held
  obtain ⟨_, _, rfl⟩ := held'
  exact below

theorem tryFinal_effect (ran : votor.tryFinal slot hash out = .ok (after, out')) :
    after.validatorIndex = votor.validatorIndex ∧ (∃ retired, ∀ other, after.slotState other =
        if other = slot then { votor.slotState slot with retired } else votor.slotState other) ∧
      ∀ vote ∈ out.votes, vote ∈ out'.votes := by
  obtain ⟨_, _, ran⟩ := bind_eq_ok.mp ran
  dsimp only at ran
  split at ran
  · cases ran
    refine ⟨rfl, ⟨true, fun other => slotState_setState _ _ _ _⟩, ?_⟩
    intro vote member
    simp [member]
  · cases ran
    refine ⟨rfl, ⟨(votor.slotState slot).retired, ?_⟩, fun _ member => member⟩
    intro other
    split
    · next same => rw [same]
    · rfl

theorem tryNotar_effect (ran : votor.tryNotar slot block parent out = .ok (after, out', done)) :
    after.validatorIndex = votor.validatorIndex ∧ (after.slotState slot).votedNotar =
        (if votor.validParent slot parent then some block.hash else (votor.slotState slot).votedNotar) ∧
      (∀ other, other ≠ slot → after.slotState other = votor.slotState other) ∧
      (∀ vote ∈ out.votes, vote ∈ out'.votes) ∧
      (votor.validParent slot parent = true → .newNotar slot block.hash votor.validatorIndex ∈ out'.votes) := by
  obtain ⟨_, ⟨valid, _, finalized⟩ | ⟨invalid, _, rfl, rfl⟩⟩ := tryNotar_cases ran
  · obtain ⟨index, ⟨retired, states⟩, kept⟩ := tryFinal_effect finalized
    refine ⟨index, ?_, ?_, ?_, ?_⟩
    · rw [states, if_pos rfl, withNotar, slotState_setState, if_pos rfl, if_pos valid]
    · intro other different
      rw [states, if_neg different, withNotar, slotState_setState, if_neg different]
    · intro vote member
      apply kept
      simp [member]
    · intro _
      apply kept
      simp
  · simp [invalid]

/-- Part of the retry is done: the slots below `bound` have their new notar
votes, the others are as at the start. -/
structure Retrying (start votor : Votor) (bound : Nat) : Prop where
  index : votor.validatorIndex = start.validatorIndex
  ahead : ∀ slot, bound ≤ slot → votor.slotState slot = start.slotState slot
  behind : ∀ slot, slot < bound → (votor.slotState slot).votedNotar = start.notarAfterRetry slot

namespace Retrying

variable {start : Votor} {bound : Nat} {parent : BlockId} (retrying : Retrying start votor bound)
  (low : bound ≤ slot)
  (gap : ∀ between, bound ≤ between → between < slot → (start.slotState between).pendingBlock = none)
include retrying low gap

omit low in
theorem votedNotar {other : Nat} (below : other < slot) :
    (votor.slotState other).votedNotar = start.notarAfterRetry other := by
  by_cases passed : other < bound
  · exact retrying.behind other passed
  · have still := retrying.ahead other (Nat.not_lt.mp passed)
    rw [still, notarAfterRetry_eq, gap other (Nat.not_lt.mp passed) below]

theorem validParent_iff_retries : votor.validParent slot parent = true ↔ start.Retries slot parent := by
  rw [validParent_iff, VotorView.ValidParent, Retries]
  by_cases first : slot = firstSlotInWindow slot
  · rw [if_pos first, if_pos first]
    simp only [view, retrying.ahead slot low]
  rw [if_neg first, if_neg first]
  apply and_congr_right
  intro before
  have positive : 0 < slot := by
    have under := firstSlotInWindow_le slot
    omega
  simp only [view, before]
  rw [retrying.votedNotar gap (show slot - 1 < slot by omega)]

theorem step {done : Bool} (pending : (start.slotState slot).pendingBlock = some (block, parent))
    (ran : votor.tryNotar slot block parent out = .ok (after, out', done)) : Retrying start after (slot + 1) := by
  obtain ⟨index, here, others, _, _⟩ := tryNotar_effect ran
  refine ⟨index.trans retrying.index, ?_, ?_⟩
  · intro other above
    rw [others other (by omega), retrying.ahead other (by omega)]
  · intro other below
    by_cases same : other = slot
    · subst same
      rw [here, notarAfterRetry_eq, pending, retrying.ahead other low]
      simp only [retrying.validParent_iff_retries low gap]
    · rw [others other same]
      exact retrying.votedNotar gap (by omega)

end Retrying

/-- The whole retry casts the notar votes of the blocks with a valid parent,
and is made of acts if none of their slots was voted before. -/
theorem retryAll {bound : Nat} {pending : List (Nat × BlockId × BlockId)} (retrying : Retrying start votor bound)
    (ordered : pending.Pairwise fun left right => left.1 < right.1)
    (above : ∀ entry ∈ pending, bound ≤ entry.1)
    (held : ∀ entry, bound ≤ entry.1 → (entry ∈ pending ↔ (start.slotState entry.1).pendingBlock = some entry.2))
    (ran : pending.foldlM (fun (votor, out) (slot, blockId, parentBlockId) => do
        let (votor, out, _) ← votor.tryNotar slot blockId parentBlockId out
        return (votor, out)) (votor, out) = .ok (after, out')) :
    ((∀ entry ∈ pending, start.Retries entry.1 entry.2.2 → (start.slotState entry.1).voted = false) →
        Moves input votor out after out') ∧
      (∀ vote ∈ out.votes, vote ∈ out'.votes) ∧
      ∀ entry ∈ pending, start.Retries entry.1 entry.2.2 →
        .newNotar entry.1 entry.2.1.hash start.validatorIndex ∈ out'.votes := by
  induction pending generalizing votor out bound with
  | nil =>
    cases ran
    exact ⟨fun _ => .stay rfl, fun _ member => member, fun entry member => by cases member⟩
  | cons entry rest ih =>
    obtain ⟨slot, block, parent⟩ := entry
    obtain ⟨smallest, restOrdered⟩ := pairwise_cons.mp ordered
    have low : bound ≤ slot := above _ mem_cons_self
    have here := (held (slot, block, parent) low).mp mem_cons_self
    have gap : ∀ between, bound ≤ between → between < slot →
        (start.slotState between).pendingBlock = none := by
      intro between under below
      cases found : (start.slotState between).pendingBlock with
      | none => rfl
      | some other =>
        obtain same | later := mem_cons.mp ((held (between, other) under).mpr found)
        · have equal := congrArg Prod.fst same
          omega
        · have beyond := smallest _ later
          omega
    obtain ⟨⟨middle, out₁⟩, tried, ran⟩ := bind_eq_ok.mp ran
    obtain ⟨⟨middle', out₁', done⟩, tried, same⟩ := bind_eq_ok.mp tried
    cases same
    have next := retrying.step low gap here tried
    have nextHeld : ∀ entry, slot + 1 ≤ entry.1 →
        (entry ∈ rest ↔ (start.slotState entry.1).pendingBlock = some entry.2) := by
      intro entry beyond
      rw [← held entry (by omega), mem_cons]
      apply symm
      apply or_iff_right
      rintro rfl
      omega
    obtain ⟨moves, kept, cast⟩ := ih next restOrdered smallest nextHeld ran
    obtain ⟨_, _, _, keptHere, castHere⟩ := tryNotar_effect tried
    have valid := @Retrying.validParent_iff_retries votor slot start bound parent retrying low gap
    refine ⟨?_, fun vote member => kept vote (keptHere vote member), ?_⟩
    · intro fresh
      refine .trans ?_ (moves fun entry member => fresh entry (mem_cons_of_mem _ member))
      apply tryNotar_moves tried
      · intro good
        rw [retrying.ahead slot low]
        exact fresh _ mem_cons_self (valid.mp good)
      · rw [retrying.ahead slot low]
        exact .inl here
    · intro entry member retries
      obtain rfl | later := mem_cons.mp member
      · apply kept
        rw [← retrying.index]
        exact castHere (valid.mpr retries)
      · exact cast entry later retries

/-- A pending block of a voted slot is about to be notarized. -/
def Renotarizes (votor : Votor) : Prop :=
  ∃ slot block parent, (votor.slotState slot).pendingBlock = some (block, parent) ∧
    (votor.slotState slot).voted = true ∧ votor.Retries slot parent

theorem checkPendingBlocks_spec (ran : votor.checkPendingBlocks out = .ok (after, out')) :
    (¬ votor.Renotarizes → Moves input votor out after out') ∧ (∀ vote ∈ out.votes, vote ∈ out'.votes) ∧
      ∀ slot block parent, (votor.slotState slot).pendingBlock = some (block, parent) →
        votor.Retries slot parent → .newNotar slot block.hash votor.validatorIndex ∈ out'.votes := by
  have retrying : Retrying votor votor 0 := ⟨rfl, fun _ _ => rfl, fun slot below => absurd below (Nat.not_lt_zero slot)⟩
  rcases retryAll retrying votor.pendingBlocks_pairwise (fun _ _ => Nat.zero_le _)
    (fun entry _ => mem_pendingBlocks) ran with ⟨moves, kept, cast⟩
  refine ⟨?_, kept, ?_⟩
  · intro never
    apply moves
    intro entry member retries
    apply eq_false_iff.mpr
    intro voted
    exact never ⟨entry.1, entry.2.1, entry.2.2, mem_pendingBlocks.mp member, voted, retries⟩
  · intro slot block parent pending retries
    exact cast (slot, block, parent) (mem_pendingBlocks.mpr pending) retries

theorem renotarizes_congr {other : Votor}
    (pending : ∀ slot, (other.slotState slot).pendingBlock = (votor.slotState slot).pendingBlock)
    (voted : ∀ slot, (other.slotState slot).voted = (votor.slotState slot).voted)
    (notars : ∀ slot, (other.slotState slot).votedNotar = (votor.slotState slot).votedNotar)
    (parents : ∀ slot, (other.slotState slot).parentsReady = (votor.slotState slot).parentsReady) :
    other.Renotarizes ↔ votor.Renotarizes := by
  have after : ∀ slot, other.notarAfterRetry slot = votor.notarAfterRetry slot := by
    intro slot
    induction slot with
    | zero => simp only [notarAfterRetry, pending, notars, parents]
    | succ slot ih => simp only [notarAfterRetry, pending, notars, parents, ih]
  simp only [Renotarizes, Retries, pending, voted, parents, after]

theorem renotarizes_tryFinal (ran : votor.tryFinal slot hash out = .ok (after, out')) :
    after.Renotarizes ↔ votor.Renotarizes := by
  obtain ⟨_, ⟨retired, states⟩, _⟩ := tryFinal_effect ran
  have states : ∀ other, ∃ retired, after.slotState other = { votor.slotState other with retired } := by
    intro other
    rw [states]
    split
    · next same => exact ⟨retired, by rw [same]⟩
    · exact ⟨_, rfl⟩
  apply renotarizes_congr
  all_goals
    intro other
    obtain ⟨_, same⟩ := states other
    rw [same]

def withParent (votor : Votor) (slot : Nat) (parent : BlockId) : Votor :=
  if parent ∈ (votor.slotState slot).parentsReady then votor
  else votor.setState slot { votor.slotState slot with
    parentsReady := (votor.slotState slot).parentsReady ++ [parent] }

def markBad (votor : Votor) (slot : Nat) : Votor :=
  votor.setState slot { votor.slotState slot with badWindow := true }

end Votor

/-- The input makes Votor notarize a slot that it has voted on: it retries the
pending blocks, and one of them belongs to a voted slot. -/
def VotorInput.Renotarizes (votor : Votor) : VotorInput → Prop
  | .pool (.parentReady slot parent) =>
    isStartOfWindow slot = true ∧ slot + slotsPerWindow ≤ u64Max ∧
      votor.shouldIgnorePoolEvent (.parentReady slot parent) = false ∧
      (votor.withParent slot parent).Renotarizes
  | .blockstore (.block slot block parent) =>
    votor.isSettled slot = false ∧ votor.hasVoted slot = false ∧
      votor.validParent slot parent = true ∧ (votor.withNotar slot block.hash).Renotarizes
  | _ => False

namespace Votor

variable {votor after : Votor} {out : VotorOut}

theorem setTimeouts_votes (ran : setTimeouts slot out = .ok out') : out'.votes = out.votes := by
  obtain ⟨_, _, ran⟩ := bind_eq_ok.mp ran
  obtain ⟨_, _, done⟩ := bind_eq_ok.mp ran
  cases done
  rfl

theorem setTimeouts_isOk_iff : (∃ out', setTimeouts slot out = .ok out') ↔
      isStartOfWindow slot = true ∧ slot + slotsPerWindow ≤ u64Max := by
  have window : isStartOfWindow slot = true → firstSlotInWindow slot = slot := by
    intro start
    rw [isStartOfWindow_iff] at start
    simp only [firstSlotInWindow, slotsPerWindow]
    omega
  simp only [setTimeouts, bind_eq_ok, assert_eq_ok, lastSlotInWindow, addU64_eq_ok]
  constructor
  · rintro ⟨_, _, start, _, ⟨_, ⟨_, bounded⟩, _⟩, _⟩
    rw [window start] at bounded
    exact ⟨start, bounded⟩
  · rintro ⟨start, bounded⟩
    exact ⟨_, (), start, _, ⟨_, ⟨rfl, by rw [window start]; exact bounded⟩, rfl⟩, rfl⟩

theorem Moves.congr (moves : Moves input votor out middle out')
    (index : other.validatorIndex = middle.validatorIndex) (view : other.view = middle.view) :
    Moves input votor out other out' := by
  obtain ⟨same, votes, acts, cast⟩ := moves
  exact ⟨index.trans same, votes, view ▸ acts, cast⟩

theorem withParent_moves (asked : input = .pool (.parentReady slot parent)) :
    Moves input votor out (votor.withParent slot parent) out := by
  rw [withParent]
  split
  · exact .stay rfl
  · refine .one rfl ?_ (append_nil _).symm
    rw [view_setState]
    exact .ready asked

theorem parentReady_moves (ran : votor.handlePoolEvent (.parentReady slot parent) out = .ok (after, out'))
    (safe : ¬ VotorInput.Renotarizes votor (.pool (.parentReady slot parent))) :
    Moves (.pool (.parentReady slot parent)) votor out after out' := by
  rw [handlePoolEvent] at ran
  split at ran
  · cases ran
    exact .stay rfl
  rename_i active
  obtain ⟨⟨middle, out₁⟩, checked, ran⟩ := bind_eq_ok.mp ran
  obtain ⟨out₂, timeouts, done⟩ := bind_eq_ok.mp ran
  cases done
  obtain ⟨start, bounded⟩ := setTimeouts_isOk_iff.mp ⟨_, timeouts⟩
  have never : ¬ (votor.withParent slot parent).Renotarizes := fun renotarizes =>
    safe ⟨start, bounded, eq_false_iff.mpr active, renotarizes⟩
  refine (withParent_moves rfl).trans (((checkPendingBlocks_spec checked).1 never).trans ?_)
  exact .stay (setTimeouts_votes timeouts)

theorem skipSlots_markBad {bad : Votor} {slots : List Nat} (index : bad.validatorIndex = votor.validatorIndex)
    (view : bad.view = (votor.markBad slot).view) : (bad.skipSlots out slots).2 = (votor.skipSlots out slots).2 ∧
      (bad.skipSlots out slots).1.view = ((votor.skipSlots out slots).1.markBad slot).view := by
  induction slots generalizing votor bad out with
  | nil => exact ⟨rfl, view⟩
  | cons first rest ih =>
    have states : ∀ other, bad.slotState other = (votor.markBad slot).slotState other :=
      fun other => congrFun (congrArg VotorView.slots view) other
    have same : bad.hasVoted first = votor.hasVoted first := by
      rw [hasVoted, states, markBad, slotState_setState, hasVoted]
      split
      · next here => rw [here]
      · rfl
    simp only [skipSlots, foldl_cons, skipSlot, same]
    by_cases voted : votor.hasVoted first = true
    · rw [if_pos voted, if_pos voted]
      exact ih index view
    rw [if_neg voted, if_neg voted, index]
    apply ih
    · exact index
    · simp only [view_setState, view, markBad, states, slotState_setState]
      by_cases here : first = slot
      · subst here
        simp [VotorView.set]
      · have there : slot ≠ first := fun equal => here equal.symm
        simp only [if_neg here, if_neg there]
        exact congrArg (VotorView.mk _) (Function.update_comm there _ _ _)

theorem fallBack_moves (act : Act votor.validatorIndex input votor.view [vote] (votor.markBad slot).view)
    (ran : votor.fallBack slot vote out = .ok (after, out')) : Moves input votor out after out' := by
  obtain ⟨⟨middle, out₁⟩, skipped, done⟩ := bind_eq_ok.mp ran
  cases done
  obtain ⟨slots, low, result⟩ := trySkipWindow_slots skipped
  have first : Moves input votor out (votor.markBad slot) (out.pushVote vote) :=
    .one rfl act (VotorOut.votes_pushVote)
  have moves := @skipSlots_moves input (votor.markBad slot) (out.pushVote vote) slots low
  obtain ⟨same, view⟩ := @skipSlots_markBad votor (out.pushVote vote) slot (votor.markBad slot) slots rfl rfl
  rw [same, result] at moves
  rw [result] at view
  refine .congr (first.trans moves) ?_ view.symm
  rw [moves.1]
  exact (@trySkipWindow_moves input _ _ _ _ _ skipped).1

theorem slotState_prune (votor : Votor) (slot : Nat) : votor.prune.slotState slot =
      if votor.firstUnprunedSlot ≤ slot then votor.slotState slot else .default := by
  simp only [slotState, prune]
  rw [Table.get_retain_key]
  simp only [decide_eq_true_eq]
  split <;> rfl

theorem handleFinalCert_moves (ran : votor.handleFinalCert slot out = .ok (after, out')) :
    Moves input votor out after out' := by
  obtain ⟨out₁, timeouts, done⟩ := bind_eq_ok.mp ran
  cases done
  have raised : firstSlotInWindow votor.highestFinalCertSlot ≤
      firstSlotInWindow (max votor.highestFinalCertSlot slot) := by
    simp only [firstSlotInWindow, slotsPerWindow]
    omega
  refine .one rfl ?_ (by rw [setTimeouts_votes timeouts, append_nil])
  have view : ({ votor with highestFinalCertSlot := max votor.highestFinalCertSlot slot } : Votor).prune.view =
      { first := firstSlotInWindow (max votor.highestFinalCertSlot slot)
        slots := fun other => if firstSlotInWindow (max votor.highestFinalCertSlot slot) ≤ other then
          votor.slotState other else .default } :=
    congrArg (VotorView.mk _) (funext fun other => slotState_prune _ other)
  rw [view]
  exact .pruned raised

theorem handleCertCreated_moves (ran : votor.handleCertCreated cert out = .ok (after, out')) :
    Moves (.pool (.certCreated cert)) votor out after out' := by
  have broadcast : ∀ (votor : Votor) (out : VotorOut), Moves (.pool (.certCreated cert)) votor out votor
      { out with msgs := out.msgs ++ [.cert cert] } := by
    intro votor out
    apply Moves.stay
    simp [VotorOut.votes, ConsensusMessage.vote?]
  cases cert with
  | notar cert =>
    obtain ⟨⟨middle, out₁⟩, finalized, done⟩ := bind_eq_ok.mp ran
    cases done
    refine .trans ?_ ((tryFinal_moves finalized).trans (broadcast _ _))
    refine .one rfl ?_ (append_nil _).symm
    rw [view_setState]
    exact .notarized rfl
  | final cert | fastFinal cert =>
    obtain ⟨⟨middle, out₁⟩, finalized, done⟩ := bind_eq_ok.mp ran
    cases done
    exact (handleFinalCert_moves finalized).trans (broadcast _ _)
  | notarFallback cert | skip cert =>
    cases ran
    exact broadcast _ _

theorem standstill_moves {msgs : List ConsensusMessage}
    (asked : input = .pool (.standstill slot bundle)) (part : ∀ message ∈ msgs, message ∈ bundle) :
    Moves input votor out votor { out with msgs := out.msgs ++ msgs } := by
  induction msgs generalizing out with
  | nil => exact .stay (by rw [append_nil])
  | cons message rest ih =>
    have first : Moves input votor out votor { out with msgs := out.msgs ++ [message] } := by
      cases message with
      | cert cert => exact .stay (by simp [VotorOut.votes, ConsensusMessage.vote?])
      | vote vote =>
        refine .one rfl (.repeated asked (part _ mem_cons_self)) ?_
        simp [VotorOut.votes, ConsensusMessage.vote?]
    have later := @ih { out with msgs := out.msgs ++ [message] }
      fun other member => part other (mem_cons_of_mem _ member)
    simp only [append_assoc, singleton_append] at later
    exact first.trans later

theorem handlePoolEvent_moves (ran : votor.handlePoolEvent event out = .ok (after, out'))
    (safe : ¬ VotorInput.Renotarizes votor (.pool event)) : Moves (.pool event) votor out after out' := by
  by_cases ignored : votor.shouldIgnorePoolEvent event = true
  · rw [handlePoolEvent.eq_def, if_pos ignored] at ran
    cases ran
    exact .stay rfl
  have handled := ran
  rw [handlePoolEvent.eq_def, if_neg ignored] at handled
  cases event with
  | parentReady slot parent => exact parentReady_moves ran safe
  | safeToNotar block =>
    simp only [shouldIgnorePoolEvent, or_eq_true, decide_eq_true_eq, not_or] at ignored
    refine fallBack_moves ?_ handled
    rw [markBad, view_setState]
    exact .notarFallback rfl (not_lt.mp ignored.1) (eq_false_iff.mpr ignored.2)
  | safeToSkip slot =>
    simp only [shouldIgnorePoolEvent, or_eq_true, decide_eq_true_eq, not_or] at ignored
    refine fallBack_moves ?_ handled
    rw [markBad, view_setState]
    exact .skipFallback rfl (not_lt.mp ignored.1) (eq_false_iff.mpr ignored.2)
  | certCreated cert => exact handleCertCreated_moves handled
  | standstill slot bundle =>
    cases handled
    exact standstill_moves rfl fun _ member => member

theorem low_of_not_settled (active : votor.isSettled slot = false) : votor.firstUnprunedSlot ≤ slot := by
  rw [isSettled, or_eq_false_iff, decide_eq_false_iff_not] at active
  exact le_trans (firstSlotInWindow_le _) (Nat.le_of_not_le active.1)

theorem block_moves (ran : votor.handleBlockstoreEvent (.block slot block parent) out = .ok (after, out'))
    (safe : ¬ VotorInput.Renotarizes votor (.blockstore (.block slot block parent))) :
    Moves (.blockstore (.block slot block parent)) votor out after out' := by
  rw [handleBlockstoreEvent] at ran
  split at ran
  · cases ran
    exact .stay rfl
  rename_i active
  split at ran
  · cases ran
    exact .stay rfl
  rename_i open_
  have fresh := eq_false_iff.mpr open_
  have low := low_of_not_settled (eq_false_iff.mpr active)
  obtain ⟨⟨middle, out₁, notarized⟩, tried, rest⟩ := bind_eq_ok.mp ran
  refine (tryNotar_moves tried (fun _ => fresh) (.inr rfl)).trans ?_
  obtain ⟨_, ⟨valid, rfl, finalized⟩ | ⟨_, rfl, rfl, rfl⟩⟩ := tryNotar_cases tried
  · refine (checkPendingBlocks_spec rest).1 fun renotarizes => safe ?_
    refine ⟨eq_false_iff.mpr active, fresh, valid, ?_⟩
    exact (renotarizes_tryFinal finalized).mp renotarizes
  · cases rest
    refine .one rfl ?_ (append_nil _).symm
    rw [view_setState]
    exact .pending low fresh rfl

end Votor

/-- Every handler is a sequence of acts, unless it notarizes a voted slot. -/
theorem VotorInput.apply_moves {after : Votor} {out : VotorOut}
    (ran : input.apply votor = .ok (after, out)) (safe : ¬ input.Renotarizes votor) :
    votor.Moves input .empty after out := by
  cases input with
  | pool event => exact Votor.handlePoolEvent_moves ran safe
  | blockstore event =>
    cases event with
    | block slot block parent => exact Votor.block_moves ran safe
    | firstShred slot =>
      simp only [apply, Votor.handleBlockstoreEvent] at ran
      split at ran
      · cases ran
        exact .stay rfl
      · cases ran
        refine .one rfl ?_ (append_nil _).symm
        rw [Votor.view_setState]
        exact .received
    | invalidBlock slot =>
      simp only [apply, Votor.handleBlockstoreEvent] at ran
      split at ran
      · cases ran
        exact .stay rfl
      · exact Votor.trySkipWindow_moves ran
  | timeout event =>
    simp only [apply, Votor.handleTimeoutEvent] at ran
    split at ran
    · cases ran
      exact .stay rfl
    cases event with
    | timeout slot | crashedLeader slot =>
      simp only at ran
      split at ran
      · cases ran
        exact .stay rfl
      · exact Votor.trySkipWindow_moves ran

end Karstflow.Alpenglow
