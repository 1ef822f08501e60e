import Karstflow.Alpenglow.ParentSpread
import Karstflow.Data.Steps

namespace Karstflow.Alpenglow

open Data ParentReadyState ParentReadyTracker List

/-! # Parent readiness against its definition

A block is ready as the parent of a window start when it has a fallback
certificate and every slot between the two is skipped. The tracker keeps this
relation incrementally: certificates spread forward, skips splice what is known
below them onto what is connected above them.
-/

inductive ReadinessCall where
  | notarFallback (id : BlockId)
  | skipped (slot : Nat)
deriving Repr, DecidableEq

namespace ReadinessCall

def slot : ReadinessCall → Nat
  | notarFallback id => id.slot
  | skipped slot => slot

def apply (tracker : ParentReadyTracker) :
    ReadinessCall → Except Panic (ParentReadyTracker × List ParentReady)
  | notarFallback id => tracker.markNotarFallback id
  | skipped slot => tracker.markSkipped slot

end ReadinessCall

def Marked (calls : List ReadinessCall) (block : BlockId) : Prop :=
  block = .genesis 0 ∨ .notarFallback block ∈ calls

def Skipped (calls : List ReadinessCall) (slot : Nat) : Prop := .skipped slot ∈ calls

/-- `block` is a valid parent for a block in the window start `slot`. -/
def ReadyFor (calls : List ReadinessCall) (slot : Nat) (block : BlockId) : Prop :=
  isStartOfWindow slot = true ∧ block.slot < slot ∧ Marked calls block ∧
    ∀ between, block.slot < between → between < slot → Skipped calls between

/-- The pairs of `out` are those that became ready between `before` and `after`. -/
def Emits (before after : List ReadinessCall) (out : List ParentReady) : Prop :=
  out.Nodup ∧ ∀ slot parent, ⟨slot, parent⟩ ∈ out ↔
    ReadyFor after slot parent ∧ ¬ ReadyFor before slot parent

/-- The tracker stores the certificates of `calls`, and its ready lists follow
from those of `readied`. The two differ only inside a call. -/
structure Tracks (readied calls : List ReadinessCall) (tracker : ParentReadyTracker) : Prop where
  root : tracker.root = 0
  skip : ∀ slot, (tracker.slotState slot).skip = true ↔ Skipped calls slot
  fallbacks : ∀ slot hash, hash ∈ (tracker.slotState slot).notarFallbacks ↔ Marked calls ⟨slot, hash⟩
  fallbacksDistinct : ∀ slot, (tracker.slotState slot).notarFallbacks.Nodup
  ready : ∀ slot block, block ∈ (tracker.slotState slot).readyIds ↔ ReadyFor readied slot block
  readyDistinct : ∀ slot, (tracker.slotState slot).readyIds.Nodup
  inRange : ∀ call ∈ calls, call.slot < u64Max

variable {tracker : ParentReadyTracker}

theorem skipped_append_mark {id : BlockId} {slot : Nat} :
    Skipped (calls ++ [.notarFallback id]) slot ↔ Skipped calls slot := by
  simp [Skipped]

theorem skipped_append_skip {slot : Nat} :
    Skipped (calls ++ [.skipped marked]) slot ↔ Skipped calls slot ∨ slot = marked := by
  simp [Skipped]

theorem marked_append_mark {id block : BlockId} :
    Marked (calls ++ [.notarFallback id]) block ↔ Marked calls block ∨ block = id := by
  simp [Marked, or_assoc]

theorem marked_append_skip {marked : Nat} : Marked (calls ++ [.skipped marked]) block ↔ Marked calls block := by
  simp [Marked]

theorem inRange_append {call : ReadinessCall} (old : ∀ call ∈ calls, call.slot < u64Max)
    (new : call.slot < u64Max) : ∀ other ∈ calls ++ [call], other.slot < u64Max := by
  intro other member
  obtain earlier | last := mem_append.mp member
  · exact old other earlier
  · rw [mem_singleton.mp last]
    exact new

theorem not_readyFor_nil {slot : Nat} : ¬ ReadyFor [] slot block := by
  rintro ⟨window, above, rfl | listed, skipped⟩
  · -- genesis is ready for no slot: its successor is not skipped
    have first := skipped 1 (by simp [BlockId.genesis])
    rw [isStartOfWindow_iff] at window
    exact absurd (first (by omega)) (by simp [Skipped])
  · cases listed

theorem Tracks.default : Tracks [] [] default := by
  refine ⟨rfl, ?_, ?_, ?_, ?_, ?_, by simp⟩
  · intro slot
    rw [slotState_default]
    split <;> simp [Skipped, genesis, new]
  · intro slot hash
    rw [slotState_default]
    split <;> simp_all [Marked, BlockId.genesis, genesis, new]
  · intro slot
    rw [slotState_default]
    split <;> simp [genesis, new]
  · intro slot block
    rw [slotState_default]
    simp only [not_readyFor_nil, iff_false]
    split <;> simp [genesis, new]
  · intro slot
    rw [slotState_default]
    split <;> simp [genesis, new]

section

variable (tracks : Tracks readied calls tracker)

include tracks

theorem Tracks.lastOpen : (tracker.slotState u64Max).skip = false := by
  cases skip : (tracker.slotState u64Max).skip with
  | false => rfl
  | true =>
    have bound := tracks.inRange _ ((tracks.skip u64Max).mp skip)
    exact absurd bound (lt_irrefl _)

theorem Tracks.notBelowRoot {slot : Nat} : ¬ slot < tracker.root := by
  rw [tracks.root]
  exact Nat.not_lt_zero slot

theorem Tracks.unchanged (same : ∀ slot block, ReadyFor calls slot block ↔ ReadyFor readied slot block) :
    Tracks calls calls tracker ∧ Emits readied calls [] := by
  refine ⟨{ tracks with ready := ?_ }, nodup_nil, ?_⟩
  · intro slot block
    rw [tracks.ready, same]
  · intro slot parent
    simp [same]

/-- The forward loop brings the ready lists up to date if `parents` are what
became ready at the window starts it reaches. -/
theorem Tracks.spreadAfter {slot : Nat} (inRange : slot < u64Max) (distinct : parents.Nodup)
    (fresh : ∀ other, tracker.Reached (slot + 1) other → ∀ parent ∈ parents, ¬ ReadyFor readied other parent)
    (gained : ∀ other block, ReadyFor calls other block ↔
      ReadyFor readied other block ∨ (tracker.Reached (slot + 1) other ∧ block ∈ parents)) :
    ∃ after out, tracker.spreadAfter parents slot = .ok (after, out) ∧
      Tracks calls calls after ∧ Emits readied calls out := by
  have next : addU64 slot 1 = .ok (slot + 1) := if_pos (by omega)
  have absent : ∀ other, tracker.Reached (slot + 1) other →
      ∀ parent ∈ parents, parent ∉ (tracker.slotState other).readyIds := by
    intro other reached parent member held
    exact fresh other reached parent member ((tracks.ready other parent).mp held)
  rcases @ParentReadyTracker.spread_spec tracker parents (slot + 1) distinct (u64Max - (slot + 1))
    (by omega) absent with ⟨after, out, spread, spreads⟩ | ⟨_, overflowed⟩
  · refine ⟨after, out, ?_, ⟨spreads.root.trans tracks.root, ?_, ?_, ?_, ?_, ?_, tracks.inRange⟩, spreads.distinct, ?_⟩
    · rw [ParentReadyTracker.spreadAfter, next]
      exact spread
    · intro other
      rw [spreads.skip, tracks.skip]
    · intro other hash
      rw [spreads.fallbacks, tracks.fallbacks]
    · intro other
      rw [spreads.fallbacks]
      exact tracks.fallbacksDistinct other
    · intro other block
      rw [gained]
      by_cases reached : tracker.Reached (slot + 1) other
      · rw [spreads.gained other reached, mem_append, tracks.ready]
        simp only [reached, true_and]
      · rw [spreads.kept other reached, tracks.ready]
        simp only [reached, false_and, or_false]
    · intro other
      by_cases reached : tracker.Reached (slot + 1) other
      · rw [spreads.gained other reached, nodup_append]
        refine ⟨tracks.readyDistinct other, distinct, ?_⟩
        intro block held parent member same
        exact absent other reached parent member (same ▸ held)
      · rw [spreads.kept other reached]
        exact tracks.readyDistinct other
    · intro other parent
      rw [spreads.mem, gained]
      constructor
      · intro new
        exact ⟨.inr new, fresh other new.1 parent new.2⟩
      · intro ⟨held, missing⟩
        exact held.resolve_left missing
  · rw [tracks.lastOpen] at overflowed
    cases overflowed

end

theorem Tracks.spreadAfter_overflow {slot : Nat} (last : ¬ slot < u64Max) :
    tracker.spreadAfter parents slot = .error .overflow := by
  have beyond : ¬ slot + 1 ≤ u64Max := by omega
  rw [ParentReadyTracker.spreadAfter, addU64, if_neg beyond]
  rfl

theorem Tracks.storeFallback {id : BlockId} (tracks : Tracks calls calls tracker)
    (inRange : id.slot < u64Max) (fresh : id.hash ∉ (tracker.slotState id.slot).notarFallbacks) :
    Tracks calls (calls ++ [.notarFallback id]) (tracker.setState id.slot { tracker.slotState id.slot with
        notarFallbacks := (tracker.slotState id.slot).notarFallbacks ++ [id.hash] }) := by
  refine ⟨tracks.root, ?_, ?_, ?_, ?_, ?_, inRange_append tracks.inRange inRange⟩
  · intro slot
    rw [slotState_setState, skipped_append_mark, ← tracks.skip]
    by_cases same : slot = id.slot
    · rw [if_pos same, same]
    · rw [if_neg same]
  · intro slot hash
    rw [slotState_setState, marked_append_mark, ← tracks.fallbacks]
    by_cases same : slot = id.slot
    · subst same
      rw [if_pos rfl, mem_append, mem_singleton]
      apply or_congr_right
      cases id
      simp
    · rw [if_neg same]
      have different : (⟨slot, hash⟩ : BlockId) ≠ id := fun equal => same (congrArg BlockId.slot equal)
      simp only [different, or_false]
  · intro slot
    rw [slotState_setState]
    by_cases same : slot = id.slot
    · rw [if_pos same, nodup_append]
      refine ⟨tracks.fallbacksDistinct _, nodup_singleton _, ?_⟩
      intro hash held other new equal
      rw [mem_singleton.mp new] at equal
      exact fresh (equal ▸ held)
    · rw [if_neg same]
      exact tracks.fallbacksDistinct slot
  · intro slot block
    rw [slotState_setState, ← tracks.ready]
    by_cases same : slot = id.slot
    · rw [if_pos same, same]
    · rw [if_neg same]
  · intro slot
    rw [slotState_setState]
    by_cases same : slot = id.slot
    · rw [if_pos same]
      exact tracks.readyDistinct id.slot
    · rw [if_neg same]
      exact tracks.readyDistinct slot

theorem readyFor_mark {id block : BlockId} {slot : Nat} : ReadyFor (calls ++ [.notarFallback id]) slot block ↔
      ReadyFor calls slot block ∨ (block = id ∧ isStartOfWindow slot = true ∧ id.slot < slot ∧
        ∀ between, id.slot < between → between < slot → Skipped calls between) := by
  simp only [ReadyFor, skipped_append_mark, marked_append_mark]
  constructor
  · rintro ⟨window, above, held | rfl, between⟩
    · exact .inl ⟨window, above, held, between⟩
    · exact .inr ⟨rfl, window, above, between⟩
  · rintro (⟨window, above, held, between⟩ | ⟨rfl, window, above, between⟩)
    · exact ⟨window, above, .inl held, between⟩
    · exact ⟨window, above, .inr rfl, between⟩

theorem Tracks.markAgain {id : BlockId} (tracks : Tracks calls calls tracker)
    (known : id.hash ∈ (tracker.slotState id.slot).notarFallbacks) :
    Tracks (calls ++ [.notarFallback id]) (calls ++ [.notarFallback id]) tracker ∧
      Emits calls (calls ++ [.notarFallback id]) [] := by
  have marked : Marked calls id := (tracks.fallbacks id.slot id.hash).mp known
  have inRange : id.slot < u64Max := by
    obtain genesis | listed := marked
    · rw [congrArg BlockId.slot genesis]
      decide
    · exact tracks.inRange _ listed
  have stored : Tracks calls (calls ++ [.notarFallback id]) tracker := by
    refine { tracks with skip := ?_, fallbacks := ?_, inRange := inRange_append tracks.inRange inRange }
    · intro slot
      rw [tracks.skip, skipped_append_mark]
    · intro slot hash
      rw [tracks.fallbacks, marked_append_mark]
      exact (or_iff_left_of_imp fun same => same ▸ marked).symm
  apply stored.unchanged
  intro slot block
  rw [readyFor_mark]
  apply or_iff_left_of_imp
  rintro ⟨rfl, window, above, between⟩
  exact ⟨window, above, marked, between⟩

theorem Tracks.markNotarFallback (tracks : Tracks calls calls tracker) (id : BlockId) :
    (∃ after out, tracker.markNotarFallback id = .ok (after, out) ∧
        Tracks (calls ++ [.notarFallback id]) (calls ++ [.notarFallback id]) after ∧
        Emits calls (calls ++ [.notarFallback id]) out) ∨
      (tracker.markNotarFallback id = .error .overflow ∧ u64Max ≤ id.slot) := by
  simp only [ParentReadyTracker.markNotarFallback, if_neg (tracks.notBelowRoot)]
  by_cases known : id.hash ∈ (tracker.slotState id.slot).notarFallbacks
  · rw [if_pos known]
    exact .inl ⟨tracker, [], rfl, tracks.markAgain known⟩
  rw [if_neg known]
  by_cases inRange : id.slot < u64Max
  · have unmarked : ¬ Marked calls id := fun held => known ((tracks.fallbacks id.slot id.hash).mpr held)
    have stored := tracks.storeFallback inRange known
    refine .inl (stored.spreadAfter inRange (nodup_singleton id) ?_ ?_)
    · intro slot _ parent member held
      rw [mem_singleton.mp member] at held
      exact unmarked held.2.2.1
    · intro slot block
      simp only [readyFor_mark, Reached, Connected, stored.skip, skipped_append_mark, mem_singleton, Nat.succ_le_iff]
      apply or_congr_right
      rw [and_comm]
  · exact .inr ⟨spreadAfter_overflow inRange, not_lt.mp inRange⟩

theorem Tracks.storeSkip (tracks : Tracks calls calls tracker) (inRange : marked < u64Max) :
    Tracks calls (calls ++ [.skipped marked])
      (tracker.setState marked { tracker.slotState marked with skip := true }) := by
  refine ⟨tracks.root, ?_, ?_, ?_, ?_, ?_, inRange_append tracks.inRange inRange⟩
  · intro slot
    rw [slotState_setState, skipped_append_skip, ← tracks.skip]
    by_cases same : slot = marked
    · simp [same]
    · simp [same]
  · intro slot hash
    rw [slotState_setState, marked_append_skip, ← tracks.fallbacks]
    by_cases same : slot = marked
    · rw [if_pos same, same]
    · rw [if_neg same]
  · intro slot
    rw [slotState_setState]
    by_cases same : slot = marked
    · rw [if_pos same]
      exact tracks.fallbacksDistinct marked
    · rw [if_neg same]
      exact tracks.fallbacksDistinct slot
  · intro slot block
    rw [slotState_setState, ← tracks.ready]
    by_cases same : slot = marked
    · rw [if_pos same, same]
    · rw [if_neg same]
  · intro slot
    rw [slotState_setState]
    by_cases same : slot = marked
    · rw [if_pos same]
      exact tracks.readyDistinct marked
    · rw [if_neg same]
      exact tracks.readyDistinct slot

/-- What the rounds below `slot` of the backward loop have to find. -/
def Below (calls : List ReadinessCall) (slot : Nat) (block : BlockId) : Prop :=
  Marked calls block ∧ block.slot < slot ∧
    ∀ between, block.slot < between → between < slot → Skipped calls between

section Gather

variable {marked slot : Nat} (tracks : Tracks calls (calls ++ [.skipped marked]) tracker)
include tracks

/-- One round: the certificates of the slot itself, and through a skipped slot
whatever lies below. -/
theorem Tracks.gatherAt (first : firstSlotInWindow marked ≤ slot) (upto : slot ≤ marked)
    (distinct : ((tracker.slotState slot).readyIds ++ rest).Nodup)
    (below : ∀ block, block ∈ (tracker.slotState slot).readyIds ++ rest ↔
      Below (calls ++ [.skipped marked]) slot block) :
    (tracker.gatherAt marked slot rest).Nodup ∧ ∀ block, block ∈ tracker.gatherAt marked slot rest ↔
      block.slot ≠ marked ∧ Below (calls ++ [.skipped marked]) (slot + 1) block := by
  have inside : firstSlotInWindow marked ≤ slot ∧ slot ≤ marked ∧ tracker.root ≤ slot :=
    ⟨first, upto, not_lt.mp (tracks.notBelowRoot)⟩
  simp only [ParentReadyTracker.gatherAt, if_pos inside]
  generalize listed : (if slot ≠ marked then
    (tracker.slotState slot).notarFallbacks.map (BlockId.mk slot) else []) = fallbacks
  have member : ∀ block, block ∈ fallbacks ↔
      block.slot ≠ marked ∧ block.slot = slot ∧ Marked (calls ++ [.skipped marked]) block := by
    intro block
    rw [← listed]
    by_cases here : slot = marked
    · simp only [ne_eq, here, not_true_eq_false, if_false, not_mem_nil, false_iff]
      exact fun held => held.1 held.2.1
    simp only [ne_eq, here, not_false_eq_true, if_true, mem_map, tracks.fallbacks]
    constructor
    · rintro ⟨hash, held, rfl⟩
      exact ⟨here, rfl, held⟩
    · rintro ⟨_, rfl, held⟩
      exact ⟨block.hash, held, rfl⟩
  have fallbacksDistinct : fallbacks.Nodup := by
    rw [← listed]
    split
    · exact (tracks.fallbacksDistinct slot).map fun left right same => (BlockId.mk.inj same).2
    · exact nodup_nil
  have step : ∀ block, Below (calls ++ [.skipped marked]) (slot + 1) block ↔
      (block.slot = slot ∧ Marked (calls ++ [.skipped marked]) block) ∨
      (Skipped (calls ++ [.skipped marked]) slot ∧ Below (calls ++ [.skipped marked]) slot block) := by
    intro block
    constructor
    · rintro ⟨held, above, between⟩
      by_cases here : block.slot = slot
      · exact .inl ⟨here, held⟩
      · exact .inr ⟨between slot (by omega) (by omega), held, by omega,
          fun other low high => between other low (by omega)⟩
    · rintro (⟨here, held⟩ | ⟨skip, held, above, between⟩)
      · exact ⟨held, by omega, fun other low high => absurd high (by omega)⟩
      · refine ⟨held, by omega, ?_⟩
        intro other low high
        by_cases last : other = slot
        · rw [last]
          exact skip
        · exact between other low (by omega)
  by_cases skip : (tracker.slotState slot).skip = true
  · rw [if_pos skip, append_assoc]
    refine ⟨nodup_append.mpr ⟨fallbacksDistinct, distinct, ?_⟩, ?_⟩
    · intro block high other low same
      have here := ((member block).mp high).2.1
      have lower := ((below other).mp low).2.1
      rw [same] at here
      omega
    · intro block
      rw [mem_append, member, below, step]
      have skipped := (tracks.skip slot).mp skip
      constructor
      · rintro (⟨apart, held⟩ | held)
        · exact ⟨apart, .inl held⟩
        · have lower := held.2.1
          exact ⟨by omega, .inr ⟨skipped, held⟩⟩
      · rintro ⟨apart, held | held⟩
        · exact .inl ⟨apart, held⟩
        · exact .inr held.2
  · rw [if_neg skip]
    refine ⟨fallbacksDistinct, ?_⟩
    intro block
    rw [member, step]
    have stuck : ¬ Skipped (calls ++ [.skipped marked]) slot := fun held => skip ((tracks.skip slot).mpr held)
    simp only [stuck, false_and, or_false]

theorem Tracks.below_of_window (start : isStartOfWindow slot = true) (upto : slot ≤ marked) :
    block ∈ (tracker.slotState slot).readyIds ↔ Below (calls ++ [.skipped marked]) slot block := by
  rw [tracks.ready]
  simp only [ReadyFor, Below, marked_append_skip, skipped_append_skip, start, true_and]
  constructor
  · rintro ⟨above, held, between⟩
    exact ⟨held, above, fun other low high => .inl (between other low high)⟩
  · rintro ⟨held, above, between⟩
    refine ⟨above, held, fun other low high => (between other low high).resolve_right ?_⟩
    omega

theorem Tracks.noneReady (inner : ¬ isStartOfWindow slot = true) : (tracker.slotState slot).readyIds = [] := by
  apply eq_nil_iff_forall_not_mem.mpr
  intro block held
  exact inner ((tracks.ready slot block).mp held).1

theorem Tracks.gather (first : firstSlotInWindow marked ≤ slot) (upto : slot ≤ marked) :
    (tracker.gather marked slot).Nodup ∧ ∀ block, block ∈ tracker.gather marked slot ↔
      block.slot ≠ marked ∧ Below (calls ++ [.skipped marked]) (slot + 1) block := by
  induction slot with
  | zero =>
    have start : isStartOfWindow 0 = true := by decide
    apply tracks.gatherAt first upto
    · rw [append_nil]
      exact tracks.readyDistinct 0
    · intro block
      rw [append_nil]
      exact tracks.below_of_window start upto
  | succ slot ih =>
    have notBelow : ¬ (slot + 1 < firstSlotInWindow marked ∨ slot + 1 < tracker.root) := by
      rintro (low | low)
      · omega
      · exact tracks.notBelowRoot low
    rw [ParentReadyTracker.gather, if_neg notBelow]
    by_cases here : firstSlotInWindow marked = slot + 1
    · -- the window starts here: nothing is gathered below, the ready list holds it
      have start := here ▸ isStartOfWindow_first marked
      have outside : tracker.gather marked slot = [] := by
        have low : ¬ (firstSlotInWindow marked ≤ slot ∧ slot ≤ marked ∧ tracker.root ≤ slot) := by omega
        cases slot with
        | zero => rw [ParentReadyTracker.gather, ParentReadyTracker.gatherAt, if_neg low]
        | succ lower =>
          have under : lower + 1 < firstSlotInWindow marked ∨ lower + 1 < tracker.root := by omega
          rw [ParentReadyTracker.gather, if_pos under, ParentReadyTracker.gatherAt, if_neg low]
      rw [outside]
      apply tracks.gatherAt first upto
      · rw [append_nil]
        exact tracks.readyDistinct (slot + 1)
      · intro block
        rw [append_nil]
        exact tracks.below_of_window start upto
    · have inner := not_isStartOfWindow (by omega) upto
      obtain ⟨distinct, member⟩ := ih (by omega) (by omega)
      apply tracks.gatherAt first upto
      · rw [tracks.noneReady inner]
        exact distinct
      · intro block
        rw [tracks.noneReady inner, nil_append, member]
        constructor
        · intro held
          exact held.2
        · intro held
          have lower := held.2.1
          exact ⟨by omega, held⟩

end Gather

/-- A new skip makes ready what was gathered below it at what is connected above it. -/
theorem Tracks.readyFor_skip (tracks : Tracks calls (calls ++ [.skipped marked]) tracker)
    (slot : Nat) (block : BlockId) : ReadyFor (calls ++ [.skipped marked]) slot block ↔ ReadyFor calls slot block ∨
        (tracker.Reached (marked + 1) slot ∧ block ∈ tracker.gather marked marked) := by
  rw [(tracks.gather (firstSlotInWindow_le marked) (le_refl marked)).2]
  simp only [Reached, Connected, tracks.skip]
  constructor
  · rintro ⟨window, above, held, between⟩
    by_cases spans : block.slot < marked ∧ marked < slot
    · refine .inr ⟨⟨window, spans.2, ?_⟩, by omega, held, by omega, ?_⟩
      · intro other low high
        exact between other (by omega) high
      · intro other low high
        exact between other low (by omega)
    · refine .inl ⟨window, above, marked_append_skip.mp held, ?_⟩
      intro other low high
      refine (skipped_append_skip.mp (between other low high)).resolve_right ?_
      omega
  · rintro (⟨window, above, held, between⟩ | ⟨⟨window, after, upper⟩, apart, held, low, lower⟩)
    · refine ⟨window, above, marked_append_skip.mpr held, ?_⟩
      intro other low high
      exact skipped_append_skip.mpr (.inl (between other low high))
    · refine ⟨window, by omega, held, ?_⟩
      intro other low high
      by_cases upto : other < marked + 1
      · exact lower other low upto
      · exact upper other (by omega) high

theorem Tracks.skipAgain (tracks : Tracks calls calls tracker) (known : (tracker.slotState marked).skip = true) :
    Tracks (calls ++ [.skipped marked]) (calls ++ [.skipped marked]) tracker ∧
      Emits calls (calls ++ [.skipped marked]) [] := by
  have held : Skipped calls marked := (tracks.skip marked).mp known
  have same : ∀ slot, Skipped (calls ++ [.skipped marked]) slot ↔ Skipped calls slot := by
    intro slot
    rw [skipped_append_skip]
    exact or_iff_left_of_imp fun equal => equal ▸ held
  have stored : Tracks calls (calls ++ [.skipped marked]) tracker := by
    refine { tracks with
      skip := ?_, fallbacks := ?_, inRange := inRange_append tracks.inRange (tracks.inRange _ held) }
    · intro slot
      rw [tracks.skip, same]
    · intro slot hash
      rw [tracks.fallbacks, marked_append_skip]
  apply stored.unchanged
  intro slot block
  simp only [ReadyFor, same, marked_append_skip]

theorem Tracks.markSkipped (tracks : Tracks calls calls tracker) (marked : Nat) :
    (∃ after out, tracker.markSkipped marked = .ok (after, out) ∧
        Tracks (calls ++ [.skipped marked]) (calls ++ [.skipped marked]) after ∧
        Emits calls (calls ++ [.skipped marked]) out) ∨
      (tracker.markSkipped marked = .error .overflow ∧ u64Max ≤ marked) := by
  simp only [ParentReadyTracker.markSkipped, if_neg (tracks.notBelowRoot)]
  by_cases known : (tracker.slotState marked).skip = true
  · rw [if_pos known]
    exact .inl ⟨tracker, [], rfl, tracks.skipAgain known⟩
  rw [if_neg known]
  by_cases inRange : marked < u64Max
  · have stored := tracks.storeSkip inRange
    obtain ⟨distinct, member⟩ := stored.gather (firstSlotInWindow_le marked) (le_refl marked)
    refine .inl (stored.spreadAfter inRange distinct ?_ stored.readyFor_skip)
    intro slot reached parent gathered ready
    have above := reached.2.1
    obtain ⟨apart, _, low, _⟩ := (member parent).mp gathered
    exact known ((tracks.skip marked).mpr (ready.2.2.2 marked (by omega) above))
  · exact .inr ⟨spreadAfter_overflow inRange, not_lt.mp inRange⟩

theorem Tracks.apply (tracks : Tracks calls calls tracker) (call : ReadinessCall) :
    (∃ after out, call.apply tracker = .ok (after, out) ∧
        Tracks (calls ++ [call]) (calls ++ [call]) after ∧ Emits calls (calls ++ [call]) out) ∨
      (call.apply tracker = .error .overflow ∧ u64Max ≤ call.slot) := by
  cases call with
  | notarFallback id => exact tracks.markNotarFallback id
  | skipped slot => exact tracks.markSkipped slot

theorem ReadyFor.append {slot : Nat} (ready : ReadyFor calls slot block)
    (later : List ReadinessCall) : ReadyFor (calls ++ later) slot block := by
  obtain ⟨window, above, held, between⟩ := ready
  refine ⟨window, above, held.imp_right (mem_append_left later), ?_⟩
  intro other low high
  exact mem_append_left later (between other low high)

/-- The calls in order on a fresh tracker, with what each of them returns. -/
def ReadinessCall.run (calls : List ReadinessCall) :
    Except Panic (ParentReadyTracker × List (List ParentReady)) :=
  runSteps (fun tracker call => call.apply tracker) .default calls

theorem ReadinessCall.run_spec (calls : List ReadinessCall) :
    match run calls with
    | .error panic => panic = .overflow ∧ ∃ call ∈ calls, u64Max ≤ call.slot
    | .ok (tracker, emitted) => Tracks calls calls tracker ∧ Emits [] calls emitted.flatten := by
  induction calls using reverseRecOn with
  | nil =>
    refine ⟨.default, nodup_nil, ?_⟩
    intro slot parent
    simp
  | append_singleton calls call ih =>
    rw [run, runSteps_append, ← run]
    cases ran : run calls with
    | error panic =>
      rw [ran] at ih
      obtain ⟨overflow, other, member, last⟩ := ih
      exact ⟨overflow, other, mem_append_left _ member, last⟩
    | ok reached =>
      rw [ran] at ih
      obtain ⟨tracks, distinct, member⟩ := ih
      obtain ⟨after, out, applied, tracks', new, fresh⟩ | ⟨failed, last⟩ := tracks.apply call
      · simp only [applied, bind, Except.bind, pure, Except.pure, flatten_append, flatten_singleton]
        refine ⟨tracks', nodup_append.mpr ⟨distinct, new, ?_⟩, ?_⟩
        · intro ⟨slot, parent⟩ old other later same
          subst same
          exact ((fresh slot parent).mp later).2 ((member slot parent).mp old).1
        · intro slot parent
          rw [mem_append, member, fresh]
          simp only [not_readyFor_nil, not_false_eq_true, and_true]
          constructor
          · rintro (old | later)
            · exact old.append [call]
            · exact later.1
          · intro ready
            by_cases before : ReadyFor calls slot parent
            · exact .inl before
            · exact .inr ⟨ready, before⟩
      · simp only [failed, bind, Except.bind, true_and]
        exact ⟨call, mem_append_right _ (mem_singleton_self call), last⟩

/-- Readiness is its definition in every run. The only abort is the overflow
past the last slot. -/
theorem parentsReady_exact (calls : List ReadinessCall) :
    match ReadinessCall.run calls with
    | .error panic => panic = .overflow ∧ ∃ call ∈ calls, u64Max ≤ call.slot
    | .ok (tracker, emitted) =>
      (∀ slot, isStartOfWindow slot = true → (tracker.parentsReady slot).Nodup ∧
        ∀ block, block ∈ tracker.parentsReady slot ↔ ReadyFor calls slot block) ∧ emitted.flatten.Nodup ∧
      (∀ slot block, ⟨slot, block⟩ ∈ emitted.flatten ↔ ReadyFor calls slot block) ∧
      ∀ earlier call, earlier ++ [call] <+: calls →
        ∃ before sofar after out, ReadinessCall.run earlier = .ok (before, sofar) ∧
          call.apply before = .ok (after, out) ∧ Emits earlier (earlier ++ [call]) out := by
  have spec := ReadinessCall.run_spec calls
  cases ran : ReadinessCall.run calls with
  | error panic =>
    rw [ran] at spec
    exact spec
  | ok reached =>
    rw [ran] at spec
    obtain ⟨tracks, distinct, member⟩ := spec
    refine ⟨?_, distinct, ?_, ?_⟩
    · intro slot _
      rw [parentsReady_eq]
      exact ⟨tracks.readyDistinct slot, tracks.ready slot⟩
    · intro slot block
      rw [member]
      exact and_iff_left not_readyFor_nil
    · intro earlier call inside
      obtain ⟨after, sofar, ranAfter⟩ := runSteps_prefix inside ran
      obtain ⟨before, sofar, out, ranBefore, applied, _⟩ := runSteps_append_eq_ok.mp ranAfter
      have earlierSpec := ReadinessCall.run_spec earlier
      rw [ReadinessCall.run, ranBefore] at earlierSpec
      obtain ⟨after', out', applied', _, emits⟩ | ⟨failed, _⟩ := earlierSpec.1.apply call
      · rw [applied] at applied'
        cases applied'
        exact ⟨before, sofar, after, out, ranBefore, applied, emits⟩
      · rw [applied] at failed
        cases failed

end Karstflow.Alpenglow
