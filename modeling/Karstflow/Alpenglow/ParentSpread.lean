import Karstflow.Alpenglow.ParentReadyTracker
import Mathlib.Data.List.Infix

namespace Karstflow.Alpenglow

open Data List

/-! # The forward loop

Both marking functions hand a list of parents to the window starts that skipped
slots connect to the marked one.
-/

namespace ParentReadyTracker

variable {tracker after : ParentReadyTracker} {parents : List BlockId}

@[simp] theorem slotState_setState (tracker : ParentReadyTracker) (slot : Nat)
    (state : ParentReadyState) (other : Nat) : (tracker.setState slot state).slotState other =
      if other = slot then state else tracker.slotState other := by
  simp only [slotState, setState, Table.get_insert]
  split <;> rfl

theorem slotState_default : default.slotState slot =
      if slot = 0 then .genesis 0 else .new slot := by
  simp only [slotState, default, Table.get_insert]
  split <;> rfl

theorem parentsReady_eq : tracker.parentsReady slot = (tracker.slotState slot).readyIds := by
  simp only [parentsReady, slotState]
  cases tracker.states.get slot <;> rfl

theorem foldlM_addToReady (distinct : parents.Nodup) (fresh : ∀ parent ∈ parents, parent ∉ state.readyIds) :
    parents.foldlM ParentReadyState.addToReady state = .ok { state with readyIds := state.readyIds ++ parents } := by
  induction parents generalizing state with
  | nil => simp [pure, Except.pure]
  | cons first rest ih =>
    obtain ⟨absent, restDistinct⟩ := nodup_cons.mp distinct
    have added : state.addToReady first =
        .ok { state with readyIds := state.readyIds ++ [first] } := by
      rw [ParentReadyState.addToReady, if_neg (fresh first (by simp))]
    rw [foldlM_cons, added]
    refine (ih restDistinct ?_).trans (by simp)
    intro parent member
    simp only [mem_append, mem_singleton, not_or]
    exact ⟨fresh parent (by simp [member]), fun same => absent (same ▸ member)⟩

/-- Every slot from `start` up to `slot` exclusively is skipped. -/
def Connected (tracker : ParentReadyTracker) (start slot : Nat) : Prop :=
  start ≤ slot ∧ ∀ between, start ≤ between → between < slot → (tracker.slotState between).skip = true

/-- The window starts to which a forward loop from `start` comes. -/
def Reached (tracker : ParentReadyTracker) (start slot : Nat) : Prop :=
  isStartOfWindow slot = true ∧ tracker.Connected start slot

structure Spreads (tracker after : ParentReadyTracker) (parents : List BlockId) (start : Nat)
    (out : List ParentReady) : Prop where
  root : after.root = tracker.root
  skip : ∀ slot, (after.slotState slot).skip = (tracker.slotState slot).skip
  fallbacks : ∀ slot, (after.slotState slot).notarFallbacks = (tracker.slotState slot).notarFallbacks
  gained : ∀ slot, tracker.Reached start slot →
    (after.slotState slot).readyIds = (tracker.slotState slot).readyIds ++ parents
  kept : ∀ slot, ¬ tracker.Reached start slot →
    (after.slotState slot).readyIds = (tracker.slotState slot).readyIds
  distinct : out.Nodup
  mem : ∀ slot parent, ⟨slot, parent⟩ ∈ out ↔ tracker.Reached start slot ∧ parent ∈ parents

theorem connected_self (tracker : ParentReadyTracker) (slot : Nat) : tracker.Connected slot slot :=
  ⟨le_refl _, fun _ low high => absurd high (not_lt.mpr low)⟩

theorem connected_stuck (open_ : (tracker.slotState start).skip = false) :
    tracker.Connected start slot ↔ slot = start := by
  constructor
  · rintro ⟨below, skipped⟩
    by_contra other
    have skip := skipped start (le_refl _) (by omega)
    rw [open_] at skip
    cases skip
  · rintro rfl
    exact connected_self tracker slot

theorem connected_step (skip : (tracker.slotState start).skip = true) :
    tracker.Connected start slot ↔ slot = start ∨ tracker.Connected (start + 1) slot := by
  constructor
  · rintro ⟨below, skipped⟩
    by_cases here : slot = start
    · exact .inl here
    · exact .inr ⟨by omega, fun between low high => skipped between (by omega) high⟩
  · rintro (rfl | ⟨below, skipped⟩)
    · exact connected_self tracker slot
    · refine ⟨by omega, ?_⟩
      intro between low high
      by_cases here : between = start
      · rw [here, skip]
      · exact skipped between (by omega) high

structure Visited (tracker after : ParentReadyTracker) (parents : List BlockId) (slot : Nat)
    (out : List ParentReady) : Prop where
  root : after.root = tracker.root
  skip : ∀ other, (after.slotState other).skip = (tracker.slotState other).skip
  fallbacks : ∀ other, (after.slotState other).notarFallbacks = (tracker.slotState other).notarFallbacks
  ready : ∀ other, (after.slotState other).readyIds = (tracker.slotState other).readyIds ++
    if isStartOfWindow slot = true ∧ other = slot then parents else []
  distinct : out.Nodup
  mem : ∀ other parent, ⟨other, parent⟩ ∈ out ↔ (isStartOfWindow slot = true ∧ other = slot) ∧ parent ∈ parents

theorem visit_ok (distinct : parents.Nodup)
    (fresh : isStartOfWindow slot = true → ∀ parent ∈ parents, parent ∉ (tracker.slotState slot).readyIds) :
    ∃ after out, tracker.visit parents slot = .ok (after, out) ∧ Visited tracker after parents slot out := by
  by_cases window : isStartOfWindow slot = true
  · refine ⟨tracker.setState slot
      { tracker.slotState slot with readyIds := (tracker.slotState slot).readyIds ++ parents },
      parents.map (.mk slot), ?_, rfl, ?_, ?_, ?_, ?_, ?_⟩
    · rw [visit, if_pos window, addAllToReady, foldlM_addToReady distinct (fresh window)]
      rfl
    · intro other
      by_cases same : other = slot <;> simp [same]
    · intro other
      by_cases same : other = slot <;> simp [same]
    · intro other
      by_cases same : other = slot <;> simp [same, window]
    · exact distinct.map fun _ _ same => (ParentReady.mk.inj same).2
    · intro other parent
      simp only [mem_map, ParentReady.mk.injEq, window, true_and]
      constructor
      · rintro ⟨_, member, rfl, rfl⟩
        exact ⟨rfl, member⟩
      · rintro ⟨rfl, member⟩
        exact ⟨parent, member, rfl, rfl⟩
  · exact ⟨tracker, [], by rw [visit, if_neg window], rfl, fun _ => rfl, fun _ => rfl, by simp [window],
      nodup_nil, by simp [window]⟩

section

variable
  (visited : Visited tracker middle parents slot out)
include visited

theorem Visited.spreads_last (stuck : (tracker.slotState slot).skip = false) :
    Spreads tracker middle parents slot out := by
  have reached : ∀ other, tracker.Reached slot other ↔ isStartOfWindow slot = true ∧ other = slot := by
    intro other
    rw [Reached, connected_stuck stuck]
    constructor
    · rintro ⟨window, rfl⟩
      exact ⟨window, rfl⟩
    · rintro ⟨window, rfl⟩
      exact ⟨window, rfl⟩
  refine ⟨visited.root, visited.skip, visited.fallbacks, ?_, ?_, visited.distinct, ?_⟩
  · intro other held
    rw [visited.ready, if_pos ((reached other).mp held)]
  · intro other missed
    rw [visited.ready, if_neg fun here => missed ((reached other).mpr here), append_nil]
  · intro other parent
    rw [visited.mem, reached]

theorem Visited.spreads_next (skip : (tracker.slotState slot).skip = true)
    (rest : Spreads middle after parents (slot + 1) later) : Spreads tracker after parents slot (out ++ later) := by
  have beyond : ∀ other, middle.Reached (slot + 1) other ↔ tracker.Reached (slot + 1) other := by
    intro other
    simp only [Reached, Connected, visited.skip]
  have reached : ∀ other, tracker.Reached slot other ↔
      (isStartOfWindow slot = true ∧ other = slot) ∨ tracker.Reached (slot + 1) other := by
    intro other
    simp only [Reached, connected_step skip]
    constructor
    · rintro ⟨window, rfl | connected⟩
      · exact .inl ⟨window, rfl⟩
      · exact .inr ⟨window, connected⟩
    · rintro (⟨window, rfl⟩ | ⟨window, connected⟩)
      · exact ⟨window, .inl rfl⟩
      · exact ⟨window, .inr connected⟩
  have apart : ∀ other, tracker.Reached (slot + 1) other → other ≠ slot := by
    rintro other ⟨-, low, -⟩
    omega
  refine ⟨rest.root.trans visited.root, fun other => (rest.skip other).trans (visited.skip other),
    fun other => (rest.fallbacks other).trans (visited.fallbacks other), ?_, ?_, ?_, ?_⟩
  · intro other held
    obtain here | further := (reached other).mp held
    · rw [rest.kept other fun held => apart other ((beyond other).mp held) here.2, visited.ready, if_pos here]
    · rw [rest.gained other ((beyond other).mpr further), visited.ready, if_neg fun here => apart other further here.2,
        append_nil]
  · intro other missed
    rw [reached, not_or] at missed
    rw [rest.kept other fun held => missed.2 ((beyond other).mp held), visited.ready, if_neg missed.1, append_nil]
  · rw [nodup_append]
    refine ⟨visited.distinct, rest.distinct, ?_⟩
    rintro ⟨low, parent⟩ early _ late rfl
    exact apart low ((beyond low).mp ((rest.mem low parent).mp late).1) ((visited.mem low parent).mp early).1.2
  · intro other parent
    rw [mem_append, visited.mem, rest.mem, beyond, reached, or_and_right]

end

theorem spread_spec (distinct : parents.Nodup) {remaining : Nat} (last : slot + remaining = u64Max)
    (fresh : ∀ other, tracker.Reached slot other → ∀ parent ∈ parents, parent ∉ (tracker.slotState other).readyIds) :
    (∃ after out, spread parents remaining tracker slot = .ok (after, out) ∧
        Spreads tracker after parents slot out) ∨ (spread parents remaining tracker slot = .error .overflow ∧
        (tracker.slotState u64Max).skip = true) := by
  induction remaining generalizing tracker slot with
  | zero =>
    rcases visit_ok distinct fun window => fresh slot ⟨window, connected_self tracker slot⟩ with
      ⟨middle, out, ran, visited⟩
    cases skip : (tracker.slotState slot).skip with
    | false =>
      refine .inl ⟨middle, out, ?_, visited.spreads_last skip⟩
      simp [spread, ran, visited.skip, skip, bind, Except.bind]
    | true =>
      refine .inr ⟨?_, by rw [← last, add_zero, skip]⟩
      simp [spread, ran, visited.skip, skip, bind, Except.bind]
  | succ remaining ih =>
    rcases visit_ok distinct fun window => fresh slot ⟨window, connected_self tracker slot⟩ with
      ⟨middle, out, ran, visited⟩
    cases skip : (tracker.slotState slot).skip with
    | false =>
      refine .inl ⟨middle, out, ?_, visited.spreads_last skip⟩
      simp [spread, ran, visited.skip, skip, bind, Except.bind]
    | true =>
      have freshNext : ∀ other, middle.Reached (slot + 1) other →
          ∀ parent ∈ parents, parent ∉ (middle.slotState other).readyIds := by
        intro other reached
        have different : other ≠ slot := by
          have low := reached.2.1
          omega
        rw [visited.ready, if_neg fun here => different here.2, append_nil]
        apply fresh other
        refine ⟨reached.1, (connected_step skip).mpr (.inr ?_)⟩
        have connected := reached.2
        simp only [Connected, visited.skip] at connected
        exact connected
      obtain ⟨final, later, spread', rest⟩ | ⟨overflowed, lastSkip⟩ := ih (by omega) freshNext
      · refine .inl ⟨final, out ++ later, ?_, visited.spreads_next skip rest⟩
        simp [spread, ran, visited.skip, skip, spread', bind, Except.bind]
      · refine .inr ⟨?_, by rw [← visited.skip, lastSkip]⟩
        simp [spread, ran, visited.skip, skip, overflowed, bind, Except.bind]

end ParentReadyTracker

end Karstflow.Alpenglow
