import Karstflow.Data.Machine
import Mathlib.Data.List.Induction
import Mathlib.Data.List.Infix

namespace Karstflow.Data

open List

/-! Runs as lists of steps.

A run is a list of inputs, and the state after some of them is a function of
the prefix taken so far. A property of a step is a relation between that
prefix and the next input.
-/

variable {α : Type} {steps taken : List α}

theorem forall_step_nil {Ok : List α → α → Prop} :
    (∀ earlier next, earlier ++ [next] <+: ([] : List α) → Ok earlier next) ↔ True := by
  simp

theorem forall_step_cons {Ok : List α → α → Prop} :
    (∀ earlier next, earlier ++ [next] <+: first :: steps → Ok earlier next) ↔ Ok [] first ∧
        ∀ earlier next, earlier ++ [next] <+: steps → Ok (first :: earlier) next := by
  constructor
  · intro each
    exact ⟨each [] first ⟨steps, rfl⟩,
      fun earlier next inside => each (first :: earlier) next (prefix_cons_inj first |>.mpr inside)⟩
  · intro both earlier next inside
    cases earlier with
    | nil =>
      obtain ⟨rfl, _⟩ := cons_prefix_cons.mp inside
      exact both.1
    | cons head earlier =>
      obtain ⟨rfl, rest⟩ := cons_prefix_cons.mp inside
      exact both.2 earlier next rest

theorem forall_step_append {Ok : List α → α → Prop} :
    (∀ earlier next, earlier ++ [next] <+: taken ++ [last] → Ok earlier next) ↔
      (∀ earlier next, earlier ++ [next] <+: taken → Ok earlier next) ∧ Ok taken last := by
  constructor
  · intro each
    exact ⟨fun earlier next inside => each earlier next (inside.trans (prefix_append taken [last])),
      each taken last (prefix_refl _)⟩
  · intro both earlier next inside
    obtain whole | within := prefix_concat_iff.mp inside
    · obtain ⟨rfl, same⟩ := append_inj' whole rfl
      exact (cons.inj same).1 ▸ both.2
    · exact both.1 earlier next within

section Invariant

variable {Inv Good : List α → Prop} {Ok : List α → α → Prop}

/-- What holds at the start and is kept by every allowed step holds along the run. -/
theorem invariant_of_steps (start : Inv [])
    (step : ∀ {earlier next}, earlier ++ [next] <+: steps → Inv earlier → Ok earlier next →
      Inv (earlier ++ [next])) (allowed : ∀ earlier next, earlier ++ [next] <+: taken → Ok earlier next)
    (inside : taken <+: steps) : Inv taken := by
  induction taken using reverseRecOn with
  | nil => exact start
  | append_singleton earlier next ih =>
    obtain ⟨before, now⟩ := forall_step_append.mp allowed
    exact step inside (ih before ((prefix_append earlier [next]).trans inside)) now

/-- A run is good at every point exactly when all its steps are allowed, if
allowed steps keep an invariant under which goodness and permission agree. -/
theorem good_iff_allowed (start : Inv [])
    (step : ∀ {earlier next}, earlier ++ [next] <+: steps → Inv earlier → Ok earlier next →
      Inv (earlier ++ [next])) (sound : ∀ {taken}, taken <+: steps → Inv taken → Good taken)
    (complete : ∀ {earlier next}, earlier ++ [next] <+: steps → Inv earlier →
      Good (earlier ++ [next]) → Ok earlier next) : (∀ taken, taken <+: steps → Good taken) ↔
      ∀ earlier next, earlier ++ [next] <+: steps → Ok earlier next := by
  constructor
  · intro good
    -- strengthen to prefixes, so that the invariant is known before a step
    suffices prefixes : ∀ taken, taken <+: steps →
        ∀ earlier next, earlier ++ [next] <+: taken → Ok earlier next from
      prefixes steps (prefix_refl _)
    intro taken
    induction taken using reverseRecOn with
    | nil =>
      intro _ earlier next inside
      simp at inside
    | append_singleton before last ih =>
      intro inside
      have shorter := (prefix_append before [last]).trans inside
      have allowed := ih shorter
      exact forall_step_append.mpr
        ⟨allowed, complete inside (invariant_of_steps start step allowed shorter) (good _ inside)⟩
  · intro allowed taken inside
    exact sound inside (invariant_of_steps start step
      (fun earlier next within => allowed earlier next (within.trans inside)) inside)

end Invariant

section Runs

variable {σ ι ω ε : Type} {step : σ → ι → Except ε (σ × ω)} {start : σ} {inputs : List ι} {input : ι}

/-- Feed the inputs to an aborting step in order, and collect its answers. -/
def runSteps (step : σ → ι → Except ε (σ × ω)) (start : σ) (inputs : List ι) : Except ε (σ × List ω) :=
  inputs.foldlM
    (fun (state, answers) input => do
      let (state, answer) ← step state input
      return (state, answers ++ [answer]))
    (start, [])

theorem runSteps_append (inputs : List ι) (input : ι) :
    runSteps step start (inputs ++ [input]) = do
      let (state, answers) ← runSteps step start inputs
      let (state, answer) ← step state input
      return (state, answers ++ [answer]) := by
  simp only [runSteps, foldlM_append, foldlM_cons, foldlM_nil, bind_pure]

theorem runSteps_append_eq_ok : runSteps step start (inputs ++ [input]) = .ok (state, answers) ↔
      ∃ before earlier answer, runSteps step start inputs = .ok (before, earlier) ∧
        step before input = .ok (state, answer) ∧ answers = earlier ++ [answer] := by
  rw [runSteps_append, bind_eq_ok]
  constructor
  · rintro ⟨⟨before, earlier⟩, ran, rest⟩
    obtain ⟨⟨after, answer⟩, stepped, done⟩ := bind_eq_ok.mp rest
    cases done
    exact ⟨before, earlier, answer, ran, stepped, rfl⟩
  · rintro ⟨before, earlier, answer, ran, stepped, rfl⟩
    exact ⟨(before, earlier), ran, bind_eq_ok.mpr ⟨(state, answer), stepped, rfl⟩⟩

theorem runSteps_prefix (inside : earlier <+: inputs) (ran : runSteps step start inputs = .ok reached) :
    ∃ before answers, runSteps step start earlier = .ok (before, answers) := by
  induction inputs using reverseRecOn generalizing reached with
  | nil =>
    rw [prefix_nil.mp inside]
    exact ⟨_, _, ran⟩
  | append_singleton inputs last ih =>
    obtain whole | within := prefix_concat_iff.mp inside
    · rw [whole]
      exact ⟨_, _, ran⟩
    · obtain ⟨before, answers, answer, ranBefore, _⟩ := runSteps_append_eq_ok.mp ran
      exact ih within ranBefore

end Runs

end Karstflow.Data
