import Mathlib.Data.List.Nodup
import Mathlib.Data.List.Perm.Subperm

namespace Karstflow.Data

/-! Walks along a partial successor function.

A loop that follows parent pointers visits a list of elements. Given enough
fuel the list no longer depends on it, and satisfies the loop's own equation.
Fuel is enough as soon as the successors are ranked and only the elements of a
finite list have one.
-/

variable {α : Type} {next : α → Option α}

/-- What `while let Some(x) = current { ..; current = next(x) }` visits, cut off
after `fuel` rounds. -/
def walk (next : α → Option α) : Nat → Option α → List α
  | 0, _ => []
  | _ + 1, none => []
  | fuel + 1, some element => element :: walk next fuel (next element)

@[simp] theorem walk_none : walk next fuel none = [] := by
  cases fuel <;> rfl

theorem walk_stable (short : (walk next fuel start).length < fuel) :
    walk next (fuel + 1) start = walk next fuel start := by
  induction fuel generalizing start with
  | zero => simp at short
  | succ fuel ih =>
    cases start with
    | none => rfl
    | some element =>
      simp only [walk, List.length_cons] at short
      simp only [walk, List.cons.injEq, true_and]
      exact ih (by omega)

theorem walk_ranked {rank : α → Nat} (descends : ∀ {a b}, next a = some b → rank b < rank a)
    (fuel : Nat) (start : Option α) : (walk next fuel start).Pairwise (fun earlier later => rank later < rank earlier) ∧
      ∀ element ∈ start, ∀ visited ∈ walk next fuel start, rank visited ≤ rank element := by
  induction fuel generalizing start with
  | zero => simp [walk]
  | succ fuel ih =>
    cases start with
    | none => simp
    | some element =>
      obtain ⟨ordered, below⟩ := ih (next element)
      have later : ∀ visited ∈ walk next fuel (next element), rank visited < rank element := by
        intro visited member
        cases following : next element with
        | none => simp [following] at member
        | some successor =>
          have bounded := below successor following visited member
          have drop := descends following
          omega
      refine ⟨List.Pairwise.cons later ordered, ?_⟩
      intro first same visited member
      cases Option.mem_some.mp same
      obtain here | there := List.mem_cons.mp member
      · exact Nat.le_of_eq (congrArg rank here)
      · exact Nat.le_of_lt (later visited there)

theorem walk_nodup {rank : α → Nat} (descends : ∀ {a b}, next a = some b → rank b < rank a)
    (fuel : Nat) (start : Option α) : (walk next fuel start).Nodup := by
  refine (walk_ranked descends fuel start).1.imp ?_
  intro earlier later drop same
  rw [same] at drop
  exact Nat.lt_irrefl _ drop

theorem dropLast_walk_subset (inside : ∀ {a b}, next a = some b → a ∈ domain)
    (fuel : Nat) (start : Option α) : (walk next fuel start).dropLast ⊆ domain := by
  induction fuel generalizing start with
  | zero => simp [walk]
  | succ fuel ih =>
    cases start with
    | none => simp
    | some element =>
      intro visited member
      simp only [walk] at member
      cases following : next element with
      | none => simp [following] at member
      | some successor =>
        rw [following] at member
        cases fuel with
        | zero => simp [walk] at member
        | succ fuel =>
          simp only [walk, List.dropLast_cons_of_ne_nil (List.cons_ne_nil _ _), List.mem_cons] at member
          obtain here | there := member
          · exact here ▸ inside following
          · exact ih (some successor) (by simpa only [walk] using there)

section Bounded

variable {rank : α → Nat} {domain : List α}

section

variable (descends : ∀ {a b}, next a = some b → rank b < rank a) (inside : ∀ {a b}, next a = some b → a ∈ domain)

include descends inside

theorem walk_length_le (fuel : Nat) (start : Option α) : (walk next fuel start).length ≤ domain.length + 1 := by
  have distinct : (walk next fuel start).dropLast.Nodup :=
    (walk_nodup descends fuel start).sublist (List.dropLast_sublist _)
  have bounded := (distinct.subperm (dropLast_walk_subset inside fuel start)).length_le
  rw [List.length_dropLast] at bounded
  omega

theorem walk_some (element : α) : walk next (domain.length + 2) (some element) =
      element :: walk next (domain.length + 2) (next element) := by
  have short := walk_length_le descends inside (domain.length + 2) (some element)
  have unfolded : walk next (domain.length + 2) (some element) =
      element :: walk next (domain.length + 1) (next element) := rfl
  rw [unfolded, List.length_cons] at short
  have stable : walk next (domain.length + 2) (next element) =
      walk next (domain.length + 1) (next element) := walk_stable (by omega)
  rw [unfolded, stable]

end

end Bounded

end Karstflow.Data
