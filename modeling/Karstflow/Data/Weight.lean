import Mathlib.Algebra.Order.BigOperators.Group.Finset
import Mathlib.Algebra.Order.Ring.Nat

namespace Karstflow.Data

/-! The weight of those members of a group that satisfy a predicate, and what
follows when two such parts of the group are heavy. -/

section Weigh

variable {ι : Type} {weight : ι → Nat} {members : Finset ι} {p : ι → Prop}

open Classical in
noncomputable def weigh (weight : ι → Nat) (members : Finset ι) (p : ι → Prop) : Nat :=
  ∑ member ∈ members, if p member then weight member else 0

theorem weigh_mono (weaker : ∀ member ∈ members, p member → q member) :
    weigh weight members p ≤ weigh weight members q := by
  apply Finset.sum_le_sum
  intro member inside
  by_cases holds : p member
  · rw [if_pos holds, if_pos (weaker member inside holds)]
  · rw [if_neg holds]
    exact Nat.zero_le _

theorem weigh_congr (same : ∀ member ∈ members, p member ↔ q member) :
    weigh weight members p = weigh weight members q :=
  le_antisymm (weigh_mono fun member inside => (same member inside).mp)
    (weigh_mono fun member inside => (same member inside).mpr)

theorem weigh_eq_zero (never : ∀ member ∈ members, ¬ p member) : weigh weight members p = 0 :=
  Finset.sum_eq_zero fun member inside => if_neg (never member inside)

theorem exists_of_weigh_pos (positive : 0 < weigh weight members p) : ∃ member ∈ members, p member := by
  by_contra none
  apply ne_of_gt positive
  apply weigh_eq_zero
  intro member inside holds
  exact none ⟨member, inside, holds⟩

theorem weigh_or (apart : ∀ member ∈ members, p member → ¬ q member) :
    weigh weight members (fun member => p member ∨ q member) = weigh weight members p + weigh weight members q := by
  rw [weigh, weigh, weigh, ← Finset.sum_add_distrib]
  apply Finset.sum_congr rfl
  intro member inside
  by_cases first : p member
  · rw [if_pos (.inl first), if_pos first, if_neg (apart member inside first), add_zero]
  · by_cases second : q member
    · rw [if_pos (.inr second), if_neg first, if_pos second, zero_add]
    · rw [if_neg (not_or.mpr ⟨first, second⟩), if_neg first, if_neg second]

theorem weigh_or_le (weight : ι → Nat) (members : Finset ι) (p q : ι → Prop) :
    weigh weight members (fun member => p member ∨ q member) ≤ weigh weight members p + weigh weight members q := by
  have apart := @weigh_or _ weight members p (fun member => q member ∧ ¬ p member)
    fun member _ holds both => both.2 holds
  calc weigh weight members (fun member => p member ∨ q member)
      = weigh weight members (fun member => p member ∨ (q member ∧ ¬ p member)) := by
        apply weigh_congr
        intro member _
        by_cases first : p member <;> simp [first]
    _ = weigh weight members p + weigh weight members (fun member => q member ∧ ¬ p member) := apart
    _ ≤ weigh weight members p + weigh weight members q :=
        Nat.add_le_add_left (weigh_mono fun _ _ both => both.1) _

theorem weigh_add_le (apart : ∀ member ∈ members, p member → ¬ q member)
    (first : ∀ member ∈ members, p member → r member) (second : ∀ member ∈ members, q member → r member) :
    weigh weight members p + weigh weight members q ≤ weigh weight members r := by
  rw [← weigh_or apart]
  apply weigh_mono
  intro member inside holds
  exact holds.elim (first member inside) (second member inside)

theorem weigh_insert (inside : new ∈ members) (fresh : ¬ p new) :
    weigh weight members (fun member => member = new ∨ p member) = weight new + weigh weight members p := by
  have apart : ∀ member ∈ members, member = new → ¬ p member := by
    rintro member _ rfl
    exact fresh
  have single : weigh weight members (fun member => member = new) = weight new := by
    rw [weigh, Finset.sum_eq_single_of_mem new inside fun other _ different => if_neg different, if_pos rfl]
  rw [weigh_or apart, single]

theorem weigh_split (weight : ι → Nat) (members : Finset ι) (p q : ι → Prop) : weigh weight members p =
      weigh weight members (fun member => p member ∧ q member) +
        weigh weight members (fun member => p member ∧ ¬ q member) := by
  rw [← weigh_or fun member _ both neither => neither.2 both.2]
  apply weigh_congr
  intro member _
  by_cases second : q member <;> simp [second]

end Weigh

theorem sum_map_eq_range (list : List α) :
    (list.map value).sum = ∑ position ∈ .range list.length, (list[position]?.map value).getD 0 := by
  induction list using List.reverseRecOn with
  | nil => rfl
  | append_singleton list last ih =>
    rw [List.map_append, List.sum_append, ih, List.length_append, List.length_singleton, Finset.sum_range_succ]
    congr 1
    · apply Finset.sum_congr rfl
      intro position below
      rw [List.getElem?_append_left (Finset.mem_range.mp below)]
    · simp

end Karstflow.Data
