import Mathlib.Algebra.Order.Ring.Nat
import Mathlib.Algebra.Order.Ring.Int
import Mathlib.Data.BitVec
import Mathlib.Order.Basic

namespace Karstflow.Data

/-! Fixed-width arithmetic of the source, over natural numbers.

A `u64` or `u32` is a natural number that its operations keep within bounds:
saturating operations clamp, and plain operators abort when they leave the
range, as a build with overflow checks does.
-/

def u64Max : Nat := 18446744073709551615

def u32Max : Nat := 4294967295

def u8Max : Nat := 255

/-- `u64::saturating_add`. -/
def satAdd (left right : Nat) : Nat := min (left + right) u64Max

/-- `u64::saturating_mul`. -/
def satMul (left right : Nat) : Nat := min (left * right) u64Max

/-- `u64::saturating_pow`, which is also `checked_pow(..).unwrap_or(u64::MAX)`. -/
def satPow (base exponent : Nat) : Nat := min (base ^ exponent) u64Max

theorem satAdd_le_max (left right : Nat) : satAdd left right ≤ u64Max := min_le_right _ _

theorem satAdd_eq_add (bounded : left + right ≤ u64Max) : satAdd left right = left + right := min_eq_left bounded

theorem satAdd_mono (first : left ≤ less) (second : right ≤ more) : satAdd left right ≤ satAdd less more := by
  simp only [satAdd]
  omega

theorem satPow_mono (positive : 0 < base) (ordered : low ≤ high) : satPow base low ≤ satPow base high := by
  have powers := Nat.pow_le_pow_right positive ordered
  simp only [satPow]
  omega

theorem bind_eq_ok {first : Except ε α} {next : α → Except ε β} {result : β} :
    (first >>= next) = .ok result ↔ ∃ value, first = .ok value ∧ next value = .ok result := by
  cases first with
  | error reason | ok value => simp [bind, Except.bind]

theorem map_eq_ok {first : Except ε α} {next : α → β} {result : β} :
    first.map next = .ok result ↔ ∃ value, first = .ok value ∧ next value = result := by
  cases first with
  | error reason | ok value => simp [Except.map]

theorem pure_eq_ok {value result : α} : (pure value : Except ε α) = .ok result ↔ value = result := by
  simp [pure, Except.pure]

theorem mem_mapM_ok {step : α → Except ε β} {arguments : List α} {results : List β}
    (done : arguments.mapM step = .ok results) {result : β} :
    result ∈ results ↔ ∃ argument ∈ arguments, step argument = .ok result := by
  induction arguments generalizing results with
  | nil =>
    cases done
    simp only [List.reverse_nil, List.not_mem_nil, false_and, exists_false]
  | cons head tail induction =>
    simp only [List.mapM_cons, bind_eq_ok, pure_eq_ok] at done
    obtain ⟨first, stepped, others, rest, rfl⟩ := done
    rw [List.mem_cons, induction rest, List.exists_mem_cons_iff, stepped, Except.ok.injEq, eq_comm]

theorem exists_mapM_ok {step : α → Except ε β} {arguments : List α} {results : List β}
    (done : arguments.mapM step = .ok results) {argument : α} (inside : argument ∈ arguments) :
    ∃ result ∈ results, step argument = .ok result := by
  induction arguments generalizing results with
  | nil => exact absurd inside List.not_mem_nil
  | cons head tail induction =>
    simp only [List.mapM_cons, bind_eq_ok, pure_eq_ok] at done
    obtain ⟨first, stepped, others, rest, rfl⟩ := done
    obtain rfl | later := List.mem_cons.mp inside
    · exact ⟨first, List.mem_cons_self, stepped⟩
    · obtain ⟨result, listed, found⟩ := induction rest later
      exact ⟨result, List.mem_cons_of_mem _ listed, found⟩

def demand {ε : Type} (condition : Prop) [Decidable condition] (error : ε) : Except ε Unit :=
  if condition then .ok () else .error error

@[simp] theorem demand_eq_ok [Decidable condition] : demand condition error = .ok done ↔ condition := by
  simp [demand]

def orMissing {ε α : Type} (error : ε) : Option α → Except ε α
  | some value => .ok value
  | none => .error error

@[simp] theorem orMissing_eq_ok {found : Option α} {value : α} :
    orMissing error found = .ok value ↔ found = some value := by
  cases found with
  | none | some other => simp [orMissing]

end Karstflow.Data
