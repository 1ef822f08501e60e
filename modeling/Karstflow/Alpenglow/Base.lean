import Karstflow.Data.Machine
import Karstflow.Data.Table

namespace Karstflow.Alpenglow

open Data

abbrev BlockHash := BitVec 256

instance blockHashLawful : LawfulBEq BlockHash := inferInstance

def genesisBlockHash : BlockHash := 0

def slotsPerWindow : Nat := 4

def slotsPerEpoch : Nat := 18000

structure BlockId where
  slot : Nat
  hash : BlockHash
deriving Repr, DecidableEq

def BlockId.genesis (slot : Nat) : BlockId := { slot, hash := genesisBlockHash }

/-- The ways in which the engine aborts: an overflow, or a failed assertion,
named by its text where it has one. -/
inductive Panic where
  | overflow
  | alreadyReady (slot : Nat)
  | safetyViolation
  | conflictingParent
  | duplicateSigner
  | parentNotKnown
  | noFinalCert
  -- an `expect` on the result of a certificate constructor
  | badCert
  | outOfBounds
  | assertion
deriving Repr, DecidableEq

def assert (condition : Bool) (panic : Panic) : Except Panic Unit :=
  if condition then .ok () else .error panic

theorem assert_eq_ok {panic : Panic} : assert condition panic = .ok done ↔ condition = true := by
  cases condition <;> simp [assert]

def addU64 (left right : Nat) : Except Panic Nat :=
  if left + right ≤ u64Max then .ok (left + right) else .error .overflow

def subU64 (left right : Nat) : Except Panic Nat :=
  if right ≤ left then .ok (left - right) else .error .overflow

theorem addU64_eq_ok : addU64 left right = .ok sum ↔ sum = left + right ∧ left + right ≤ u64Max := by
  rw [addU64]
  split
  · next bounded => simp [bounded, eq_comm]
  · next bounded => simp [bounded]

theorem subU64_eq_ok : subU64 left right = .ok difference ↔ difference = left - right ∧ right ≤ left := by
  rw [subU64]
  split
  · next ordered => simp [ordered, eq_comm]
  · next ordered => simp [ordered]

def fractionIsMet (stake total numer denom : Nat) : Bool := total * numer ≤ stake * denom

def isWeakestQuorum (stake total : Nat) : Bool := fractionIsMet stake total 1 5

def isWeakQuorum (stake total : Nat) : Bool := fractionIsMet stake total 2 5

def isQuorum (stake total : Nat) : Bool := fractionIsMet stake total 3 5

def isStrongQuorum (stake total : Nat) : Bool := fractionIsMet stake total 4 5

def firstSlotInWindow (slot : Nat) : Nat := slot / slotsPerWindow * slotsPerWindow

/-- The sum is taken before one is subtracted, so the last window overflows. -/
def lastSlotInWindow (slot : Nat) : Except Panic Nat := do
  let past ← addU64 (firstSlotInWindow slot) slotsPerWindow
  return past - 1

def isStartOfWindow (slot : Nat) : Bool := slot % slotsPerWindow = 0

theorem firstSlotInWindow_le (slot : Nat) : firstSlotInWindow slot ≤ slot :=
  Nat.div_mul_le_self slot slotsPerWindow

theorem isStartOfWindow_iff : isStartOfWindow slot = true ↔ slot % 4 = 0 := by
  rw [isStartOfWindow, decide_eq_true_iff]
  rfl

theorem isStartOfWindow_first (slot : Nat) : isStartOfWindow (firstSlotInWindow slot) = true := by
  rw [isStartOfWindow_iff]
  exact Nat.mul_mod_left _ _

theorem not_isStartOfWindow (above : firstSlotInWindow marked < slot)
    (below : slot ≤ marked) : ¬ isStartOfWindow slot = true := by
  rw [isStartOfWindow_iff]
  simp only [firstSlotInWindow, slotsPerWindow] at above
  omega

end Karstflow.Alpenglow
