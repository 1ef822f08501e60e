import Karstflow.Data.Table
import Mathlib.Algebra.Order.Field.Rat

namespace Karstflow.Consensus

open Data

inductive CommitmentLevel where
  | processed
  | confirmed
  | finalized
deriving Repr, DecidableEq

def CommitmentLevel.rank : CommitmentLevel → Nat
  | processed => 0
  | confirmed => 1
  | finalized => 2

inductive ConfirmationStatus where
  | unconfirmed
  | propagated
  | duplicateConfirmed
  | optimisticallyConfirmed
  | superConfirmed
deriving Repr, DecidableEq

namespace ConfirmationStatus

def rank : ConfirmationStatus → Nat
  | unconfirmed => 0
  | propagated => 1
  | duplicateConfirmed => 2
  | optimisticallyConfirmed => 3
  | superConfirmed => 4

/-- Ratios are exact here where the source has `f64`. -/
def fromStakeRatio (ratio : ℚ) : ConfirmationStatus :=
  if 4 / 5 ≤ ratio then superConfirmed
  else if 2 / 3 ≤ ratio then optimisticallyConfirmed
  else if 52 / 100 ≤ ratio then duplicateConfirmed
  else if 1 / 3 ≤ ratio then propagated
  else unconfirmed

end ConfirmationStatus

structure ConfirmationEvent where
  slot : Nat
  status : ConfirmationStatus
  stakeRatio : ℚ
deriving DecidableEq

def stakeRatio (stake totalStake : Nat) : ℚ := if totalStake = 0 then 0 else stake / totalStake

structure SlotCommitment where
  slot : Nat
  level : CommitmentLevel
  confirmationStatus : ConfirmationStatus
  stake : Nat
  totalStake : Nat
  confirmationDepth : Nat
  propagatedNotified : Bool
  duplicateConfirmedNotified : Bool
  optimisticallyConfirmedNotified : Bool
  superConfirmedNotified : Bool

namespace SlotCommitment

def new (slot stake totalStake : Nat) : SlotCommitment where
  slot := slot
  level := .processed
  confirmationStatus := .fromStakeRatio (stakeRatio stake totalStake)
  stake := stake
  totalStake := totalStake
  confirmationDepth := 0
  propagatedNotified := false
  duplicateConfirmedNotified := false
  optimisticallyConfirmedNotified := false
  superConfirmedNotified := false

/-- The event for one threshold, unless it was sent before. -/
def crossing (slot : Nat) (ratio : ℚ) (reached threshold : ConfirmationStatus) (notified : Bool) :
    List ConfirmationEvent :=
  if threshold.rank ≤ reached.rank ∧ notified = false then
    [{ slot, status := threshold, stakeRatio := ratio }]
  else []

def updateStake (commitment : SlotCommitment) (stake totalStake : Nat) :
    SlotCommitment × List ConfirmationEvent :=
  let ratio := stakeRatio stake totalStake
  let reached := .fromStakeRatio ratio
  let passed := fun threshold : ConfirmationStatus => decide (threshold.rank ≤ reached.rank)
  let event := crossing commitment.slot ratio reached
  ({ commitment with
      stake
      totalStake
      propagatedNotified := commitment.propagatedNotified || passed .propagated
      duplicateConfirmedNotified := commitment.duplicateConfirmedNotified || passed .duplicateConfirmed
      optimisticallyConfirmedNotified :=
        commitment.optimisticallyConfirmedNotified || passed .optimisticallyConfirmed
      superConfirmedNotified := commitment.superConfirmedNotified || passed .superConfirmed
      confirmationStatus := reached },
    event .propagated commitment.propagatedNotified ++
      event .duplicateConfirmed commitment.duplicateConfirmedNotified ++
      event .optimisticallyConfirmed commitment.optimisticallyConfirmedNotified ++
      event .superConfirmed commitment.superConfirmedNotified)

end SlotCommitment

/-- The part of the tracker that stake updates read and write. -/
structure CommitmentTracker where
  commitments : Table Nat SlotCommitment
  processedSlots : List Nat
  confirmedSlots : List Nat
  highestProcessed : Option Nat
  highestConfirmed : Option Nat

namespace CommitmentTracker

def new : CommitmentTracker where
  commitments := .empty
  processedSlots := []
  confirmedSlots := []
  highestProcessed := none
  highestConfirmed := none

def raise (highest : Option Nat) (slot : Nat) : Option Nat :=
  some ((highest.map fun held => max held slot).getD slot)

def markProcessed (tracker : CommitmentTracker) (slot stake totalStake : Nat) : CommitmentTracker :=
  let commitment := (tracker.commitments.get slot).getD (.new slot stake totalStake)
  { tracker with
    processedSlots := tracker.processedSlots.insert slot
    commitments := tracker.commitments.insert slot { commitment with stake, totalStake }
    highestProcessed := raise tracker.highestProcessed slot }

/-- Update a tracked commitment and promote it once it is optimistically confirmed. -/
def updateTracked (tracker : CommitmentTracker) (slot stake totalStake : Nat)
    (commitment : SlotCommitment) : CommitmentTracker × List ConfirmationEvent :=
  let (updated, events) := commitment.updateStake stake totalStake
  if ConfirmationStatus.optimisticallyConfirmed.rank ≤ updated.confirmationStatus.rank ∧
      updated.level.rank < CommitmentLevel.confirmed.rank then
    ({ tracker with
        commitments := tracker.commitments.insert slot { updated with level := .confirmed }
        confirmedSlots := tracker.confirmedSlots.insert slot
        highestConfirmed := raise tracker.highestConfirmed slot }, events)
  else ({ tracker with commitments := tracker.commitments.insert slot updated }, events)

def updateStake (tracker : CommitmentTracker) (slot stake totalStake : Nat) :
    CommitmentTracker × List ConfirmationEvent :=
  match tracker.commitments.get slot with
  | some commitment => tracker.updateTracked slot stake totalStake commitment
  | none =>
    let created := tracker.markProcessed slot stake totalStake
    match created.commitments.get slot with
    | some commitment => created.updateTracked slot stake totalStake commitment
    | none => (created, [])

end CommitmentTracker

end Karstflow.Consensus
