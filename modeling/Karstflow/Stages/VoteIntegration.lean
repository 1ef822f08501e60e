import Karstflow.Consensus.Tower
import Karstflow.Consensus.ForkChoice

namespace Karstflow.Stages

open Data Consensus

inductive DecisionReason where
  | emptyTower
  | sameFork
  | switchApproved
  | lockedOut
  | switchDenied
  | noValidFork
  | notPropagated
deriving Repr, DecidableEq

structure ConsensusDecision where
  resetSlot : Nat
  voteSlot : Option Nat
  newRoot : Option Nat
  reason : DecisionReason
deriving Repr, DecidableEq

/-- The branches of `run_consensus_decision` on a tower with a last vote. -/
def decideFork (tower : Tower) (choice : ForkChoice) (isAncestor : Nat → Nat → Bool)
    (lastVote bestSlot : Nat) : ConsensusDecision :=
  let isSameFork := fun left right => isAncestor left right || isAncestor right left
  if isSameFork lastVote bestSlot then
    if tower.isLockedOut bestSlot isSameFork then
      { resetSlot := bestSlot, voteSlot := none, newRoot := none, reason := .lockedOut }
    else
      { resetSlot := bestSlot, voteSlot := some bestSlot, newRoot := none, reason := .sameFork }
  else if choice.canSwitchFork lastVote bestSlot then
    { resetSlot := bestSlot, voteSlot := some bestSlot, newRoot := none, reason := .switchApproved }
  else
    { resetSlot := bestSlot, voteSlot := none, newRoot := none, reason := .switchDenied }

/-- The locks are always free here, so the source's `LockFailed` has no
counterpart; `none` stands for a descent of fork choice that does not return. -/
def runConsensusDecision (tower : Tower) (choice : ForkChoice) (replayedSlot : Nat)
    (isAncestor : Nat → Nat → Bool) : Option (ConsensusDecision × Tower × ForkChoice) := do
  let (best, choice) ← choice.computeBestFork (tower.root.getD 0)
  let bestSlot := best.getD replayedSlot
  match tower.lastVoteSlot with
  | none =>
    let (newRoot, tower) := tower.pushVote bestSlot
    return ({ resetSlot := bestSlot, voteSlot := some bestSlot, newRoot, reason := .emptyTower },
      tower, choice)
  | some lastVote =>
    let decision := decideFork tower choice isAncestor lastVote bestSlot
    match decision.voteSlot with
    | some voteSlot =>
      let (newRoot, tower) := tower.pushVote voteSlot
      return ({ decision with newRoot }, tower, choice)
    | none => return ({ decision with newRoot := none }, tower, choice)

end Karstflow.Stages
