import Karstflow.Consensus.Commitment
import Karstflow.Consensus.ForkChoice

namespace Karstflow.Consensus

open Data

/-- The delegations with their effective stake in the current epoch. Their sum
is the total stake, a `u64`. -/
structure StakeTracker where
  delegations : List (Pubkey × Nat)
  fits : (delegations.map Prod.snd).sum ≤ u64Max

namespace StakeTracker

def totalStake (tracker : StakeTracker) : Nat := (tracker.delegations.map Prod.snd).sum

def totalStakeForVoter (tracker : StakeTracker) (voter : Pubkey) : Nat :=
  ((tracker.delegations.filter fun delegation => delegation.1 = voter).map Prod.snd).sum

end StakeTracker

structure SlotVoteInfo where
  slot : Nat
  totalStake : Nat
  votesByAccount : Table Pubkey Nat
  hasSupermajority : Bool
  confirmationStatus : ConfirmationStatus

namespace SlotVoteInfo

def new (slot : Nat) : SlotVoteInfo where
  slot := slot
  totalStake := 0
  votesByAccount := .empty
  hasSupermajority := false
  confirmationStatus := .unconfirmed

def addVote (info : SlotVoteInfo) (voteAccount : Pubkey) (stake : Nat) : SlotVoteInfo :=
  if info.votesByAccount.contains voteAccount then info
  else
    { info with
      votesByAccount := info.votesByAccount.insert voteAccount stake
      totalStake := satAdd info.totalStake stake }

def updateThresholds (info : SlotVoteInfo) (totalNetworkStake : Nat) : SlotVoteInfo :=
  if totalNetworkStake = 0 then
    { info with hasSupermajority := false, confirmationStatus := .unconfirmed }
  else
    let ratio := stakeRatio info.totalStake totalNetworkStake
    { info with
      hasSupermajority := 2 / 3 ≤ ratio
      confirmationStatus := .fromStakeRatio ratio }

end SlotVoteInfo

/-- The part of the processor that gossip votes read and write. -/
structure VoteProcessor where
  slotVotes : Table Nat SlotVoteInfo
  stakeTracker : StakeTracker
  totalStake : Nat

namespace VoteProcessor

def new (stakeTracker : StakeTracker) : VoteProcessor :=
  { slotVotes := .empty, stakeTracker, totalStake := stakeTracker.totalStake }

def getVoteStake (processor : VoteProcessor) (voteAccount : Pubkey) : Nat :=
  processor.stakeTracker.totalStakeForVoter voteAccount

def processGossipVote (processor : VoteProcessor) (voteAccount : Pubkey) (slot : Nat)
    (forkChoice : Option ForkChoice) (commitmentTracker : CommitmentTracker) :
    VoteProcessor × Option ForkChoice × CommitmentTracker × List ConfirmationEvent :=
  let stake := processor.getVoteStake voteAccount
  if stake = 0 then (processor, forkChoice, commitmentTracker, [])
  else
    let voteInfo := (processor.slotVotes.get slot).getD (.new slot)
    let voteInfo := (voteInfo.addVote voteAccount stake).updateThresholds processor.totalStake
    let (commitmentTracker, events) :=
      commitmentTracker.updateStake slot voteInfo.totalStake processor.totalStake
    ({ processor with slotVotes := processor.slotVotes.insert slot voteInfo },
      forkChoice.map fun choice => choice.recordValidatorVote voteAccount slot stake,
      commitmentTracker, events)

end VoteProcessor

end Karstflow.Consensus
