import Karstflow.Sbpf.VoteState

namespace Karstflow.Consensus

open Data Sbpf

structure EpochCredits where
  epoch : Nat
  credits : Nat
  prevCredits : Nat
deriving Repr, DecidableEq

/-- The part of the consensus crate's vote account that voting reads and writes. -/
structure VoteState where
  votes : List LandedVote
  rootSlot : Option Nat
  epochCredits : List EpochCredits
deriving Repr, DecidableEq

namespace VoteState

def new : VoteState := { votes := [], rootSlot := none, epochCredits := [] }

def computeVoteLatency (voteSlot currentSlot : Nat) : Nat := min (currentSlot - voteSlot) u8Max

def incrementCredits (history : List EpochCredits) (epoch credits : Nat) : List EpochCredits :=
  if credits = 0 then history
  else
    match history.getLast? with
    | some last =>
      if last.epoch = epoch then
        history.dropLast ++ [{ last with credits := satAdd last.credits credits }]
      else
        let grown := history ++ [{ epoch, credits := satAdd last.credits credits, prevCredits := last.credits }]
        grown.drop (grown.length - maxEpochCreditsHistory)
    | none => [{ epoch, credits := satAdd 0 credits, prevCredits := 0 }]

def checkAndPromoteRoot (state : VoteState) (epoch : Nat) : VoteState :=
  if maxLockoutHistory < state.votes.length then
    match state.votes with
    | [] => state
    | front :: rest =>
      { votes := rest, rootSlot := some front.slot,
        epochCredits := incrementCredits state.epochCredits epoch 1 }
  else state

/-- Every vote below the freshly pushed one gains a confirmation. -/
def confirmAllButLast : List LandedVote → List LandedVote
  | [] => []
  | [last] => [last]
  | vote :: next :: rest =>
    VoteState.increaseConfirmationCount vote :: confirmAllButLast (next :: rest)

def processNextVoteSlot (state : VoteState) (slot epoch currentSlot : Nat) : VoteState :=
  let live := state.votes.rdropWhile (fun vote => vote.lockout.isExpired slot)
  let landed : LandedVote :=
    { latency := computeVoteLatency slot currentSlot, lockout := .new slot }
  let pushed := live ++ [landed]
  checkAndPromoteRoot { state with votes := confirmAllButLast pushed } epoch

end VoteState

end Karstflow.Consensus
