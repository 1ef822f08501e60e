import Karstflow.Consensus.Tower

namespace Karstflow.Sbpf

open Data Consensus

def maxEpochCreditsHistory : Nat := 64

def voteCreditsGraceSlots : Nat := 2

def voteCreditsMaximumPerSlot : Nat := 16

structure LandedVote where
  latency : Nat
  lockout : Lockout
deriving Repr, DecidableEq

def LandedVote.slot (vote : LandedVote) : Nat := vote.lockout.slot

/-- The part of the vote account that voting reads and writes. -/
structure VoteState where
  votes : List LandedVote
  rootSlot : Option Nat
  epochCredits : List (Nat × Nat × Nat)
deriving Repr, DecidableEq

inductive VoteError where
  | voteBelowRoot (slot root : Nat)
  | voteNotSequential (voteSlot lastVoteSlot : Nat)
  | tooManyVotes
  | emptySlots
  | rootRollBack
  | zeroConfirmations
  | confirmationTooLarge
  | slotSmallerThanRoot
  | slotsNotOrdered
  | confirmationsNotOrdered
  | lockoutMismatch
  | lockoutConflict
  | confirmationRollBack
deriving Repr, DecidableEq

namespace VoteState

def new : VoteState := { votes := [], rootSlot := none, epochCredits := [] }

def updateCredits (credits : List (Nat × Nat × Nat)) (slot : Nat) : List (Nat × Nat × Nat) :=
  match credits.getLast? with
  | some (lastSlot, lastCredits, _) =>
    if lastSlot < slot then credits ++ [(slot, satAdd lastCredits 1, 1)] else credits
  | none => [(slot, 1, 1)]

/-- Promote the oldest vote once the stack is higher than the lockout history. -/
def promoteOldest (votes : List LandedVote) (root : Option Nat) : List LandedVote × Option Nat :=
  match votes with
  | [] => ([], root)
  | oldest :: rest =>
    if maxLockoutHistory < (oldest :: rest).length then (rest, some oldest.slot)
    else (oldest :: rest, root)

def increaseConfirmationCount (vote : LandedVote) : LandedVote :=
  { vote with lockout := vote.lockout.incrementConfirmation }

def processVote (state : VoteState) (slot : Nat) : Except VoteError VoteState :=
  match state.rootSlot.filter (fun root => slot ≤ root) with
  | some root => .error (.voteBelowRoot slot root)
  | none =>
    match (state.votes.getLast?.map LandedVote.slot).filter (fun last => slot ≤ last) with
    | some last => .error (.voteNotSequential slot last)
    | none =>
      let live := state.votes.rdropWhile (fun vote => vote.lockout.isExpired slot)
      let incremented := live.map increaseConfirmationCount
      let pushed := incremented ++ [{ latency := 0, lockout := .new slot }]
      let (votes, rootSlot) := promoteOldest pushed state.rootSlot
      .ok { votes, rootSlot, epochCredits := updateCredits state.epochCredits slot }

def creditsForVote (vote : LandedVote) : Nat :=
  if vote.latency ≤ voteCreditsGraceSlots then voteCreditsMaximumPerSlot
  else max (voteCreditsMaximumPerSlot - (vote.latency - voteCreditsGraceSlots)) 1

def addEpochCredits (history : List (Nat × Nat × Nat)) (epoch credits : Nat) :
    List (Nat × Nat × Nat) :=
  match history.getLast? with
  | some (lastEpoch, total, previous) =>
    if lastEpoch = epoch then history.dropLast ++ [(lastEpoch, satAdd total credits, previous)]
    else
      let grown := history ++ [(epoch, satAdd total credits, total)]
      grown.drop (grown.length - maxEpochCreditsHistory)
  | none => [(epoch, satAdd 0 credits, 0)]

/-- The ordering and confirmation checks over the proposed votes, oldest first. -/
def checkVotes (newRoot : Option Nat) : Option LandedVote → List LandedVote → Except VoteError Unit
  | _, [] => .ok ()
  | previous, vote :: rest =>
    if vote.lockout.confirmationCount = 0 then .error .zeroConfirmations
    else if maxLockoutHistory < vote.lockout.confirmationCount then .error .confirmationTooLarge
    else if newRoot.any (fun root => vote.slot ≤ root && root ≠ 0) then .error .slotSmallerThanRoot
    else
      match previous with
      | none => checkVotes newRoot (some vote) rest
      | some earlier =>
        if vote.slot ≤ earlier.slot then .error .slotsNotOrdered
        else if earlier.lockout.confirmationCount ≤ vote.lockout.confirmationCount then
          .error .confirmationsNotOrdered
        else if earlier.lockout.expirationSlot < vote.slot then .error .lockoutMismatch
        else checkVotes newRoot (some vote) rest

/-- One vote of the current state against the proposed votes; `later` goes on
with the current votes above it. -/
def verifyAgainst (current : LandedVote) (later : List LandedVote → Except VoteError Unit) :
    List LandedVote → Except VoteError Unit
  | [] => .ok ()
  | proposed :: rest =>
    if current.slot < proposed.slot then
      let count := min current.lockout.confirmationCount maxLockoutHistory
      let lastLocked := satAdd current.slot (satPow initialLockout count)
      if proposed.slot ≤ lastLocked then .error .lockoutConflict else later (proposed :: rest)
    else if current.slot = proposed.slot then
      if proposed.lockout.confirmationCount < current.lockout.confirmationCount then
        .error .confirmationRollBack
      else later rest
    else verifyAgainst current later rest

/-- The two-index merge of `verify_lockout_consistency`. -/
def verifyLockoutConsistency : List LandedVote → List LandedVote → Except VoteError Unit
  | [] => fun _ => .ok ()
  | current :: rest => verifyAgainst current (verifyLockoutConsistency rest)

def findExistingLatency (state : VoteState) (slot : Nat) : Option Nat :=
  (state.votes.find? (fun vote => vote.slot = slot)).map LandedVote.latency

def landedLatency (state : VoteState) (currentSlot : Nat) (vote : LandedVote) : LandedVote :=
  let latency :=
    if 0 < vote.latency then vote.latency
    else (state.findExistingLatency vote.slot).getD (min (currentSlot - vote.slot) u8Max)
  { latency, lockout := vote.lockout }

/-- Credits for the votes that the new root settles. -/
def earnedCredits (votes : List LandedVote) (newRoot : Option Nat) : Nat :=
  match newRoot with
  | some root =>
    (votes.takeWhile (fun vote => vote.slot ≤ root)).foldl
      (fun earned vote => satAdd earned (creditsForVote vote)) 0
  | none => 0

def rootRollsBack (current proposed : Option Nat) : Bool :=
  match current, proposed with
  | some currentRoot, some proposedRoot => proposedRoot < currentRoot
  | some _, none => true
  | none, _ => false

def applyVoteStateUpdate (state : VoteState) (newVotes : List LandedVote) (newRoot : Option Nat)
    (epoch currentSlot : Nat) : Except VoteError VoteState :=
  if maxLockoutHistory < newVotes.length then .error .tooManyVotes
  else if newVotes = [] then .error .emptySlots
  else if rootRollsBack state.rootSlot newRoot then .error .rootRollBack
  else do
    checkVotes newRoot none newVotes
    let earned := earnedCredits state.votes newRoot
    verifyLockoutConsistency state.votes newVotes
    let rootChanged := state.rootSlot ≠ newRoot
    let epochCredits :=
      if rootChanged ∧ 0 < earned then addEpochCredits state.epochCredits epoch earned
      else state.epochCredits
    return { votes := newVotes.map (state.landedLatency currentSlot), rootSlot := newRoot, epochCredits }

end VoteState

end Karstflow.Sbpf
