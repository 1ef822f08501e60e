import Karstflow.Data.Machine
import Karstflow.Data.Table
import Karstflow.Data.Walk

namespace Karstflow.Consensus

open Data

abbrev Pubkey := BitVec 256

def voteThresholdDepth : Nat := 8

structure ForkInfo where
  slot : Nat
  parent : Option Nat
  stakeWeight : Nat
  confirmed : Bool
  optimisticallyConfirmed : Bool
  eqvoc : Bool
  duplicateConfirmed : Bool
  valid : Bool
deriving Repr, DecidableEq

def ForkInfo.new (slot : Nat) (parent : Option Nat) : ForkInfo where
  slot := slot
  parent := parent
  stakeWeight := 0
  confirmed := false
  optimisticallyConfirmed := false
  eqvoc := false
  duplicateConfirmed := false
  valid := true

structure ForkChoice where
  forks : Table Nat ForkInfo
  totalStake : Nat
  bestSlot : Option Nat
  validatorLatestVotes : Table Pubkey (Nat × Nat)

namespace ForkChoice

variable (choice : ForkChoice)

def new (totalStake : Nat) : ForkChoice :=
  { forks := .empty, totalStake, bestSlot := none, validatorLatestVotes := .empty }

def addFork (slot : Nat) (parent : Option Nat) : ForkChoice :=
  { choice with forks := choice.forks.insert slot (.new slot parent) }

def stakeWeight (choice : ForkChoice) (slot : Nat) : Nat :=
  ((choice.forks.get slot).map ForkInfo.stakeWeight).getD 0

/-! The source compares stake ratios as `f64`; here the quotient is exact. A
zero total makes it infinite or undefined, and an undefined one is on neither
side of the threshold. -/

/-- `ratio >= VOTE_THRESHOLD_SIZE`. -/
def reachesThreshold (weight total : Nat) : Bool :=
  if total = 0 then 0 < weight else 2 * total ≤ 3 * weight

/-- `ratio < VOTE_THRESHOLD_SIZE`. -/
def belowThreshold (weight total : Nat) : Bool :=
  if total = 0 then false else 3 * weight < 2 * total

def checkOptimisticFrom (choice : ForkChoice) : Nat → Option Nat → Bool
  | 0, _ => false
  | _ + 1, none => false
  | remaining + 1, some slot =>
    match choice.forks.get slot with
    | none => false
    | some fork =>
      if belowThreshold fork.stakeWeight choice.totalStake then false
      else if remaining = 0 then true
      else choice.checkOptimisticFrom remaining fork.parent

def checkOptimisticConfirmation (slot : Nat) : Bool :=
  choice.checkOptimisticFrom voteThresholdDepth (some slot)

def updateConfirmation (slot : Nat) : ForkChoice :=
  let isOptimistic := choice.checkOptimisticConfirmation slot
  { choice with
    forks := choice.forks.modify slot fun fork =>
      { fork with
        confirmed := fork.confirmed || reachesThreshold fork.stakeWeight choice.totalStake
        optimisticallyConfirmed := fork.optimisticallyConfirmed || isOptimistic } }

def parentOf (slot : Nat) : Option Nat :=
  (choice.forks.get slot).bind ForkInfo.parent

/-- The slots that a loop from `slot` towards the root looks at: tracked ones,
and last the first untracked one. More rounds than this would be a cycle of
parents, on which the source does not return. -/
def lineage (slot : Nat) : List Nat :=
  walk choice.parentOf (choice.forks.size + 2) (some slot)

def isDescendant (slot ancestor : Nat) : Bool :=
  slot = ancestor || (choice.lineage slot).contains ancestor

def canSwitchFork (current candidate : Nat) : Bool :=
  if choice.stakeWeight current = 0 then true
  else 138 * choice.stakeWeight current ≤ 100 * choice.stakeWeight candidate

def validChildren (current : Nat) : List Nat :=
  (choice.forks.entries.filter fun entry =>
    entry.2.parent = some current && entry.2.valid).map Prod.fst

/-- One comparison of `max_by`: more stake wins, then the lower slot. -/
def heavierChild (left right : Nat) : Nat :=
  if choice.stakeWeight right < choice.stakeWeight left then left
  else if choice.stakeWeight right = choice.stakeWeight left ∧ left < right then left
  else right

def bestChild (children : List Nat) : Option Nat :=
  match children with
  | [] => none
  | first :: rest => some (rest.foldl choice.heavierChild first)

/-- The descent of `compute_best_fork`. The outer option is `none` when the
descent is still going after `fuel` rounds, the inner one is the source's. -/
def descend (choice : ForkChoice) : Nat → Nat → Option (Option Nat)
  | 0, _ => none
  | fuel + 1, current =>
    let children := choice.validChildren current
    if children = [] then some (some current)
    else
      match choice.bestChild children with
      | none => some none
      | some child => choice.descend fuel child

def computeBestFork (root : Nat) : Option (Option Nat × ForkChoice) :=
  (choice.descend (choice.forks.size + 1) root).map fun best =>
    (best, { choice with bestSlot := best.or choice.bestSlot })

/-- Change the weight of a slot and of all its tracked ancestors. -/
def reweighAncestry (slot : Nat) (change : Nat → Nat) : ForkChoice :=
  { choice with
    forks := (choice.lineage slot).foldl
      (fun forks visited => forks.modify visited fun fork =>
        { fork with stakeWeight := change fork.stakeWeight })
      choice.forks }

def addStakeToAncestry (slot stake : Nat) : ForkChoice :=
  choice.reweighAncestry slot (satAdd · stake)

def subtractStakeFromAncestry (slot stake : Nat) : ForkChoice :=
  choice.reweighAncestry slot (· - stake)

def rememberVote (validator : Pubkey) (slot stake : Nat) : ForkChoice :=
  { choice with validatorLatestVotes := choice.validatorLatestVotes.insert validator (slot, stake) }

/-- The common end of `record_validator_vote`. -/
def placeVote (validator : Pubkey) (slot stake : Nat) : ForkChoice :=
  ((choice.addStakeToAncestry slot stake).rememberVote validator slot stake).updateConfirmation slot

def recordValidatorVote (validator : Pubkey) (slot stake : Nat) : ForkChoice :=
  match choice.validatorLatestVotes.get validator with
  | some (oldSlot, oldStake) =>
    if oldSlot = slot then
      if oldStake ≠ stake then
        (choice.subtractStakeFromAncestry oldSlot oldStake).placeVote validator slot stake
      else choice
    else (choice.subtractStakeFromAncestry oldSlot oldStake).placeVote validator slot stake
  | none => choice.placeVote validator slot stake

def pruneNonDescendants (newRoot : Nat) : ForkChoice :=
  let forks := choice.forks.retain fun slot _ => slot = newRoot || choice.isDescendant slot newRoot
  { choice with
    forks
    validatorLatestVotes := choice.validatorLatestVotes.retain fun _ vote => forks.contains vote.1 }

end ForkChoice

end Karstflow.Consensus
