import Karstflow.Data.Machine
import Mathlib.Data.List.DropRight

namespace Karstflow.Consensus

open Data

def maxLockoutHistory : Nat := 31

def initialLockout : Nat := 2

def maxConfirmationCount : Nat := maxLockoutHistory

/-- A voted slot with its confirmation count. The tower's `TowerVote`, the vote
program's `Lockout` and the consensus crate's `VoteLockout` are this record. -/
structure Lockout where
  slot : Nat
  confirmationCount : Nat
deriving Repr, DecidableEq

namespace Lockout

def new (slot : Nat) : Lockout := { slot, confirmationCount := 1 }

def lockout (vote : Lockout) : Nat := satPow initialLockout vote.confirmationCount

def expirationSlot (vote : Lockout) : Nat := satAdd vote.slot vote.lockout

def isLockedOutAt (vote : Lockout) (slot : Nat) : Bool := slot < vote.expirationSlot

/-- A vote whose lockout has run out at `slot`; these are popped off the stack. -/
def isExpired (vote : Lockout) (slot : Nat) : Bool := vote.expirationSlot ≤ slot

def incrementConfirmation (vote : Lockout) : Lockout :=
  { vote with confirmationCount := min (vote.confirmationCount + 1) u32Max }

@[simp] theorem incrementConfirmation_slot (vote : Lockout) : vote.incrementConfirmation.slot = vote.slot := rfl

theorem expirationSlot_increment (vote : Lockout) (bounded : vote.confirmationCount < u32Max) :
    vote.expirationSlot ≤ vote.incrementConfirmation.expirationSlot := by
  have grows : vote.confirmationCount ≤ vote.incrementConfirmation.confirmationCount := by
    simp only [incrementConfirmation]
    omega
  exact satAdd_mono (le_refl _) (satPow_mono (by decide) grows)

end Lockout

inductive TowerError where
  | lockoutViolation (slot : Nat)
  | voteNotNewer (slot lastVote : Nat)
  | voteBelowRoot (slot root : Nat)
  | slotsNotOrdered (slot prevSlot : Nat)
  | zeroConfirmation (slot : Nat)
  | confirmationTooLarge (slot confirmation : Nat)
  | confirmationsNotOrdered (slot confirmation : Nat)
  | towerTooLarge (size max : Nat)
deriving Repr, DecidableEq

/-- The local validator's vote stack, oldest vote first. -/
structure Tower where
  votes : List Lockout
  root : Option Nat
  maxSize : Nat
deriving Repr, DecidableEq

namespace Tower

def new : Tower := { votes := [], root := none, maxSize := maxLockoutHistory }

def withRoot (root : Nat) : Tower := { votes := [], root := some root, maxSize := maxLockoutHistory }

def lastVoteSlot (tower : Tower) : Option Nat := tower.votes.getLast?.map Lockout.slot

/-- The backwards scan of `simulate_vote`: `count` votes are still under consideration. -/
def simulateVoteFrom (votes : List Lockout) (slot : Nat) : Nat → Nat
  | 0 => 0
  | count + 1 =>
    match votes[count]? with
    | some vote =>
      if slot < vote.expirationSlot then count + 1 else simulateVoteFrom votes slot count
    | none => count + 1

/-- How many votes stay on the stack once the votes expired at `slot` are popped off the top. -/
def simulateVote (tower : Tower) (slot : Nat) : Nat :=
  simulateVoteFrom tower.votes slot tower.votes.length

def isLockedOut (tower : Tower) (slot : Nat) (isSameFork : Nat → Nat → Bool) : Bool :=
  tower.root.any (fun root => slot ≤ root) ||
    tower.votes.any (fun vote => vote.isLockedOutAt slot && !isSameFork vote.slot slot)

/-- Newest vote first: increment while the counts read 1, 2, 3, ... -/
def incrementChain (previous : Nat) : List Lockout → List Lockout
  | [] => []
  | vote :: older =>
    if vote.confirmationCount ≠ previous + 1 then vote :: older
    else vote.incrementConfirmation :: incrementChain (previous + 1) older

/-- Take the bottom vote off a full stack; its slot becomes the root. -/
def popBottom (maxSize : Nat) : List Lockout → Option Nat × List Lockout
  | [] => (none, [])
  | bottom :: rest =>
    if maxSize ≤ (bottom :: rest).length then (some bottom.slot, rest) else (none, bottom :: rest)

def pushVote (tower : Tower) (slot : Nat) : Option Nat × Tower :=
  if tower.lastVoteSlot.any (fun last => slot ≤ last) then (none, tower)
  else
    let remaining := tower.votes.take (tower.simulateVote slot)
    let (newRoot, kept) := popBottom tower.maxSize remaining
    let incremented := (incrementChain 0 kept.reverse).reverse
    (newRoot, { tower with
      votes := incremented ++ [.new slot]
      root := newRoot.or tower.root })

def setRoot (tower : Tower) (newRoot : Nat) : Tower :=
  { tower with root := some newRoot, votes := tower.votes.filter (fun vote => newRoot < vote.slot) }

def recordVote (tower : Tower) (slot : Nat) (isSameFork : Nat → Nat → Bool) :
    Except TowerError (Option Nat × Tower) :=
  if tower.isLockedOut slot isSameFork then .error (.lockoutViolation slot) else .ok (tower.pushVote slot)

/-- A loop over the votes, oldest first, each with the vote below it. -/
def checkEach (check : Option Lockout → Lockout → Except TowerError Unit) :
    Option Lockout → List Lockout → Except TowerError Unit
  | _, [] => .ok ()
  | below, vote :: rest => do
    check below vote
    checkEach check (some vote) rest

def checkRoot (root : Option Nat) (vote : Lockout) : Except TowerError Unit :=
  match root with
  | some root => demand (root < vote.slot) (.voteBelowRoot vote.slot root)
  | none => .ok ()

def checkSlot (below : Option Lockout) (vote : Lockout) : Except TowerError Unit :=
  match below with
  | some older => demand (older.slot < vote.slot) (.slotsNotOrdered vote.slot older.slot)
  | none => .ok ()

def checkConfirmation (below : Option Lockout) (vote : Lockout) : Except TowerError Unit := do
  demand (vote.confirmationCount ≠ 0) (.zeroConfirmation vote.slot)
  demand (vote.confirmationCount ≤ maxConfirmationCount)
    (.confirmationTooLarge vote.slot vote.confirmationCount)
  match below with
  | some older =>
    demand (vote.confirmationCount ≤ older.confirmationCount)
      (.confirmationsNotOrdered vote.slot vote.confirmationCount)
  | none => .ok ()

def verify (tower : Tower) : Except TowerError Unit := do
  demand (tower.votes.length ≤ tower.maxSize) (.towerTooLarge tower.votes.length tower.maxSize)
  checkEach (fun _ => checkRoot tower.root) none tower.votes
  checkEach checkSlot none tower.votes
  checkEach checkConfirmation none tower.votes

theorem simulateVoteFrom_append (votes : List Lockout) (vote : Lockout) (slot count : Nat)
    (within : count ≤ votes.length) :
    simulateVoteFrom (votes ++ [vote]) slot count = simulateVoteFrom votes slot count := by
  induction count with
  | zero => rfl
  | succ count ih =>
    have below : count < votes.length := within
    simp only [simulateVoteFrom, List.getElem?_append_left below, ih (le_of_lt below)]

theorem simulateVoteFrom_le (votes : List Lockout) (slot count : Nat) : simulateVoteFrom votes slot count ≤ count := by
  induction count with
  | zero => exact le_refl 0
  | succ count ih =>
    simp only [simulateVoteFrom]
    split
    · split
      · exact le_refl _
      · exact Nat.le_succ_of_le ih
    · exact le_refl _

/-- Truncating to the simulated count pops exactly the expired votes off the top. -/
theorem take_simulateVoteFrom (votes : List Lockout) (slot : Nat) :
    votes.take (simulateVoteFrom votes slot votes.length) = votes.rdropWhile (fun vote => vote.isExpired slot) := by
  induction votes using List.reverseRecOn with
  | nil => rfl
  | append_singleton votes vote ih =>
    rw [List.rdropWhile_concat]
    have top : (votes ++ [vote])[votes.length]? = some vote := by simp
    simp only [List.length_append, List.length_singleton, simulateVoteFrom, top]
    by_cases live : slot < vote.expirationSlot
    · have kept : ¬ vote.isExpired slot = true := by simp [Lockout.isExpired, live]
      rw [if_pos live, if_neg kept, List.take_of_length_le (by simp)]
    · have popped : vote.isExpired slot = true := by simpa [Lockout.isExpired] using live
      rw [if_neg live, if_pos popped, simulateVoteFrom_append _ _ _ _ (le_refl _),
        List.take_append_of_le_length (simulateVoteFrom_le votes slot _), ih]

end Tower

end Karstflow.Consensus
