import Karstflow.Alpenglow.Base

namespace Karstflow.Alpenglow

open Data

structure ParentReadyState where
  slot : Nat
  skip : Bool
  notarFallbacks : List BlockHash
  readyIds : List BlockId
deriving Repr, DecidableEq

namespace ParentReadyState

def new (slot : Nat) : ParentReadyState :=
  { slot, skip := false, notarFallbacks := [], readyIds := [] }

def genesis (slot : Nat) : ParentReadyState :=
  { new slot with notarFallbacks := [genesisBlockHash] }

def addToReady (state : ParentReadyState) (id : BlockId) : Except Panic ParentReadyState :=
  if id ∈ state.readyIds then .error (.alreadyReady state.slot)
  else .ok { state with readyIds := state.readyIds ++ [id] }

/-- The least ready parent by slot, then hash. -/
def waitForParentReady (state : ParentReadyState) : Option BlockId :=
  state.readyIds.foldl
    (fun least id =>
      match least with
      | none => some id
      | some held =>
        if id.slot < held.slot ∨ (id.slot = held.slot ∧ id.hash.toNat < held.hash.toNat) then some id
        else some held)
    none

end ParentReadyState

structure ParentReady where
  slot : Nat
  parent : BlockId
deriving Repr, DecidableEq

structure ParentReadyTracker where
  root : Nat
  states : Table Nat ParentReadyState

namespace ParentReadyTracker

variable (tracker : ParentReadyTracker)

def default : ParentReadyTracker :=
  { root := 0, states := Table.empty.insert 0 (.genesis 0) }

/-- The state of a slot. The source stores the initial state on first access;
no function tells a stored initial state from a missing one. -/
def slotState (slot : Nat) : ParentReadyState :=
  (tracker.states.get slot).getD (.new slot)

def setState (slot : Nat) (state : ParentReadyState) : ParentReadyTracker :=
  { tracker with states := tracker.states.insert slot state }

def addAllToReady (slot : Nat) (parents : List BlockId) : Except Panic ParentReadyTracker := do
  let state ← parents.foldlM ParentReadyState.addToReady (tracker.slotState slot)
  return tracker.setState slot state

def visit (parents : List BlockId) (slot : Nat) : Except Panic (ParentReadyTracker × List ParentReady) :=
  if isStartOfWindow slot then do
    let tracker ← tracker.addAllToReady slot parents
    return (tracker, parents.map (.mk slot))
  else .ok (tracker, [])

/-- The forward loops of `mark_notar_fallback` and `mark_skipped`: hand
`parents` to every window start up to the first slot without a skip
certificate. `remaining` is the distance to the last `u64`, past which the
increment overflows. -/
def spread (parents : List BlockId) :
    Nat → ParentReadyTracker → Nat → Except Panic (ParentReadyTracker × List ParentReady)
  | 0, tracker, slot => do
    let (tracker, out) ← tracker.visit parents slot
    if (tracker.slotState slot).skip then .error .overflow else .ok (tracker, out)
  | remaining + 1, tracker, slot => do
    let (tracker, out) ← tracker.visit parents slot
    if (tracker.slotState slot).skip then
      let (tracker, later) ← spread parents remaining tracker (slot + 1)
      .ok (tracker, out ++ later)
    else .ok (tracker, out)

def spreadAfter (parents : List BlockId) (slot : Nat) : Except Panic (ParentReadyTracker × List ParentReady) := do
  let next ← addU64 slot 1
  spread parents (u64Max - next) tracker next

def markNotarFallback (id : BlockId) : Except Panic (ParentReadyTracker × List ParentReady) :=
  let state := tracker.slotState id.slot
  if id.slot < tracker.root then .ok (tracker, [])
  else if id.hash ∈ state.notarFallbacks then .ok (tracker, [])
  else
    (tracker.setState id.slot { state with notarFallbacks := state.notarFallbacks ++ [id.hash] }).spreadAfter
      [id] id.slot

/-- One round of the backward loop of `mark_skipped`; `rest` is what the rounds
below it gather. -/
def gatherAt (markedSlot slot : Nat) (rest : List BlockId) : List BlockId :=
  if firstSlotInWindow markedSlot ≤ slot ∧ slot ≤ markedSlot ∧ tracker.root ≤ slot then
    let state := tracker.slotState slot
    let fallbacks := if slot ≠ markedSlot then state.notarFallbacks.map (.mk slot) else []
    if state.skip then fallbacks ++ state.readyIds ++ rest else fallbacks
  else rest

/-- The backward loop of `mark_skipped`, from `slot` down. -/
def gather (tracker : ParentReadyTracker) (markedSlot : Nat) : Nat → List BlockId
  | 0 => tracker.gatherAt markedSlot 0 []
  | slot + 1 =>
    tracker.gatherAt markedSlot (slot + 1)
      (if slot + 1 < firstSlotInWindow markedSlot ∨ slot + 1 < tracker.root then []
      else tracker.gather markedSlot slot)

def markSkipped (markedSlot : Nat) : Except Panic (ParentReadyTracker × List ParentReady) :=
  let state := tracker.slotState markedSlot
  if markedSlot < tracker.root then .ok (tracker, [])
  else if state.skip then .ok (tracker, [])
  else
    let tracker := tracker.setState markedSlot { state with skip := true }
    tracker.spreadAfter (tracker.gather markedSlot markedSlot) markedSlot

/-- Keep the first of the highest window starts seen so far. -/
def consider (best : Option ParentReady) (found : List ParentReady) : Option ParentReady :=
  found.foldl
    (fun best ready =>
      match best with
      | none => some ready
      | some held => if held.slot < ready.slot then some ready else some held)
    best

def considerAll {α : Type} (mark : ParentReadyTracker → α → Except Panic (ParentReadyTracker × List ParentReady))
    (items : List α) (tracker : ParentReadyTracker) (best : Option ParentReady) :
    Except Panic (ParentReadyTracker × Option ParentReady) :=
  items.foldlM
    (fun (tracker, best) item => do
      let (tracker, found) ← mark tracker item
      return (tracker, consider best found))
    (tracker, best)

def handleFinalization (finalized : Option BlockId)
    (implicitlyFinalized : List BlockId) (implicitlySkipped : List Nat) :
    Except Panic (ParentReadyTracker × Option ParentReady) := do
  let (tracker, best) ← considerAll markNotarFallback finalized.toList tracker none
  let (tracker, best) ← considerAll markNotarFallback implicitlyFinalized tracker best
  considerAll markSkipped implicitlySkipped tracker best

def parentsReady (slot : Nat) : List BlockId :=
  ((tracker.states.get slot).map ParentReadyState.readyIds).getD []

def waitForParentReady (tracker : ParentReadyTracker) (slot : Nat) : Option BlockId :=
  (tracker.slotState slot).waitForParentReady

def prune (newRoot : Nat) : ParentReadyTracker :=
  { root := newRoot, states := tracker.states.retain fun slot _ => newRoot ≤ slot }

end ParentReadyTracker

end Karstflow.Alpenglow
