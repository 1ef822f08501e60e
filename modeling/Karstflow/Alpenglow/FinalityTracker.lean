import Karstflow.Alpenglow.Base

namespace Karstflow.Alpenglow

open Data

inductive FinStatus where
  | notarized
  | finalPendingNotar
  | finalized
  | implicitlyFinalized
  | implicitlySkipped
deriving Repr, DecidableEq

/-- The statuses that pruning may pass. -/
def FinStatus.decided : FinStatus → Bool
  | notarized | finalPendingNotar => false
  | finalized | implicitlyFinalized | implicitlySkipped => true

structure FinalizationEvent where
  finalized : Option BlockId
  implicitlyFinalized : List BlockId
  implicitlySkipped : List Nat
deriving Repr, DecidableEq

def FinalizationEvent.default : FinalizationEvent :=
  { finalized := none, implicitlyFinalized := [], implicitlySkipped := [] }

structure FinalityTracker where
  status : Table Nat (FinStatus × BlockHash)
  parents : Table BlockId BlockId
  highestFinalizedSlot : Nat
  firstUnprunedSlot : Nat

namespace FinalityTracker

variable (tracker : FinalityTracker)

def default : FinalityTracker :=
  { status := Table.empty.insert 0 (.notarized, genesisBlockHash)
    parents := .empty
    highestFinalizedSlot := 0
    firstUnprunedSlot := 0 }

def statusInsert (slot : Nat) (status : FinStatus) (hash : BlockHash) : FinalityTracker :=
  { tracker with status := tracker.status.insert slot (status, hash) }

/-- The inner loop of `handle_implicitly_finalized` over the slots between a
block and its parent. The answer tells whether the whole function returns. -/
def skipBetween : List Nat → FinalityTracker → FinalizationEvent →
    Except Panic (FinalityTracker × FinalizationEvent × Bool)
  | [], tracker, event => .ok (tracker, event, false)
  | slot :: rest, tracker, event =>
    let skipped := tracker.statusInsert slot .implicitlySkipped genesisBlockHash
    match tracker.status.get slot with
    | some (.implicitlySkipped, _) => .ok (skipped, event, true)
    | some (.notarized, _) | none =>
      skipBetween rest skipped { event with implicitlySkipped := event.implicitlySkipped ++ [slot] }
    | some _ => .error .safetyViolation

/-- Mark `cur` implicitly finalized; the answer tells whether the walk goes on. -/
def finalizeAncestor (cur : BlockId) (event : FinalizationEvent) :
    Except Panic (FinalityTracker × FinalizationEvent × Bool) :=
  let marked := tracker.statusInsert cur.slot .implicitlyFinalized cur.hash
  let reported := { event with implicitlyFinalized := event.implicitlyFinalized ++ [cur] }
  match tracker.status.get cur.slot with
  | none | some (.finalPendingNotar, _) => .ok (marked, reported, true)
  | some (.notarized, hash) =>
    if hash = cur.hash then .ok (marked, reported, true) else .error .safetyViolation
  | some (.implicitlySkipped, _) => .error .safetyViolation
  | some (status, hash) =>
    if hash = cur.hash then .ok (marked.statusInsert cur.slot status hash, event, false)
    else .error .safetyViolation

/-- The walk through the ancestors. Its first argument bounds `sourceSlot`,
which falls at every round: at zero no slot is left below it, and the
assertion at the head of the loop fails. -/
def handleImplicitlyFinalized : Nat → FinalityTracker → Nat → BlockId → FinalizationEvent →
    Except Panic (FinalityTracker × FinalizationEvent)
  | 0, _, _, _, _ => .error .assertion
  | bound + 1, tracker, sourceSlot, cur, event => do
    assert (cur.slot < sourceSlot) .assertion
    if cur.slot < tracker.firstUnprunedSlot then return (tracker, event)
    let between := .range' (cur.slot + 1) (sourceSlot - (cur.slot + 1))
    let (tracker, event, known) ← skipBetween between tracker event
    if known then return (tracker, event)
    let (tracker, event, more) ← finalizeAncestor tracker cur event
    if more then
      match tracker.parents.get cur with
      | none => return (tracker, event)
      | some parent => handleImplicitlyFinalized bound tracker cur.slot parent event
    else return (tracker, event)

/-- The loop of `prune`. The first argument is the distance to the last `u64`,
past which the increment overflows. -/
def firstUndecided (status : Table Nat (FinStatus × BlockHash)) : Nat → Nat → Except Panic Nat
  | 0, _ => .error .overflow
  | remaining + 1, first =>
    match status.get (first + 1) with
    | some (next, _) => if next.decided then firstUndecided status remaining (first + 1) else .ok first
    | none => .ok first

def prune : Except Panic FinalityTracker := do
  let root ← firstUndecided tracker.status (u64Max - tracker.firstUnprunedSlot) tracker.firstUnprunedSlot
  return { tracker with
    firstUnprunedSlot := root
    status := tracker.status.retain fun slot _ => root ≤ slot
    parents := tracker.parents.retain fun block _ => root ≤ block.slot }

def handleFinalizedBlock (finalized : BlockId) (event : FinalizationEvent) :
    Except Panic (FinalityTracker × FinalizationEvent) := do
  let event := { event with finalized := some finalized }
  let tracker := { tracker with highestFinalizedSlot := max tracker.highestFinalizedSlot finalized.slot }
  let (tracker, event) ← match tracker.parents.get finalized with
    | some parent => handleImplicitlyFinalized finalized.slot tracker finalized.slot parent event
    | none => .ok (tracker, event)
  let tracker ← tracker.prune
  return (tracker, event)

def addParent (block parent : BlockId) : Except Panic (FinalityTracker × FinalizationEvent) := do
  assert (parent.slot < block.slot) .assertion
  if block.slot < tracker.firstUnprunedSlot then return (tracker, .default)
  match tracker.parents.get block with
  | some existing =>
    assert (existing = parent) .conflictingParent
    return (tracker, .default)
  | none =>
    let tracker := { tracker with parents := tracker.parents.insert block parent }
    match tracker.status.get block.slot with
    | some (.finalized, hash) | some (.implicitlyFinalized, hash) =>
      if hash = block.hash then
        let (tracker, event) ← handleImplicitlyFinalized block.slot tracker block.slot parent .default
        let tracker ← tracker.prune
        return (tracker, event)
      else return (tracker, .default)
    | _ => return (tracker, .default)

def markFastFinalized (block : BlockId) : Except Panic (FinalityTracker × FinalizationEvent) :=
  if block.slot < tracker.firstUnprunedSlot then .ok (tracker, .default)
  else
    let marked := tracker.statusInsert block.slot .finalized block.hash
    match tracker.status.get block.slot with
    | some (.finalized, hash) | some (.implicitlyFinalized, hash) =>
      if hash = block.hash then .ok (marked, .default) else .error .safetyViolation
    | some (.notarized, hash) =>
      if hash = block.hash then marked.handleFinalizedBlock block .default else .error .safetyViolation
    | some (.finalPendingNotar, _) | none => marked.handleFinalizedBlock block .default
    | some (.implicitlySkipped, _) => .error .safetyViolation

def markNotarized (block : BlockId) : Except Panic (FinalityTracker × FinalizationEvent) :=
  if block.slot < tracker.firstUnprunedSlot then .ok (tracker, .default)
  else
    let marked := tracker.statusInsert block.slot .notarized block.hash
    match tracker.status.get block.slot with
    | none => .ok (marked, .default)
    | some (.notarized, hash) | some (.finalized, hash) | some (.implicitlyFinalized, hash) =>
      -- unlike the walk through the ancestors, the old status is not restored
      if hash = block.hash then .ok (marked, .default) else .error .safetyViolation
    | some (.implicitlySkipped, _) => .ok (marked, .default)
    | some (.finalPendingNotar, _) =>
      (marked.statusInsert block.slot .finalized block.hash).handleFinalizedBlock block .default

def markFinalized (slot : Nat) : Except Panic (FinalityTracker × FinalizationEvent) :=
  if slot < tracker.firstUnprunedSlot then .ok (tracker, .default)
  else
    let marked := tracker.statusInsert slot .finalPendingNotar genesisBlockHash
    match tracker.status.get slot with
    | none => .ok (marked, .default)
    | some (.finalPendingNotar, _) | some (.finalized, _) | some (.implicitlyFinalized, _) =>
      .ok (marked, .default)
    | some (.notarized, hash) =>
      (marked.statusInsert slot .finalized hash).handleFinalizedBlock ⟨slot, hash⟩ .default
    | some (.implicitlySkipped, _) => .error .safetyViolation

end FinalityTracker

end Karstflow.Alpenglow
