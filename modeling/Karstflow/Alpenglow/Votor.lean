import Karstflow.Alpenglow.Cert

namespace Karstflow.Alpenglow

open Data

inductive ConsensusMessage where
  | vote (vote : Vote)
  | cert (cert : Cert)
deriving Repr, DecidableEq

inductive VotorTimeout where
  | timeout (slot : Nat)
  | crashedLeader (slot : Nat)
deriving Repr, DecidableEq

def VotorTimeout.slot : VotorTimeout → Nat
  | timeout slot | crashedLeader slot => slot

inductive VotorPoolEvent where
  | parentReady (slot : Nat) (parent : BlockId)
  | safeToNotar (block : BlockId)
  | safeToSkip (slot : Nat)
  | certCreated (cert : Cert)
  | standstill (slot : Nat) (bundle : List ConsensusMessage)
deriving Repr, DecidableEq

inductive VotorBlockstoreEvent where
  | firstShred (slot : Nat)
  | invalidBlock (slot : Nat)
  | block (slot : Nat) (blockId parentBlockId : BlockId)
deriving Repr, DecidableEq

def VotorBlockstoreEvent.slot : VotorBlockstoreEvent → Nat
  | firstShred slot | invalidBlock slot | block slot _ _ => slot

structure VotorOut where
  msgs : List ConsensusMessage
  timeouts : List VotorTimeout
deriving Repr, DecidableEq

namespace VotorOut

def empty : VotorOut := ⟨[], []⟩

def pushVote (out : VotorOut) (vote : Vote) : VotorOut := { out with msgs := out.msgs ++ [.vote vote] }

end VotorOut

structure VotorSlotState where
  voted : Bool
  votedNotar : Option BlockHash
  badWindow : Bool
  blockNotarized : Option BlockHash
  parentsReady : List BlockId
  receivedShred : Bool
  pendingBlock : Option (BlockId × BlockId)
  retired : Bool
deriving Repr, DecidableEq

def VotorSlotState.default : VotorSlotState :=
  { voted := false, votedNotar := none, badWindow := false, blockNotarized := none, parentsReady := []
    receivedShred := false, pendingBlock := none, retired := false }

structure Votor where
  slots : Table Nat VotorSlotState
  validatorIndex : Nat
  highestFinalCertSlot : Nat

namespace Votor

variable (votor : Votor)

/-- The state of a slot; no function tells a missing entry from an initial one. -/
def slotState (slot : Nat) : VotorSlotState := (votor.slots.get slot).getD .default

def setState (slot : Nat) (state : VotorSlotState) : Votor :=
  { votor with slots := votor.slots.insert slot state }

def isRetired (slot : Nat) : Bool := (votor.slotState slot).retired

def hasVoted (slot : Nat) : Bool := (votor.slotState slot).voted

def receivedShred (votor : Votor) (slot : Nat) : Bool := (votor.slotState slot).receivedShred

def firstUnprunedSlot : Nat := firstSlotInWindow votor.highestFinalCertSlot

def setTimeouts (slot : Nat) (out : VotorOut) : Except Panic VotorOut := do
  assert (isStartOfWindow slot) .assertion
  let last ← lastSlotInWindow slot
  return { out with
    timeouts := out.timeouts ++ .crashedLeader slot :: (List.range' slot (last + 1 - slot)).map .timeout }

/-- The state that `new` returns, with genesis voted and retired. -/
def initial (validatorIndex : Nat) : Votor :=
  let genesis : VotorSlotState :=
    { VotorSlotState.default with
      voted := true, votedNotar := some genesisBlockHash, blockNotarized := some genesisBlockHash
      parentsReady := [.genesis 0], retired := true }
  { slots := Table.empty.insert 0 genesis, validatorIndex, highestFinalCertSlot := 0 }

def new (validatorIndex : Nat) : Except Panic (Votor × VotorOut) := do
  let out ← setTimeouts 0 .empty
  return (initial validatorIndex, out)

def tryFinal (slot : Nat) (hash : BlockHash) (out : VotorOut) : Except Panic (Votor × VotorOut) := do
  assert (votor.firstUnprunedSlot ≤ slot) .assertion
  let state := votor.slotState slot
  if state.blockNotarized = some hash ∧ state.votedNotar = some hash ∧ !state.badWindow then
    return (votor.setState slot { state with retired := true },
      out.pushVote (.newFinal slot votor.validatorIndex))
  else return (votor, out)

/-- Whether a block may be notarized on its parent: the first block of a window
on a ready parent, a later one on the block this validator notarized before. -/
def validParent (slot : Nat) (parentBlockId : BlockId) : Bool :=
  if slot = firstSlotInWindow slot then parentBlockId ∈ (votor.slotState slot).parentsReady
  else parentBlockId.slot = slot - 1 ∧
    (votor.slotState parentBlockId.slot).votedNotar = some parentBlockId.hash

def tryNotar (slot : Nat) (blockId parentBlockId : BlockId) (out : VotorOut) :
    Except Panic (Votor × VotorOut × Bool) := do
  assert (votor.firstUnprunedSlot ≤ slot) .assertion
  if votor.validParent slot parentBlockId then
    let out := out.pushVote (.newNotar slot blockId.hash votor.validatorIndex)
    let votor := votor.setState slot { votor.slotState slot with
      voted := true, votedNotar := some blockId.hash, pendingBlock := none }
    let (votor, out) ← votor.tryFinal slot blockId.hash out
    return (votor, out, true)
  else return (votor, out, false)

/-- One round of the loop of `try_skip_window`. -/
def skipSlot (out : VotorOut) (slot : Nat) : Votor × VotorOut :=
  if votor.hasVoted slot then (votor, out)
  else (votor.setState slot { votor.slotState slot with voted := true, badWindow := true },
    out.pushVote (.newSkip slot votor.validatorIndex))

def trySkipWindow (slot : Nat) (out : VotorOut) : Except Panic (Votor × VotorOut) := do
  assert (votor.firstUnprunedSlot ≤ slot) .assertion
  let first := firstSlotInWindow slot
  let last ← lastSlotInWindow slot
  return (List.range' first (last + 1 - first)).foldl (fun (votor, out) slot => votor.skipSlot out slot)
    (votor, out)

def pendingBlocks : List (Nat × BlockId × BlockId) :=
  votor.slots.ascending.filterMap fun (slot, state) => state.pendingBlock.map fun pending => (slot, pending)

def checkPendingBlocks (out : VotorOut) : Except Panic (Votor × VotorOut) :=
  votor.pendingBlocks.foldlM
    (fun (votor, out) (slot, blockId, parentBlockId) => do
      let (votor, out, _) ← votor.tryNotar slot blockId parentBlockId out
      return (votor, out))
    (votor, out)

def prune : Votor :=
  { votor with slots := votor.slots.retain fun slot _ => votor.firstUnprunedSlot ≤ slot }

def handleFinalCert (slot : Nat) (out : VotorOut) : Except Panic (Votor × VotorOut) := do
  let out ← setTimeouts (firstSlotInWindow slot) out
  return ({ votor with highestFinalCertSlot := max votor.highestFinalCertSlot slot }.prune, out)

def handleCertCreated (cert : Cert) (out : VotorOut) : Except Panic (Votor × VotorOut) := do
  let (votor, out) ← match cert with
    | .notar notar =>
      (votor.setState notar.slot { votor.slotState notar.slot with
        blockNotarized := some notar.blockHash }).tryFinal notar.slot notar.blockHash out
    | .final final => votor.handleFinalCert final.slot out
    | .fastFinal final => votor.handleFinalCert final.slot out
    | _ => pure (votor, out)
  return (votor, { out with msgs := out.msgs ++ [.cert cert] })

def shouldIgnorePoolEvent : VotorPoolEvent → Bool
  | .standstill _ _ => false
  | .certCreated cert => cert.slot < votor.firstUnprunedSlot
  | .parentReady slot _ => slot < votor.firstUnprunedSlot || votor.isRetired slot
  | .safeToNotar block => block.slot < votor.firstUnprunedSlot || votor.isRetired block.slot
  | .safeToSkip slot => slot < votor.firstUnprunedSlot || votor.isRetired slot

/-- The common part of the safe-to events: a fallback vote, then the window. -/
def fallBack (slot : Nat) (vote : Vote) (out : VotorOut) : Except Panic (Votor × VotorOut) := do
  let (votor, out) ← votor.trySkipWindow slot (out.pushVote vote)
  return (votor.setState slot { votor.slotState slot with badWindow := true }, out)

def handlePoolEvent (event : VotorPoolEvent) (out : VotorOut) : Except Panic (Votor × VotorOut) :=
  if votor.shouldIgnorePoolEvent event then .ok (votor, out)
  else match event with
    | .parentReady slot parent => do
      let state := votor.slotState slot
      let votor := if parent ∈ state.parentsReady then votor
        else votor.setState slot { state with parentsReady := state.parentsReady ++ [parent] }
      let (votor, out) ← votor.checkPendingBlocks out
      let out ← setTimeouts slot out
      return (votor, out)
    | .safeToNotar block =>
      votor.fallBack block.slot (.newNotarFallback block.slot block.hash votor.validatorIndex) out
    | .safeToSkip slot => votor.fallBack slot (.newSkipFallback slot votor.validatorIndex) out
    | .certCreated cert => votor.handleCertCreated cert out
    | .standstill _ bundle => .ok (votor, { out with msgs := out.msgs ++ bundle })

/-- Whether a block or a timeout comes too late. -/
def isSettled (slot : Nat) : Bool :=
  slot ≤ votor.highestFinalCertSlot || votor.isRetired slot

def handleBlockstoreEvent (event : VotorBlockstoreEvent) (out : VotorOut) : Except Panic (Votor × VotorOut) :=
  if votor.isSettled event.slot then .ok (votor, out)
  else match event with
    | .firstShred slot => .ok (votor.setState slot { votor.slotState slot with receivedShred := true }, out)
    | .invalidBlock slot => votor.trySkipWindow slot out
    | .block slot blockId parentBlockId =>
      if votor.hasVoted slot then .ok (votor, out)
      else do
        let (votor, out, notarized) ← votor.tryNotar slot blockId parentBlockId out
        if notarized then votor.checkPendingBlocks out
        else return (votor.setState slot { votor.slotState slot with
          pendingBlock := some (blockId, parentBlockId) }, out)

def handleTimeoutEvent (event : VotorTimeout) (out : VotorOut) : Except Panic (Votor × VotorOut) :=
  if votor.isSettled event.slot then .ok (votor, out)
  else match event with
    | .timeout slot => if votor.hasVoted slot then .ok (votor, out) else votor.trySkipWindow slot out
    | .crashedLeader slot =>
      if votor.receivedShred slot ∨ votor.hasVoted slot then .ok (votor, out)
      else votor.trySkipWindow slot out

end Votor

end Karstflow.Alpenglow
