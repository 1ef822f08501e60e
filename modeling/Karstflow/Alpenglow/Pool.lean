import Karstflow.Alpenglow.FinalityTracker
import Karstflow.Alpenglow.ParentReadyTracker
import Karstflow.Alpenglow.SlotState
import Karstflow.Alpenglow.Votor

namespace Karstflow.Alpenglow

open Data

inductive AddError where
  | slotOutOfBounds
  | unknownSigner
  | invalidSignature
  | duplicate
  | slashable (detail : Slashable)
  | thresholdNotMet
deriving Repr, DecidableEq

/-- The output sink. `finalizations` is a trace of what the finality tracker
answered; the source hands each answer to `handle_finalization` and drops it. -/
structure PoolOut where
  events : List VotorPoolEvent
  repairs : List BlockId
  finalizations : List FinalizationEvent
deriving Repr, DecidableEq

namespace PoolOut

def empty : PoolOut := ⟨[], [], []⟩

def pushEvent (out : PoolOut) (event : VotorPoolEvent) : PoolOut :=
  { out with events := out.events ++ [event] }

def pushRepair (out : PoolOut) (block : BlockId) : PoolOut :=
  { out with repairs := out.repairs ++ [block] }

def pushParents (out : PoolOut) (parents : List ParentReady) : PoolOut :=
  { out with events := out.events ++ parents.map fun ready => .parentReady ready.slot ready.parent }

def pushFinalization (out : PoolOut) (event : FinalizationEvent) : PoolOut :=
  { out with finalizations := out.finalizations ++ [event] }

end PoolOut

def PoolEvent.toVotor : PoolEvent → VotorPoolEvent
  | safeToNotar block => .safeToNotar block
  | safeToSkip slot => .safeToSkip slot

structure RecoveryBundle where
  slot : Nat
  certs : List Cert
  votes : List Vote
deriving Repr, DecidableEq

structure Recorded where
  notar : Option Cert
  skip : Option Cert
  fastFinalize : Option Cert
  finalize : Option Cert
  nf : List Cert
  own : List Vote
deriving Repr, DecidableEq

def Recorded.default : Recorded := ⟨none, none, none, none, [], []⟩

structure Pool where
  epochInfo : EpochInfo
  ownId : Nat
  slotStates : Table Nat SlotState
  recorded : Table Nat Recorded
  -- parent to child
  s2nWaiting : Table BlockId BlockId
  finality : FinalityTracker
  parentReady : ParentReadyTracker

namespace Pool

variable (pool : Pool)

def new (ownId : Nat) (epochInfo : EpochInfo) : Pool :=
  { epochInfo, ownId
    slotStates := .empty
    recorded := .empty
    s2nWaiting := .empty
    finality := .default
    parentReady := .default }

def finalizedSlot : Nat := pool.finality.highestFinalizedSlot

def firstUnprunedSlot (pool : Pool) : Nat := pool.finality.firstUnprunedSlot

def parentsReady (pool : Pool) (slot : Nat) : List BlockId := pool.parentReady.parentsReady slot

/-- The state of a slot. The source stores the initial state on first access;
no function tells a stored initial state from a missing one. -/
def slotState (slot : Nat) : SlotState :=
  (pool.slotStates.get slot).getD (.new slot pool.ownId)

def setState (slot : Nat) (state : SlotState) : Pool :=
  { pool with slotStates := pool.slotStates.insert slot state }

def sendParentReady (out : PoolOut) (ready : Option ParentReady) : Except Panic PoolOut :=
  match ready with
  | none => .ok out
  | some ready => do
    assert (isStartOfWindow ready.slot) .assertion
    return out.pushParents [ready]

def prune (pool : Pool) : Pool :=
  let firstUnpruned := pool.finality.firstUnprunedSlot
  { pool with
    slotStates := pool.slotStates.retain fun slot _ => firstUnpruned ≤ slot
    recorded := pool.recorded.retain fun slot _ => firstUnpruned ≤ slot
    parentReady := pool.parentReady.prune firstUnpruned }

def handleFinalization (pool : Pool) (event : FinalizationEvent) (out : PoolOut) :
    Except Panic (Pool × PoolOut) := do
  let (parentReady, ready) ← pool.parentReady.handleFinalization event.finalized
    event.implicitlyFinalized event.implicitlySkipped
  let out ← sendParentReady (out.pushFinalization event) ready
  return ({ pool with parentReady }.prune, out)

def recordCert (slot : Nat) (cert : Cert) : Pool :=
  let recorded := (pool.recorded.get slot).getD .default
  let recorded := match cert with
    | .notar _ => { recorded with notar := some cert }
    | .skip _ => { recorded with skip := some cert }
    | .fastFinal _ => { recorded with fastFinalize := some cert }
    | .final _ => { recorded with finalize := some cert }
    | .notarFallback fallback =>
      let known := recorded.nf.any fun
        | .notarFallback other => other.blockHash = fallback.blockHash
        | _ => false
      if known then recorded else { recorded with nf := recorded.nf ++ [cert] }
  { pool with recorded := pool.recorded.insert slot recorded }

def pushNotify (out : PoolOut) : NotifyParent → PoolOut
  | .event event => out.pushEvent event.toVotor
  | .repair block => out.pushRepair block
  | .none => out

def notifyChild (child : BlockId) (out : PoolOut) : Except Panic (Pool × PoolOut) := do
  let (state, notify) ← (pool.slotState child.slot).notifyParentCertified child.hash pool.epochInfo
  return (pool.setState child.slot state, pushNotify out notify)

def notifyWaiting (block : BlockId) (out : PoolOut) : Except Panic (Pool × PoolOut) :=
  match pool.s2nWaiting.get block with
  | none => .ok (pool, out)
  | some child => { pool with s2nWaiting := pool.s2nWaiting.erase block }.notifyChild child out

/-- What a certificate that a block is notarized or notarized by fallback does
after the finality tracker. -/
def markCertified (block : BlockId) (out : PoolOut) : Except Panic (Pool × PoolOut) := do
  let (pool, out) ← pool.notifyWaiting block out
  let (parentReady, parents) ← pool.parentReady.markNotarFallback block
  return ({ pool with parentReady }, (out.pushParents parents).pushRepair block)

def finalizeWith (answer : Except Panic (FinalityTracker × FinalizationEvent)) (out : PoolOut) :
    Except Panic (Pool × PoolOut) := do
  let (finality, event) ← answer
  { pool with finality }.handleFinalization event out

def addValidCert (cert : Cert) (out : PoolOut) : Except Panic (Pool × PoolOut) := do
  let slot := cert.slot
  let pool := pool.setState slot ((pool.slotState slot).addCert cert)
  let pool := pool.recordCert slot cert
  let (pool, out) ← match cert with
    | .notar notar => do
      let block : BlockId := ⟨slot, notar.blockHash⟩
      let (pool, out) ← pool.finalizeWith (pool.finality.markNotarized block) out
      pool.markCertified block out
    | .notarFallback fallback => pool.markCertified ⟨slot, fallback.blockHash⟩ out
    | .skip _ => do
      let (parentReady, parents) ← pool.parentReady.markSkipped slot
      pure ({ pool with parentReady }, out.pushParents parents)
    | .fastFinal final => pool.finalizeWith (pool.finality.markFastFinalized ⟨slot, final.blockHash⟩) out
    | .final _ => pool.finalizeWith (pool.finality.markFinalized slot) out
  return (pool, out.pushEvent (.certCreated cert))

def slotInBounds (slot : Nat) : Except Panic Bool := do
  let far ← addU64 pool.finalizedSlot (2 * slotsPerEpoch)
  return pool.firstUnprunedSlot ≤ slot && slot < far

def isDuplicate (state : SlotState) : Cert → Bool
  | .notar _ => state.certs.notar.isSome
  | .notarFallback cert => state.isNotarFallback cert.blockHash
  | .skip _ => state.certs.skip.isSome
  | .fastFinal _ => state.certs.fastFinalize.isSome
  | .final _ => state.certs.finalize.isSome

def addCert (cert : Cert) (out : PoolOut) : Except Panic (Except AddError Unit × Pool × PoolOut) := do
  let slot := cert.slot
  if !(← pool.slotInBounds slot) then return (.error .slotOutOfBounds, pool, out)
  if !(← cert.checkThreshold pool.epochInfo) then return (.error .thresholdNotMet, pool, out)
  if !cert.checkSig pool.epochInfo.validators then return (.error .invalidSignature, pool, out)
  if isDuplicate (pool.slotState slot) cert then return (.error .duplicate, pool, out)
  let (pool, out) ← pool.addValidCert cert out
  return (.ok (), pool, out)

def addValidCerts (certs : List Cert) (out : PoolOut) : Except Panic (Pool × PoolOut) :=
  certs.foldlM (fun (pool, out) cert => pool.addValidCert cert out) (pool, out)

def recordOwn (vote : Vote) : Pool :=
  if vote.signer = pool.ownId then
    let recorded := (pool.recorded.get vote.slot).getD .default
    { pool with recorded := pool.recorded.insert vote.slot { recorded with own := recorded.own ++ [vote] } }
  else pool

def addVote (pool : Pool) (vote : Vote) (out : PoolOut) :
    Except Panic (Except AddError Unit × Pool × PoolOut) := do
  let slot := vote.slot
  if !(← pool.slotInBounds slot) then return (.error .slotOutOfBounds, pool, out)
  if pool.epochInfo.validatorCnt ≤ vote.signer then return (.error .unknownSigner, pool, out)
  let validator ← pool.epochInfo.validator vote.signer
  if !vote.checkSig then return (.error .invalidSignature, pool, out)
  match (pool.slotState slot).checkSlashableOffence vote with
  | some offence => return (.error (.slashable offence), pool, out)
  | none =>
    if (pool.slotState slot).shouldIgnoreVote vote then return (.error .duplicate, pool, out)
    let (state, outputs) ← (pool.slotState slot).addVote vote validator.stake pool.epochInfo
    let pool := (pool.setState slot state).recordOwn vote
    let out := { out with
      events := out.events ++ outputs.events.map PoolEvent.toVotor
      repairs := out.repairs ++ outputs.repairs }
    let (pool, out) ← pool.addValidCerts outputs.certs out
    return (.ok (), pool, out)

def addBlock (block parent : BlockId) (out : PoolOut) : Except Panic (Pool × PoolOut) := do
  assert (parent.slot < block.slot) .assertion
  let (pool, out) ← pool.finalizeWith (pool.finality.addParent block parent) out
  let pool := pool.setState block.slot ((pool.slotState block.slot).notifyParentKnown block.hash)
  let parentIsNf := ((pool.slotStates.get parent.slot).map (·.isNotarFallback parent.hash)).getD false
  if parentIsNf then pool.notifyChild block out
  else return ({ pool with s2nWaiting := pool.s2nWaiting.insert parent block }, out)

def finalCerts (recorded : Recorded) : List Cert :=
  match recorded.fastFinalize, recorded.finalize, recorded.notar with
  | some fast, _, _ => [fast]
  | none, some final, some notar => [final, notar]
  | none, _, _ => []

def recoverFromStandstill (out : PoolOut) : Except Panic (RecoveryBundle × PoolOut) := do
  let slot := pool.finalizedSlot
  let next ← addU64 slot 1
  let finals := ((pool.recorded.get slot).map finalCerts).getD []
  assert (!finals.isEmpty) .noFinalCert
  let later := pool.recorded.entries.filter fun entry => slot < entry.1
  let certs := later.flatMap fun (_, recorded) =>
    recorded.finalize.toList ++ recorded.fastFinalize.toList ++ recorded.notar.toList ++ recorded.nf ++
      recorded.skip.toList
  let votes := later.flatMap fun (_, recorded) => recorded.own
  return ({ slot := next, certs := finals ++ certs, votes }, out.pushEvent (.standstill next []))

end Pool

end Karstflow.Alpenglow
