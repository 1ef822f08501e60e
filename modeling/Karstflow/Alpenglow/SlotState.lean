import Karstflow.Alpenglow.Cert

namespace Karstflow.Alpenglow

open Data

inductive ParentStatus where
  | known
  | certified
deriving Repr, DecidableEq

inductive S2n where
  | safeToNotar
  | missingBlock
  | awaiting
deriving Repr, DecidableEq

inductive SlashableOffence where
  | notarDifferentHash
  | skipAndNotarize
  | skipAndFinalize
  | notarFallbackAndFinalize
deriving Repr, DecidableEq

structure Slashable where
  offence : SlashableOffence
  validator : Nat
  slot : Nat
deriving Repr, DecidableEq

inductive PoolEvent where
  | safeToNotar (block : BlockId)
  | safeToSkip (slot : Nat)
deriving Repr, DecidableEq

inductive NotifyParent where
  | none
  | event (event : PoolEvent)
  | repair (block : BlockId)
deriving Repr, DecidableEq

structure SlotStateOutputs where
  certs : List Cert
  events : List PoolEvent
  repairs : List BlockId
deriving Repr, DecidableEq

namespace SlotStateOutputs

def empty : SlotStateOutputs := ⟨[], [], []⟩

def pushCert (out : SlotStateOutputs) (cert : Cert) : SlotStateOutputs :=
  { out with certs := out.certs ++ [cert] }

def pushEvent (out : SlotStateOutputs) (event : PoolEvent) : SlotStateOutputs :=
  { out with events := out.events ++ [event] }

def pushRepair (out : SlotStateOutputs) (block : BlockId) : SlotStateOutputs :=
  { out with repairs := out.repairs ++ [block] }

/-- What a safe-to-notar answer adds to the outputs. -/
def pushS2n (out : SlotStateOutputs) (block : BlockId) : S2n → SlotStateOutputs
  | .safeToNotar => out.pushEvent (.safeToNotar block)
  | .missingBlock => out.pushRepair block
  | .awaiting => out

end SlotStateOutputs

structure ValidatorVotes where
  notar : Option BlockVote
  skip : Option SlotVote
  skipFallback : Option SlotVote
  finalize : Option SlotVote
deriving Repr, DecidableEq

def ValidatorVotes.default : ValidatorVotes := ⟨none, none, none, none⟩

structure SlotCertificates where
  notar : Option NotarCert
  skip : Option SkipCert
  fastFinalize : Option FastFinalCert
  finalize : Option FinalCert
  nf : List NotarFallbackCert
deriving Repr, DecidableEq

structure SlotState where
  slot : Nat
  ownId : Nat
  votes : Table Nat ValidatorVotes
  nfVotes : Table (Nat × BlockHash) BlockVote
  notarStake : Table BlockHash Nat
  nfStake : Table BlockHash Nat
  skipStake : Nat
  skipFallbackStake : Nat
  finalizeStake : Nat
  notarOrSkipStake : Nat
  topNotarStake : Nat
  parents : Table BlockHash ParentStatus
  pendingS2n : List BlockHash
  sentS2n : List BlockHash
  sentSafeToSkip : Bool
  certs : SlotCertificates

namespace SlotState

def new (slot ownId : Nat) : SlotState :=
  { slot, ownId
    votes := .empty
    nfVotes := .empty
    notarStake := .empty
    nfStake := .empty
    skipStake := 0
    skipFallbackStake := 0
    finalizeStake := 0
    notarOrSkipStake := 0
    topNotarStake := 0
    parents := .empty
    pendingS2n := []
    sentS2n := []
    sentSafeToSkip := false
    certs := ⟨none, none, none, none, []⟩ }

variable (state : SlotState)

/-- The votes of a validator; no function tells a missing entry from an empty one. -/
def vv (validator : Nat) : ValidatorVotes :=
  (state.votes.get validator).getD .default

def setVotes (validator : Nat) (votes : ValidatorVotes) : SlotState :=
  { state with votes := state.votes.insert validator votes }

def bySigner (votes : List BlockVote) : List BlockVote :=
  votes.insertionSort fun left right => left.signer ≤ right.signer

def slotVotesBySigner (votes : List SlotVote) : List SlotVote :=
  votes.insertionSort fun left right => left.signer ≤ right.signer

def collectNotar (hash : BlockHash) : List BlockVote :=
  bySigner ((state.votes.entries.filterMap fun entry => entry.2.notar).filter (·.blockHash = hash))

def collectNf (hash : BlockHash) : List BlockVote :=
  bySigner ((state.nfVotes.entries.filter fun entry => entry.1.2 = hash).map Prod.snd)

def collectSkip : List SlotVote :=
  slotVotesBySigner (state.votes.entries.filterMap fun entry => entry.2.skip)

def collectSkipFallback : List SlotVote :=
  slotVotesBySigner (state.votes.entries.filterMap fun entry => entry.2.skipFallback)

def collectFinal : List SlotVote :=
  slotVotesBySigner (state.votes.entries.filterMap fun entry => entry.2.finalize)

def isNotarFallback (hash : BlockHash) : Bool :=
  state.certs.nf.any (·.blockHash = hash)

def notarStakeOf (hash : BlockHash) : Nat := (state.notarStake.get hash).getD 0

def nfStakeOf (hash : BlockHash) : Nat := (state.nfStake.get hash).getD 0

def insertPending (hash : BlockHash) : SlotState :=
  { state with pendingS2n := state.pendingS2n.insert hash }

def markSent (hash : BlockHash) : SlotState :=
  { state with pendingS2n := state.pendingS2n.filter (· ≠ hash), sentS2n := state.sentS2n.insert hash }

/-- The own index as the table of votes is keyed, a `u16`. -/
def ownIndex : Nat := state.ownId % 65536

/-- Enough notar votes, or enough together with the skip votes. -/
def hasSupport (hash : BlockHash) (info : EpochInfo) : Except Panic Bool :=
  if info.isWeakQuorum (state.notarStakeOf hash) then .ok true
  else do
    let both ← addU64 (state.notarStakeOf hash) state.skipStake
    return info.isQuorum both

def checkSafeToNotar (hash : BlockHash) (info : EpochInfo) : Except Panic (SlotState × S2n) := do
  if !info.isWeakestQuorum (state.notarStakeOf hash) then return (state, .awaiting)
  if !(← state.hasSupport hash info) then return (state.insertPending hash, .awaiting)
  match state.parents.get hash with
  | none => return (state, .missingBlock)
  | some .known => return (state, .awaiting)
  | some .certified =>
    let own := state.vv state.ownIndex
    if own.skip.isSome then return (state.markSent hash, .safeToNotar)
    match own.notar with
    | some voted =>
      if voted.blockHash ≠ hash then return (state.markSent hash, .safeToNotar)
      else return (state, .awaiting)
    | none => return (state.insertPending hash, .awaiting)

/-- One round of `process_pending_safe_to_notar`. -/
def processPending (info : EpochInfo) (state : SlotState) (out : SlotStateOutputs) (hash : BlockHash) :
    Except Panic (SlotState × SlotStateOutputs) :=
  if hash ∈ state.sentS2n then .ok (state, out)
  else do
    let (state, answer) ← state.checkSafeToNotar hash info
    return (state, out.pushS2n ⟨state.slot, hash⟩ answer)

/-- The set is walked in no particular order; here in the order of the list. -/
def processPendingSafeToNotar (info : EpochInfo) (out : SlotStateOutputs) :
    Except Panic (SlotState × SlotStateOutputs) :=
  (state.pendingS2n.filter (· ∉ state.sentS2n)).foldlM
    (fun (state, out) hash => processPending info state out hash) (state, out)

/-- The safe-to-skip check, made after notar and after skip votes. -/
def checkSafeToSkip (info : EpochInfo) (out : SlotStateOutputs) : Except Panic (SlotState × SlotStateOutputs) :=
  if state.sentSafeToSkip then .ok (state, out)
  else do
    let others ← subU64 state.notarOrSkipStake state.topNotarStake
    if info.isWeakQuorum others ∧ (state.vv state.ownIndex).notar.isSome then
      return ({ state with sentSafeToSkip := true }, out.pushEvent (.safeToSkip state.slot))
    else return (state, out)

/-- A certificate is made of the stored votes when it is due. -/
def createCert {α : Type} (due : Bool) (made : Except Panic (Except CertError α)) (wrap : α → Cert)
    (out : SlotStateOutputs) : Except Panic SlotStateOutputs :=
  if due then do
    let cert ← expectCert made
    return out.pushCert (wrap cert)
  else .ok out

def createNotarFallbackCert (hash : BlockHash) (info : EpochInfo) (out : SlotStateOutputs) :
    Except Panic SlotStateOutputs := do
  let both ← addU64 (state.nfStakeOf hash) (state.notarStakeOf hash)
  createCert (info.isQuorum both && !state.isNotarFallback hash)
    (NotarFallbackCert.tryNew (state.collectNotar hash) (state.collectNf hash) info.validators) .notarFallback out

def countNotarStake (hash : BlockHash) (stake : Nat) (info : EpochInfo)
    (out : SlotStateOutputs) : Except Panic (SlotState × SlotStateOutputs) := do
  let notarStake ← addU64 (state.notarStakeOf hash) stake
  let notarOrSkipStake ← addU64 state.notarOrSkipStake stake
  let state := { state with
    notarStake := state.notarStake.insert hash notarStake
    notarOrSkipStake
    topNotarStake := max state.topNotarStake notarStake }
  let (state, out) ← processPending info state out hash
  let (state, out) ← state.checkSafeToSkip info out
  let out ← state.createNotarFallbackCert hash info out
  let out ← createCert (info.isQuorum notarStake && state.certs.notar.isNone)
    (NotarCert.tryNew (state.collectNotar hash) info.validators) .notar out
  let out ← createCert (info.isStrongQuorum notarStake && state.certs.fastFinalize.isNone)
    (FastFinalCert.tryNew (state.collectNotar hash) info.validators) .fastFinal out
  return (state, out)

def countNotarFallbackStake (hash : BlockHash) (stake : Nat) (info : EpochInfo)
    (out : SlotStateOutputs) : Except Panic (SlotState × SlotStateOutputs) := do
  let nfStake ← addU64 (state.nfStakeOf hash) stake
  let state := { state with nfStake := state.nfStake.insert hash nfStake }
  let out ← state.createNotarFallbackCert hash info out
  return (state, out)

def addSkipStake (stake : Nat) (fallback : Bool) : Except Panic SlotState :=
  if fallback then do
    let skipFallbackStake ← addU64 state.skipFallbackStake stake
    return { state with skipFallbackStake }
  else do
    let skipStake ← addU64 state.skipStake stake
    return { state with skipStake }

def countSkipStake (stake : Nat) (fallback : Bool) (info : EpochInfo)
    (out : SlotStateOutputs) : Except Panic (SlotState × SlotStateOutputs) := do
  let state ← state.addSkipStake stake fallback
  let (state, out) ← state.processPendingSafeToNotar info out
  let totalSkip ← addU64 state.skipStake state.skipFallbackStake
  let out ← createCert (info.isQuorum totalSkip && state.certs.skip.isNone)
    (SkipCert.tryNew state.collectSkip state.collectSkipFallback info.validators) .skip out
  state.checkSafeToSkip info out

def countFinalizeStake (stake : Nat) (info : EpochInfo) (out : SlotStateOutputs) :
    Except Panic (SlotState × SlotStateOutputs) := do
  let finalizeStake ← addU64 state.finalizeStake stake
  let state := { state with finalizeStake }
  let out ← createCert (info.isQuorum finalizeStake && state.certs.finalize.isNone)
    (FinalCert.tryNew state.collectFinal info.validators) .final out
  return (state, out)

def addCert : Cert → SlotState
  | .notar cert => { state with certs := { state.certs with notar := some cert } }
  | .notarFallback cert =>
    if state.isNotarFallback cert.blockHash then state
    else { state with certs := { state.certs with nf := state.certs.nf ++ [cert] } }
  | .skip cert => { state with certs := { state.certs with skip := some cert } }
  | .fastFinal cert => { state with certs := { state.certs with fastFinalize := some cert } }
  | .final cert => { state with certs := { state.certs with finalize := some cert } }

/-- Notar and notar-fallback votes are counted before they are stored, the
others after. -/
def storeAndCount (vote : Vote) (voterStake : Nat) (info : EpochInfo) : Except Panic (SlotState × SlotStateOutputs) :=
  let voter := vote.signer
  match vote with
  | .notar vote => do
    let (state, out) ← state.countNotarStake vote.blockHash voterStake info .empty
    return (state.setVotes voter { state.vv voter with notar := some vote }, out)
  | .notarFallback vote => do
    let (state, out) ← state.countNotarFallbackStake vote.blockHash voterStake info .empty
    assert (!state.nfVotes.contains (voter, vote.blockHash)) .assertion
    return ({ state with nfVotes := state.nfVotes.insert (voter, vote.blockHash) vote }, out)
  | .skip vote => do
    let state := state.setVotes voter { state.vv voter with skip := some vote }
    let notarOrSkipStake ← addU64 state.notarOrSkipStake voterStake
    countSkipStake { state with notarOrSkipStake } voterStake false info .empty
  | .skipFallback vote =>
    (state.setVotes voter { state.vv voter with skipFallback := some vote }).countSkipStake
      voterStake true info .empty
  | .final vote =>
    (state.setVotes voter { state.vv voter with finalize := some vote }).countFinalizeStake
      voterStake info .empty

def addVote (vote : Vote) (voterStake : Nat) (info : EpochInfo) : Except Panic (SlotState × SlotStateOutputs) := do
  let (state, out) ← state.storeAndCount vote voterStake info
  if vote.signer = state.ownId then state.processPendingSafeToNotar info out
  else return (state, out)

def notifyParentKnown (hash : BlockHash) : SlotState :=
  if state.parents.contains hash then state
  else { state with parents := state.parents.insert hash .known }

def notifyParentCertified (hash : BlockHash) (info : EpochInfo) : Except Panic (SlotState × NotifyParent) := do
  assert (state.parents.contains hash) .parentNotKnown
  let state := { state with parents := state.parents.insert hash .certified }
  if hash ∈ state.sentS2n then return (state, .none)
  let (state, answer) ← state.checkSafeToNotar hash info
  match answer with
  | .safeToNotar => return (state, .event (.safeToNotar ⟨state.slot, hash⟩))
  | .missingBlock => return (state, .repair ⟨state.slot, hash⟩)
  | .awaiting => return (state, .none)

def checkSlashableOffence (vote : Vote) : Option Slashable :=
  let votes := state.vv vote.signer
  let mk (offence : SlashableOffence) : Option Slashable := some ⟨offence, vote.signer, vote.slot⟩
  match vote with
  | .notar vote =>
    if votes.skip.isSome then mk .skipAndNotarize
    else match votes.notar with
      | some existing => if existing.blockHash ≠ vote.blockHash then mk .notarDifferentHash else none
      | none => none
  | .notarFallback _ => if votes.finalize.isSome then mk .notarFallbackAndFinalize else none
  | .skip _ =>
    if votes.finalize.isSome then mk .skipAndFinalize
    else if votes.notar.isSome then mk .skipAndNotarize
    else none
  | .skipFallback _ => if votes.finalize.isSome then mk .skipAndFinalize else none
  | .final _ =>
    if votes.skip.isSome ∨ votes.skipFallback.isSome then mk .skipAndFinalize
    else if state.nfVotes.entries.any (·.1.1 = vote.signer) then mk .notarFallbackAndFinalize
    else none

def shouldIgnoreVote (vote : Vote) : Bool :=
  let votes := state.vv vote.signer
  match vote with
  | .notar _ => votes.notar.isSome
  | .notarFallback fallback => state.nfVotes.contains (vote.signer, fallback.blockHash)
  | .skip _ | .skipFallback _ => votes.skip.isSome || votes.skipFallback.isSome
  | .final _ => votes.finalize.isSome

end SlotState

end Karstflow.Alpenglow
