import Karstflow.Alpenglow.Vote

namespace Karstflow.Alpenglow

open Data

def maxSigners : Nat := 2048

structure AggregateSignature where
  nbits : Nat
  bitmask : BitVec 2048
deriving Repr, DecidableEq

namespace AggregateSignature

def init (nbits : Nat) : Except Panic AggregateSignature := do
  assert (nbits ≤ maxSigners) .assertion
  return { nbits, bitmask := 0 }

def isSigner (signature : AggregateSignature) (validator : Nat) : Bool :=
  validator < signature.nbits && signature.bitmask.getLsbD validator

def add (signature : AggregateSignature) (signer : Nat) : Except Panic AggregateSignature := do
  assert (signer < signature.nbits) .assertion
  assert (!signature.isSigner signer) .duplicateSigner
  return { signature with bitmask := signature.bitmask ||| .twoPow 2048 signer }

/-- The bitmask length must be the number of public keys; the signature itself
is accepted. -/
def verifyBytes (signature : AggregateSignature) (keys : Nat) : Bool := signature.nbits = keys

end AggregateSignature

inductive CertError where
  | slotMismatch
  | blockHashMismatch
deriving Repr, DecidableEq

structure NotarCert where
  slot : Nat
  blockHash : BlockHash
  aggSig : AggregateSignature
  stake : Nat
deriving Repr, DecidableEq

structure NotarFallbackCert where
  slot : Nat
  blockHash : BlockHash
  aggSigNotar : Option AggregateSignature
  aggSigNotarFallback : Option AggregateSignature
  stake : Nat
deriving Repr, DecidableEq

structure SkipCert where
  slot : Nat
  aggSigSkip : Option AggregateSignature
  aggSigSkipFallback : Option AggregateSignature
  stake : Nat
deriving Repr, DecidableEq

structure FastFinalCert where
  slot : Nat
  blockHash : BlockHash
  aggSig : AggregateSignature
  stake : Nat
deriving Repr, DecidableEq

structure FinalCert where
  slot : Nat
  aggSig : AggregateSignature
  stake : Nat
deriving Repr, DecidableEq

/-- `expect` on the result of a constructor, which can abort or refuse its votes. -/
def expectCert {α : Type} (result : Except Panic (Except CertError α)) : Except Panic α := do
  match ← result with
  | .ok cert => return cert
  | .error _ => .error .badCert

def aggBuild (signers : List Nat) (nbits : Nat) : Except Panic AggregateSignature := do
  let empty ← AggregateSignature.init nbits
  signers.foldlM AggregateSignature.add empty

/-- What the constructors read of a vote; slot votes have no hash. -/
structure Ballot where
  slot : Nat
  blockHash : Option BlockHash
  signer : Nat
deriving Repr, DecidableEq

def BlockVote.ballot (vote : BlockVote) : Ballot := ⟨vote.slot, some vote.blockHash, vote.signer⟩

def SlotVote.ballot (vote : SlotVote) : Ballot := ⟨vote.slot, none, vote.signer⟩

/-- The loop that all constructors share: every vote is for `slot` and `hash`,
and the stakes add up from `stake`. -/
def tally (validators : List ValidatorInfo) (slot : Nat) (hash : Option BlockHash) :
    List Ballot → Nat → Except Panic (Except CertError Nat)
  | [], stake => .ok (.ok stake)
  | vote :: rest, stake =>
    if vote.slot ≠ slot then .ok (.error .slotMismatch)
    else if vote.blockHash ≠ hash then .ok (.error .blockHashMismatch)
    else match validators[vote.signer]? with
      | none => .error .outOfBounds
      | some validator => tally validators slot hash rest (satAdd stake validator.stake)

def aggregate (validators : List ValidatorInfo) (slot : Nat) (hash : Option BlockHash)
    (votes : List Ballot) : Except Panic (Except CertError (AggregateSignature × Nat)) := do
  match ← tally validators slot hash votes 0 with
  | .error refused => return .error refused
  | .ok stake =>
    let aggSig ← aggBuild (votes.map Ballot.signer) validators.length
    return .ok (aggSig, stake)

/-- The aggregate of a possibly empty half of a mixed certificate. -/
def aggregateHalf (validators : List ValidatorInfo) (votes : List Ballot) :
    Except Panic (Option AggregateSignature) :=
  if votes.isEmpty then .ok none
  else do
    let aggSig ← aggBuild (votes.map Ballot.signer) validators.length
    return some aggSig

def aggregateMixed (validators : List ValidatorInfo) (slot : Nat) (hash : Option BlockHash)
    (left right : List Ballot) :
    Except Panic (Except CertError (Option AggregateSignature × Option AggregateSignature × Nat)) := do
  match ← tally validators slot hash left 0 with
  | .error refused => return .error refused
  | .ok stake =>
    match ← tally validators slot hash right stake with
    | .error refused => return .error refused
    | .ok stake =>
      let leftSig ← aggregateHalf validators left
      let rightSig ← aggregateHalf validators right
      return .ok (leftSig, rightSig, stake)

def NotarCert.tryNew (votes : List BlockVote) (validators : List ValidatorInfo) :
    Except Panic (Except CertError NotarCert) :=
  match votes with
  | [] => .error .assertion
  | first :: _ => do
    match ← aggregate validators first.slot (some first.blockHash) (votes.map BlockVote.ballot) with
    | .error refused => return .error refused
    | .ok (aggSig, stake) => return .ok { slot := first.slot, blockHash := first.blockHash, aggSig, stake }

def FastFinalCert.tryNew (votes : List BlockVote) (validators : List ValidatorInfo) :
    Except Panic (Except CertError FastFinalCert) := do
  match ← NotarCert.tryNew votes validators with
  | .error refused => return .error refused
  | .ok cert =>
    return .ok { slot := cert.slot, blockHash := cert.blockHash, aggSig := cert.aggSig, stake := cert.stake }

def FinalCert.tryNew (votes : List SlotVote) (validators : List ValidatorInfo) :
    Except Panic (Except CertError FinalCert) :=
  match votes with
  | [] => .error .assertion
  | first :: _ => do
    match ← aggregate validators first.slot none (votes.map SlotVote.ballot) with
    | .error refused => return .error refused
    | .ok (aggSig, stake) => return .ok { slot := first.slot, aggSig, stake }

def NotarFallbackCert.tryNew (notarVotes fallbackVotes : List BlockVote) (validators : List ValidatorInfo) :
    Except Panic (Except CertError NotarFallbackCert) :=
  match notarVotes ++ fallbackVotes with
  | [] => .error .assertion
  | first :: _ => do
    match ← aggregateMixed validators first.slot (some first.blockHash)
        (notarVotes.map BlockVote.ballot) (fallbackVotes.map BlockVote.ballot) with
    | .error refused => return .error refused
    | .ok (aggSigNotar, aggSigNotarFallback, stake) =>
      return .ok {
        slot := first.slot, blockHash := first.blockHash, aggSigNotar, aggSigNotarFallback, stake }

def SkipCert.tryNew (skipVotes fallbackVotes : List SlotVote) (validators : List ValidatorInfo) :
    Except Panic (Except CertError SkipCert) :=
  match skipVotes ++ fallbackVotes with
  | [] => .error .assertion
  | first :: _ => do
    match ← aggregateMixed validators first.slot none
        (skipVotes.map SlotVote.ballot) (fallbackVotes.map SlotVote.ballot) with
    | .error refused => return .error refused
    | .ok (aggSigSkip, aggSigSkipFallback, stake) =>
      return .ok { slot := first.slot, aggSigSkip, aggSigSkipFallback, stake }

inductive Cert where
  | notar (cert : NotarCert)
  | notarFallback (cert : NotarFallbackCert)
  | skip (cert : SkipCert)
  | fastFinal (cert : FastFinalCert)
  | final (cert : FinalCert)
deriving Repr, DecidableEq

namespace Cert

def slot : Cert → Nat
  | notar cert => cert.slot
  | notarFallback cert => cert.slot
  | skip cert => cert.slot
  | fastFinal cert => cert.slot
  | final cert => cert.slot

def isSigner (cert : Cert) (validator : Nat) : Bool :=
  let any (signature : Option AggregateSignature) := signature.any (·.isSigner validator)
  match cert with
  | notar cert => cert.aggSig.isSigner validator
  | fastFinal cert => cert.aggSig.isSigner validator
  | final cert => cert.aggSig.isSigner validator
  | notarFallback cert => any cert.aggSigNotar || any cert.aggSigNotarFallback
  | skip cert => any cert.aggSigSkip || any cert.aggSigSkipFallback

/-- The stake of the signers, each counted once. -/
def signedStake (cert : Cert) (info : EpochInfo) : Except Panic Nat :=
  (info.validators.filter fun validator => cert.isSigner validator.id).foldlM
    (fun sum validator => addU64 sum validator.stake) 0

def checkThreshold (cert : Cert) (info : EpochInfo) : Except Panic Bool := do
  let stake ← cert.signedStake info
  match cert with
  | fastFinal _ => return info.isStrongQuorum stake
  | _ => return info.isQuorum stake

def checkSig (cert : Cert) (validators : List ValidatorInfo) : Bool :=
  let verify (signature : AggregateSignature) := signature.verifyBytes validators.length
  match cert with
  | notar cert => verify cert.aggSig
  | fastFinal cert => verify cert.aggSig
  | final cert => verify cert.aggSig
  | notarFallback cert => cert.aggSigNotar.all verify && cert.aggSigNotarFallback.all verify
  | skip cert => cert.aggSigSkip.all verify && cert.aggSigSkipFallback.all verify

end Cert

end Karstflow.Alpenglow
