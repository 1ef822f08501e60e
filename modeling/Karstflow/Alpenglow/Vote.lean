import Karstflow.Alpenglow.Base

namespace Karstflow.Alpenglow

open Data

/-! Votes and the validators that cast them. Signature bytes and keys are left
out: verification accepts every signature. -/

structure BlockVote where
  slot : Nat
  blockHash : BlockHash
  signer : Nat
deriving Repr, DecidableEq

structure SlotVote where
  slot : Nat
  signer : Nat
deriving Repr, DecidableEq

inductive Vote where
  | notar (vote : BlockVote)
  | notarFallback (vote : BlockVote)
  | skip (vote : SlotVote)
  | skipFallback (vote : SlotVote)
  | final (vote : SlotVote)
deriving Repr, DecidableEq

namespace Vote

def newNotar (slot : Nat) (hash : BlockHash) (signer : Nat) : Vote := notar ⟨slot, hash, signer⟩

def newNotarFallback (slot : Nat) (hash : BlockHash) (signer : Nat) : Vote := notarFallback ⟨slot, hash, signer⟩

def newSkip (slot signer : Nat) : Vote := skip ⟨slot, signer⟩

def newSkipFallback (slot signer : Nat) : Vote := skipFallback ⟨slot, signer⟩

def newFinal (slot signer : Nat) : Vote := final ⟨slot, signer⟩

def slot : Vote → Nat
  | notar vote | notarFallback vote => vote.slot
  | skip vote | skipFallback vote | final vote => vote.slot

def signer : Vote → Nat
  | notar vote | notarFallback vote => vote.signer
  | skip vote | skipFallback vote | final vote => vote.signer

def checkSig (_ : Vote) : Bool := true

end Vote

structure ValidatorInfo where
  id : Nat
  stake : Nat
deriving Repr, DecidableEq

structure EpochInfo where
  validators : List ValidatorInfo
  totalStake : Nat
  nonempty : validators ≠ []
  idIsIndex : validators.map ValidatorInfo.id = .range validators.length
  total : totalStake = validators.foldl (fun total validator => satAdd total validator.stake) 0

namespace EpochInfo

def new (validators : List ValidatorInfo) : Except Panic EpochInfo :=
  if nonempty : validators ≠ [] then
    if idIsIndex : validators.map ValidatorInfo.id = .range validators.length then
      .ok { validators, totalStake := _, nonempty, idIsIndex, total := rfl }
    else .error .assertion
  else .error .assertion

def validatorCnt (info : EpochInfo) : Nat := info.validators.length

def validator (info : EpochInfo) (id : Nat) : Except Panic ValidatorInfo :=
  match info.validators[id]? with
  | some validator => .ok validator
  | none => .error .outOfBounds

def isWeakestQuorum (info : EpochInfo) (stake : Nat) : Bool := Alpenglow.isWeakestQuorum stake info.totalStake

def isWeakQuorum (info : EpochInfo) (stake : Nat) : Bool := Alpenglow.isWeakQuorum stake info.totalStake

def isQuorum (info : EpochInfo) (stake : Nat) : Bool := Alpenglow.isQuorum stake info.totalStake

def isStrongQuorum (info : EpochInfo) (stake : Nat) : Bool := Alpenglow.isStrongQuorum stake info.totalStake

end EpochInfo

end Karstflow.Alpenglow
