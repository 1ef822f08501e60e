import Karstflow.Data.Bytes
import Karstflow.Data.Machine

namespace Karstflow.Types

open Data

abbrev Pubkey := Octets 32

instance : LawfulBEq Pubkey := inferInstance

/-- A 32-byte hash; the source spells it as a `Pubkey` or a plain array. -/
abbrev Hash := Octets 32

namespace Pubkey

def zeroed : Pubkey := .filled 32 0

def maxSeedLen : Nat := 32

def pdaMarker : List UInt8 := "ProgramDerivedAddress".toList.map fun char => .ofNat char.toNat

inductive PubkeyError where
  | maxSeedLengthExceeded
  | illegalOwner
deriving Repr, DecidableEq

/-- The name that `{:?}` prints. -/
def PubkeyError.debug : PubkeyError → String
  | .maxSeedLengthExceeded => "MaxSeedLengthExceeded"
  | .illegalOwner => "IllegalOwner"

/-- The address derived from a base key, a seed and an owner; `sha256` hashes
the concatenation. -/
def createWithSeed (sha256 : List UInt8 → Hash) (base : Pubkey) (seed : List UInt8) (owner : Pubkey) :
    Except PubkeyError Pubkey :=
  if maxSeedLen < seed.length then .error .maxSeedLengthExceeded
  else if owner.bytes.extract 11 (11 + pdaMarker.length) = pdaMarker then .error .illegalOwner
  else .ok (sha256 (base.bytes ++ seed ++ owner.bytes))

end Pubkey

/-- An account, its metadata flattened. Lamports are a `u64`. -/
structure Account where
  lamports : Nat
  owner : Pubkey
  executable : Bool
  rentEpoch : Nat
  data : List UInt8
  lamports_le : lamports ≤ u64Max
deriving DecidableEq

namespace Account

def zeroed : Account :=
  { lamports := 0, owner := .zeroed, executable := false, rentEpoch := 0, data := [],
    lamports_le := Nat.zero_le _ }

/-- Store a balance; the cell has 64 bits. -/
def setLamports (account : Account) (value : Nat) : Account :=
  { account with
    lamports := value % (u64Max + 1)
    lamports_le := Nat.le_of_lt_succ (Nat.mod_lt _ (Nat.succ_pos _)) }

/-- `saturating_sub` on the balance. -/
def debit (account : Account) (amount : Nat) : Account := account.setLamports (account.lamports - amount)

/-- `saturating_add` on the balance. -/
def credit (account : Account) (amount : Nat) : Account :=
  account.setLamports (satAdd account.lamports amount)

variable (account : Account)

@[simp] theorem setLamports_owner : (account.setLamports value).owner = account.owner := rfl

@[simp] theorem setLamports_data : (account.setLamports value).data = account.data := rfl

@[simp] theorem setLamports_lamports : (account.setLamports value).lamports = value % (u64Max + 1) := rfl

@[simp] theorem debit_lamports : (account.debit amount).lamports = account.lamports - amount := by
  have bounded := account.lamports_le
  rw [debit, setLamports_lamports, Nat.mod_eq_of_lt (by omega)]

theorem debit_zero : account.debit 0 = account := by
  cases account with
  | mk lamports owner executable rentEpoch data bounded =>
    simp only [debit, setLamports, Nat.sub_zero, mk.injEq, and_self, and_true]
    exact Nat.mod_eq_of_lt (Nat.lt_succ_of_le bounded)

@[simp] theorem debit_owner : (account.debit amount).owner = account.owner := rfl

@[simp] theorem debit_data (amount : Nat) : (account.debit amount).data = account.data := rfl

@[simp] theorem credit_lamports : (account.credit amount).lamports = satAdd account.lamports amount := by
  have bounded := satAdd_le_max account.lamports amount
  rw [credit, setLamports_lamports, Nat.mod_eq_of_lt (by omega)]

@[simp] theorem credit_owner : (account.credit amount).owner = account.owner := rfl

@[simp] theorem credit_data : (account.credit amount).data = account.data := rfl

theorem lamports_le_credit (amount : Nat) : account.lamports ≤ (account.credit amount).lamports := by
  have bounded := account.lamports_le
  rw [credit_lamports, satAdd]
  omega

end Account

end Karstflow.Types
