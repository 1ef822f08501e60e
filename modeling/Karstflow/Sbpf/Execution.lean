import Karstflow.Data.Table
import Karstflow.Types.Account

namespace Karstflow.Sbpf

open Data Karstflow.Types

/-- How a program stops short: with an error text, or by aborting. -/
inductive Failure where
  | error (message : String)
  | panic
deriving Repr, DecidableEq

def require (condition : Prop) [Decidable condition] (message : String) : Except Failure Unit :=
  if condition then .ok () else .error (.error message)

/-- The machine the programs run on: its hash and its check of a proof of
possession, and whether the build aborts on integer overflow or wraps. -/
structure Host where
  sha256 : List UInt8 → Hash
  verifyVoteBlsPop : Pubkey → Octets 48 → Octets 96 → Bool
  overflowChecks : Bool

/-- A machine on which every hash is zero and every proof of possession fails. -/
def Host.bare : Host :=
  { sha256 := fun _ => .filled 32 0, verifyVoteBlsPop := fun _ _ _ => false, overflowChecks := true }

/-- The result of a plain `u64` operator whose exact value is `value`. -/
def Host.fit (host : Host) (value : Nat) : Except Failure Nat :=
  if value ≤ u64Max then .ok value
  else if host.overflowChecks then .error .panic
  else .ok (value % (u64Max + 1))

/-- The sysvar values that the modelled programs read. `exempt` is the float
product with the exemption threshold, cut to a `u64`. -/
structure SysvarSnapshot where
  slot : Nat
  slotsPerEpoch : Nat
  firstNormalSlot : Nat
  lamportsPerByteYear : Nat
  exempt : Nat → Nat
  recentBlockhash : Hash
  lamportsPerSignature : Nat
  activeFeatures : List Pubkey

def isFeatureActive (activeFeatures : List Pubkey) (feature : Pubkey) : Bool :=
  feature ∈ activeFeatures

structure InstructionAccount where
  pubkey : Pubkey
  account : Account
  writable : Bool
deriving DecidableEq

structure ExecutionContext where
  accounts : List InstructionAccount
  instructionData : List UInt8
  sysvarSnapshot : Option SysvarSnapshot
  signers : List Pubkey

namespace ExecutionContext

def account (context : ExecutionContext) (index : Nat) : Except Failure InstructionAccount :=
  match context.accounts[index]? with
  | some entry => .ok entry
  | none => .error .panic

def isSigner (context : ExecutionContext) (key : Pubkey) : Bool := key ∈ context.signers

/-- The signer test of the programs that make one: it is skipped while the
context names no signers. -/
def requireSigner (context : ExecutionContext) (key : Pubkey) (message : String) : Except Failure Unit :=
  require (context.signers = [] ∨ context.isSigner key = true) message

def snapshot (context : ExecutionContext) (message : String) : Except Failure SysvarSnapshot :=
  match context.sysvarSnapshot with
  | some snapshot => .ok snapshot
  | none => .error (.error message)

end ExecutionContext

abbrev Modified := Table Pubkey Account

structure ExecutionOutcome where
  success : Bool
  computeUnitsConsumed : Nat
  modifiedAccounts : Modified

def parseU64 (field : String) (bytes : List UInt8) : Except Failure Nat :=
  if bytes.length = 8 then .ok (leValue bytes) else .error (.error ("Failed to parse " ++ field))

def parsePubkey (field : String) (bytes : List UInt8) : Except Failure Pubkey :=
  match Octets.ofBytes 32 bytes with
  | some key => .ok key
  | none => .error (.error ("Failed to parse " ++ field))

/-- `try_into().unwrap()`. -/
def unwrapOctets (size : Nat) (bytes : List UInt8) : Except Failure (Octets size) :=
  match Octets.ofBytes size bytes with
  | some array => .ok array
  | none => .error .panic

section

variable [Decidable condition]

@[simp] theorem require_eq_ok : require condition message = .ok done ↔ condition := demand_eq_ok

theorem required : (∃ done, require condition message = .ok done ∧ later) ↔ condition ∧ later := by
  simp only [require_eq_ok, exists_const]

theorem ExecutionContext.account_eq_ok {context : ExecutionContext} :
    context.account index = .ok entry ↔ context.accounts[index]? = some entry := by
  cases found : context.accounts[index]? with
  | none | some other => simp [account, found]

theorem ExecutionContext.requireSigner_eq_ok {context : ExecutionContext} :
    context.requireSigner key message = .ok done ↔ context.signers = [] ∨ key ∈ context.signers := by
  rw [requireSigner, require_eq_ok, isSigner, decide_eq_true_eq]

theorem ExecutionContext.snapshot_eq_ok {context : ExecutionContext} {snapshot : SysvarSnapshot} :
    context.snapshot message = .ok snapshot ↔ context.sysvarSnapshot = some snapshot := by
  cases found : context.sysvarSnapshot with
  | none | some other => simp [ExecutionContext.snapshot, found]

theorem unwrapOctets_eq_ok {array : Octets size} : unwrapOctets size bytes = .ok array ↔ array.bytes = bytes := by
  rw [← Octets.ofBytes_eq_some]
  cases found : Octets.ofBytes size bytes with
  | none | some other => simp [unwrapOctets, found]

end

end Karstflow.Sbpf
