import Karstflow.Sbpf.Execution

namespace Karstflow.Sbpf

open Data Karstflow.Types

/-! The input region: the accounts of an instruction as the program sees them,
and how they are read back. -/

def maxInstructionAccounts : Nat := 256

def maxPermittedDataIncrease : Nat := 10 * 1024

def maxPermittedDataLength : Nat := 10 * 1024 * 1024

def nonDupMarker : UInt8 := 0xFF

/-- The padding after `dataLen` bytes. -/
def alignOffset (dataLen : Nat) : Nat := (8 - dataLen % 8) % 8

def flagByte (flag : Bool) : UInt8 := if flag then 1 else 0

/-- The account with its flags as it is written out; no account is marked as a
signer. -/
def renderHeader (entry : InstructionAccount) : List UInt8 :=
  [nonDupMarker, flagByte false, flagByte entry.writable, flagByte entry.account.executable] ++ leBytes 4 0 ++
    entry.pubkey.bytes

def renderAccount (entry : InstructionAccount) : List UInt8 :=
  renderHeader entry ++ entry.account.owner.bytes ++ leBytes 8 entry.account.lamports ++
    leBytes 8 entry.account.data.length ++ entry.account.data ++ List.replicate maxPermittedDataIncrease 0 ++
    List.replicate (alignOffset entry.account.data.length) 0 ++ leBytes 8 u64Max

/-- A repeated account names the place of its first occurrence. -/
def renderDuplicate (first : Nat) : List UInt8 := .ofNat first :: .replicate 7 0

inductive RegionMeta where
  | duplicate (first : Nat)
  | account (isWritable : Bool) (preLen : Nat)
deriving Repr, DecidableEq

/-- The accounts after those with the keys `seen`. -/
def renderFrom : List Pubkey → List InstructionAccount → List UInt8
  | _, [] => []
  | seen, entry :: rest =>
    (match seen.idxOf? entry.pubkey with
      | some first => renderDuplicate first
      | none => renderAccount entry) ++ renderFrom (seen ++ [entry.pubkey]) rest

def metasFrom : List Pubkey → List InstructionAccount → List RegionMeta
  | _, [] => []
  | seen, entry :: rest =>
    (match seen.idxOf? entry.pubkey with
      | some first => .duplicate first
      | none => .account entry.writable entry.account.data.length) :: metasFrom (seen ++ [entry.pubkey]) rest

structure SerializedInput where
  buffer : List UInt8
  metas : List RegionMeta

def serializeAligned (accounts : List InstructionAccount) (instructionData : List UInt8) (programId : Pubkey) :
    Except String SerializedInput :=
  if maxInstructionAccounts < accounts.length then .error "Too many instruction accounts"
  else .ok
    { buffer := leBytes 8 accounts.length ++ renderFrom [] accounts ++ leBytes 8 instructionData.length ++
        instructionData ++ programId.bytes
      metas := metasFrom [] accounts }

structure DeserializedAccount where
  lamports : Nat
  data : List UInt8
  owner : Pubkey

def readOctets (size : Nat) (bytes : List UInt8) (offset : Nat) : Octets size :=
  ⟨resizeBytes (bytes.drop offset) size, length_resizeBytes (bytes.drop offset) size⟩

def readWord (bytes : List UInt8) (offset : Nat) : Nat := leValue (readOctets 8 bytes offset).bytes

/-- One account, whose fields start 40 bytes after `offset`. -/
def readBack (buffer : List UInt8) (index offset preLen : Nat) : Except String DeserializedAccount :=
  let postLen := readWord buffer (offset + 80)
  if buffer.length < offset + 72 then .error "Buffer too short for owner"
  else if buffer.length < offset + 80 then .error "Buffer too short for lamports"
  else if buffer.length < offset + 88 then .error "Buffer too short for data_len"
  else if preLen + maxPermittedDataIncrease < postLen then
    .error ("Account " ++ toString index ++ " data grew beyond realloc limit: " ++ toString preLen ++ " -> " ++
      toString postLen)
  else if maxPermittedDataLength < postLen then
    .error ("Account " ++ toString index ++ " data exceeds maximum: " ++ toString postLen)
  else if buffer.length < offset + 88 + postLen then .error "Buffer too short for account data"
  else .ok
    { lamports := readWord buffer (offset + 72)
      data := buffer.extract (offset + 88) (offset + 88 + postLen)
      owner := readOctets 32 buffer (offset + 40) }

/-- The space of an account: its header and fields, its data as it was, the
room for growth, the padding and the rent epoch. -/
def accountSpan (preLen : Nat) : Nat := 88 + preLen + maxPermittedDataIncrease + alignOffset preLen + 8

def deserializeFrom (buffer : List UInt8) :
    Nat → Nat → List RegionMeta → Except String (List (Option DeserializedAccount))
  | _, _, [] => .ok []
  | index, offset, .duplicate _ :: rest => do
    let others ← deserializeFrom buffer (index + 1) (offset + 8) rest
    return none :: others
  | index, offset, .account isWritable preLen :: rest => do
    let account ← readBack buffer index offset preLen
    let others ← deserializeFrom buffer (index + 1) (offset + accountSpan preLen) rest
    return (if isWritable then some account else none) :: others

def deserializeAligned (buffer : List UInt8) (metas : List RegionMeta) :
    Except String (List (Option DeserializedAccount)) := deserializeFrom buffer 0 8 metas

end Karstflow.Sbpf
