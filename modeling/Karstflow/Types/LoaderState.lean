import Karstflow.Types.Account

namespace Karstflow.Types

open Data

/-! The header at the front of an account of the upgradeable loader. -/

inductive UpgradeableLoaderState where
  | uninitialized
  | buffer (authority : Option Pubkey)
  | program (programdataAddress : Pubkey)
  | programData (slot : Nat) (upgradeAuthority : Option Pubkey)
deriving DecidableEq

namespace UpgradeableLoaderState

def stateUninitialized : Nat := 0

def stateBuffer : Nat := 1

def stateProgram : Nat := 2

def stateProgramData : Nat := 3

def sizeOfBufferMetadata : Nat := 37

def sizeOfProgram : Nat := 36

def sizeOfProgramdataMetadata : Nat := 45

/-- A flag byte and the key; without a key, all of it is zero. -/
def authorityBytes : Option Pubkey → List UInt8
  | some key => 1 :: key.bytes
  | none => .replicate 33 0

/-- The header alone, without the bytes of a program behind it. -/
def serialize : UpgradeableLoaderState → List UInt8
  | uninitialized => leBytes 4 stateUninitialized
  | buffer authority => leBytes 4 stateBuffer ++ authorityBytes authority
  | program programdataAddress => leBytes 4 stateProgram ++ programdataAddress.bytes
  | programData slot upgradeAuthority =>
    leBytes 4 stateProgramData ++ leBytes 8 slot ++ authorityBytes upgradeAuthority

/-- The authority behind the flag byte at `offset`. -/
def readAuthority (data : List UInt8) (offset : Nat) (short long : String) : Except String (Option Pubkey) :=
  match data[offset]? with
  | none => .error short
  | some flag =>
    if flag = 0 then .ok none
    else
      match Octets.ofBytes 32 (data.extract (offset + 1) (offset + 33)) with
      | some key => .ok (some key)
      | none => .error long

def deserialize (data : List UInt8) : Except String UpgradeableLoaderState :=
  let discriminant := leValue (data.extract 0 4)
  if data.length < 4 ∨ discriminant = stateUninitialized then .ok uninitialized
  else if discriminant = stateBuffer then
    (readAuthority data 4 "Buffer state data too short" "Buffer authority data too short").map buffer
  else if discriminant = stateProgram then
    match Octets.ofBytes 32 (data.extract 4 36) with
    | some programdataAddress => .ok (program programdataAddress)
    | none => .error "Program state data too short"
  else if discriminant = stateProgramData then
    (readAuthority data 12 "ProgramData state data too short" "ProgramData authority data too short").map
      (programData (leValue (data.extract 4 12)))
  else .error ("Unknown state discriminant: " ++ toString discriminant)

end UpgradeableLoaderState

end Karstflow.Types
