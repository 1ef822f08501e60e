import Karstflow.Data.Bytes
import Mathlib.Logic.Function.Iterate

namespace Karstflow.Data

/-! The CRC-32 of the reversed polynomial `0xEDB88320`, bit by bit. -/

def crcShift (crc : Nat) : Nat := if crc % 2 = 1 then (crc / 2) ^^^ 0xEDB88320 else crc / 2

def crcByte (crc : Nat) (byte : UInt8) : Nat := crcShift^[8] (crc ^^^ byte.toNat)

def crc32 (bytes : List UInt8) : Nat := 0xFFFFFFFF ^^^ bytes.foldl crcByte 0xFFFFFFFF

/-- The checksum as it is written out. -/
def crc32Bytes (bytes : List UInt8) : Octets 4 := ⟨leBytes 4 (crc32 bytes), length_leBytes 4 _⟩

-- The check value of the catalogued algorithm: the digits one to nine.
example : crc32 [49, 50, 51, 52, 53, 54, 55, 56, 57] = 0xCBF43926 := by decide +kernel

end Karstflow.Data
