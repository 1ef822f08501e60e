import Karstflow.Data.Bytes
import Karstflow.Data.Table

namespace Karstflow.Storage

open Data

/-! One column family of the durable store: a file to which records are
appended, and an index in memory of where each key's value stands. -/

def cfFileMagic : Nat := 0x50444653

def cfFileFormatVersion : Nat := 2

def cfFileHeaderSize : Nat := 16

def recordHeaderSize : Nat := 13

def recordStatusActive : UInt8 := 0

def recordStatusDeleted : UInt8 := 1

structure RecordLoc where
  offset : Nat
  keyLen : Nat
  valueLen : Nat
deriving DecidableEq

def RecordLoc.valueOffset (loc : RecordLoc) : Nat := loc.offset + recordHeaderSize + loc.keyLen

structure CfState where
  file : List UInt8
  index : Table (List UInt8) RecordLoc
  fileEnd : Nat

inductive OpenError where
  | newerVersion (version : Nat)
deriving DecidableEq

def fileHeader : List UInt8 := leBytes 4 cfFileMagic ++ leBytes 2 cfFileFormatVersion ++ .replicate 10 0

/-- A file that holds the header only. -/
def CfState.new : CfState := { file := fileHeader, index := .empty, fileEnd := cfFileHeaderSize }

/-- What a record does to the index. -/
def indexRecord (index : Table (List UInt8) RecordLoc) (status : UInt8) (key : List UInt8) (loc : RecordLoc) :
    Table (List UInt8) RecordLoc :=
  if status = recordStatusActive then index.insert key loc
  else if status = recordStatusDeleted then index.erase key
  else index

section

variable (crc : List UInt8 → Octets 4) (takes : List UInt8 → Nat)

/-- One write call. The device takes a front part of the buffer, and how much
of it is not looked at. -/
def writeAtChecked (file buffer : List UInt8) (offset : Nat) : List UInt8 :=
  writeAt file (buffer.take (takes buffer)) offset

/-- The checksum covers the rest of the header and the data. The lengths are cut to 32 bits. -/
def computeRecordCrc (status : UInt8) (keyLen valueLen : Nat) (data : List UInt8) : Octets 4 :=
  crc ([status] ++ leBytes 4 keyLen ++ leBytes 4 valueLen ++ data)

def encodeRecord (status : UInt8) (key value : List UInt8) : List UInt8 :=
  (computeRecordCrc crc status key.length value.length (key ++ value)).bytes ++
    ([status] ++ leBytes 4 key.length ++ leBytes 4 value.length ++ (key ++ value))

/-- What the scan meets: too few bytes for a header, something that ends it,
or a record. -/
inductive Scanned where
  | short
  | corrupt
  | record (status : UInt8) (key : List UInt8) (keyLen valueLen : Nat)
deriving DecidableEq

def declaredKeyLen (rest : List UInt8) : Nat := leValue (rest.extract 5 9)

def declaredValueLen (rest : List UInt8) : Nat := leValue (rest.extract 9 13)

def declaredSize (rest : List UInt8) : Nat := recordHeaderSize + (declaredKeyLen rest + declaredValueLen rest)

/-- The checksum at the front of `rest` is that of the bytes its lengths speak of. -/
def checksumMatches (rest : List UInt8) : Bool :=
  rest.extract 0 4 = (computeRecordCrc crc (rest.getD 4 0) (declaredKeyLen rest) (declaredValueLen rest)
    (rest.extract recordHeaderSize (declaredSize rest))).bytes

/-- One turn of the scan, with `rest` left of the file. -/
def scanRecord (rest : List UInt8) : Scanned :=
  if rest.length < recordHeaderSize then .short
  else if rest.length < declaredSize rest then .corrupt
  else if checksumMatches crc rest = false then .corrupt
  else if rest.getD 4 0 = recordStatusActive ∨ rest.getD 4 0 = recordStatusDeleted then
    .record (rest.getD 4 0) (rest.extract recordHeaderSize (recordHeaderSize + declaredKeyLen rest))
      (declaredKeyLen rest) (declaredValueLen rest)
  else .corrupt

/-- The scan. It gives the index and the end of the file: the place of a
corrupt record, or else all of the file, also when it ends within a header. -/
def rebuildFrom (file : List UInt8) : Nat → Nat → Table (List UInt8) RecordLoc → Table (List UInt8) RecordLoc × Nat
  | 0, _, index => (index, file.length)
  | fuel + 1, offset, index =>
    match scanRecord crc (file.drop offset) with
    | .short => (index, file.length)
    | .corrupt => (index, offset)
    | .record status key keyLen valueLen =>
      rebuildFrom file fuel (offset + (recordHeaderSize + (keyLen + valueLen)))
        (indexRecord index status key { offset, keyLen, valueLen })

def rebuildIndex (file : List UInt8) : Table (List UInt8) RecordLoc × Nat :=
  rebuildFrom crc file (file.length + 1) cfFileHeaderSize .empty

/-- A file without a header of this format is begun anew. -/
def openCf (file : List UInt8) : Except OpenError CfState :=
  if file.length < cfFileHeaderSize then .ok .new
  else if leValue (file.extract 0 4) ≠ cfFileMagic then .ok .new
  else if cfFileFormatVersion < leValue (file.extract 4 6) then .error (.newerVersion (leValue (file.extract 4 6)))
  else .ok { file, index := (rebuildIndex crc file).1, fileEnd := (rebuildIndex crc file).2 }

namespace CfState

variable (state : CfState)

def appendRecord (status : UInt8) (key value : List UInt8) : CfState :=
  { file := writeAtChecked takes state.file (encodeRecord crc status key value) state.fileEnd
    index := indexRecord state.index status key
      { offset := state.fileEnd, keyLen := key.length % 256 ^ 4, valueLen := value.length % 256 ^ 4 }
    fileEnd := state.fileEnd + (recordHeaderSize + (key.length + value.length)) }

def put (key value : List UInt8) : CfState := state.appendRecord crc takes recordStatusActive key value

/-- A tombstone is written only for a key that is there. -/
def delete (key : List UInt8) : CfState :=
  if state.index.contains key = true then state.appendRecord crc takes recordStatusDeleted key [] else state

end CfState

end

def readValue (file : List UInt8) (loc : RecordLoc) : List UInt8 :=
  file.extract loc.valueOffset (loc.valueOffset + loc.valueLen)

def CfState.get (state : CfState) (key : List UInt8) : Option (List UInt8) :=
  (state.index.get key).map (readValue state.file)

end Karstflow.Storage
