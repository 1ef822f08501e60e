import Karstflow.Data.Bytes
import Karstflow.Sbpf.Instruction

namespace Karstflow.Sbpf

open Data

/-! The virtual memory of a program: four regions told apart by the high bits
of an address. -/

def regionProgramBase : BitVec 64 := 0x100000000

def regionStackBase : BitVec 64 := 0x200000000

def regionHeapBase : BitVec 64 := 0x300000000

def regionInputBase : BitVec 64 := 0x400000000

def regionIndexMask : BitVec 64 := 0xF00000000

def regionOffsetMask : BitVec 64 := 0x0FFFFFFFF

def stackFrameSize : Nat := 4096

def maxCallDepth : Nat := 64

def totalStackSize : Nat := maxCallDepth * stackFrameSize

inductive MemoryError where
  | unmappedAddress (addr : BitVec 64)
  | outOfBounds (addr : BitVec 64) (size regionLen : Nat)
  | readOnlyRegion (addr : BitVec 64)
  | stackOverflow
  | stackUnderflow
deriving Repr, DecidableEq

inductive RegionId where
  | program | stack | heap | input
deriving Repr, DecidableEq

def RegionId.fromAddr (addr : BitVec 64) : Option RegionId :=
  let index := addr &&& regionIndexMask
  if index = regionProgramBase then some .program
  else if index = regionStackBase then some .stack
  else if index = regionHeapBase then some .heap
  else if index = regionInputBase then some .input
  else none

def RegionId.writable : RegionId → Bool
  | .program => false
  | _ => true

/-- The regions, and the stack frames in use. Frames are pushed and popped one
at a time, so that they stay within the stack. -/
structure MemoryMap where
  program : List UInt8
  stack : List UInt8
  heap : List UInt8
  input : List UInt8
  frameIndex : Nat
  dynamicFrames : Bool
  frames_le : frameIndex * stackFrameSize ≤ stack.length

namespace MemoryMap

variable (memory : MemoryMap)

def new (programData : List UInt8) (stackSize heapSize : Nat) (inputData : List UInt8) (dynamicFrames : Bool) :
    MemoryMap :=
  { program := programData, stack := .replicate stackSize 0, heap := .replicate heapSize 0,
    input := inputData, frameIndex := 0, dynamicFrames := dynamicFrames,
    frames_le := by rw [zero_mul]; exact Nat.zero_le _ }

/-- The frame pointer: frames grow upward from the bottom of the stack, or
downward from its top when they are dynamic. -/
def framePointer : BitVec 64 :=
  if memory.dynamicFrames then
    regionStackBase + .ofNat 64 (memory.stack.length - memory.frameIndex * stackFrameSize)
  else regionStackBase + .ofNat 64 ((memory.frameIndex + 1) * stackFrameSize)

def maxFrames : Nat := memory.stack.length / stackFrameSize

def pushFrame : Except MemoryError MemoryMap :=
  if room : memory.maxFrames ≤ memory.frameIndex + 1 then .error .stackOverflow
  else .ok { memory with
    frameIndex := memory.frameIndex + 1
    frames_le := (Nat.le_div_iff_mul_le (by decide)).mp (le_of_lt (Nat.lt_of_not_le room)) }

def popFrame : Except MemoryError MemoryMap :=
  if memory.frameIndex < 1 then .error .stackUnderflow
  else .ok { memory with
    frameIndex := memory.frameIndex - 1
    frames_le := le_trans (Nat.mul_le_mul_right _ (Nat.sub_le _ _)) memory.frames_le }

def region : RegionId → List UInt8
  | .program => memory.program
  | .stack => memory.stack
  | .heap => memory.heap
  | .input => memory.input

def offsetOf (addr : BitVec 64) : Nat := (addr &&& regionOffsetMask).toNat

def resolveRead (addr : BitVec 64) (size : Nat) : Except MemoryError (RegionId × Nat) :=
  match RegionId.fromAddr addr with
  | none => .error (.unmappedAddress addr)
  | some id =>
    if (memory.region id).length < offsetOf addr + size then
      .error (.outOfBounds addr size (memory.region id).length)
    else .ok (id, offsetOf addr)

def resolveWrite (addr : BitVec 64) (size : Nat) : Except MemoryError (RegionId × Nat) :=
  match RegionId.fromAddr addr with
  | none => .error (.unmappedAddress addr)
  | some id =>
    if id.writable = false then .error (.readOnlyRegion addr)
    else if (memory.region id).length < offsetOf addr + size then
      .error (.outOfBounds addr size (memory.region id).length)
    else .ok (id, offsetOf addr)

/-- The bytes with `data` in place of those from `offset` on. -/
def overwrite (bytes data : List UInt8) (offset : Nat) : List UInt8 :=
  bytes.take offset ++ (data ++ bytes.drop (offset + data.length)).take (bytes.length - offset)

theorem length_overwrite : (overwrite bytes data offset).length = bytes.length := by
  rw [overwrite, List.length_append, List.length_take, List.length_take, List.length_append, List.length_drop]
  omega

/-- The memory with `data` written into a region; no region changes its size. -/
def writeRegion (id : RegionId) (offset : Nat) (data : List UInt8) : MemoryMap :=
  match id with
  | .program => { memory with program := overwrite memory.program data offset }
  | .stack => { memory with
      stack := overwrite memory.stack data offset
      frames_le := by rw [length_overwrite]; exact memory.frames_le }
  | .heap => { memory with heap := overwrite memory.heap data offset }
  | .input => { memory with input := overwrite memory.input data offset }

def readSlice (addr : BitVec 64) (size : Nat) : Except MemoryError (List UInt8) := do
  let (id, offset) ← memory.resolveRead addr size
  return (memory.region id).extract offset (offset + size)

def writeSlice (addr : BitVec 64) (data : List UInt8) : Except MemoryError MemoryMap := do
  let (id, offset) ← memory.resolveWrite addr data.length
  return memory.writeRegion id offset data

/-- `load8`, `load16`, `load32` and `load64`. -/
def load (size : AccessSize) (addr : BitVec 64) : Except MemoryError (BitVec 64) := do
  let bytes ← memory.readSlice addr size.bytes
  return .ofNat 64 (leValue bytes)

/-- `store8`, `store16`, `store32` and `store64`. -/
def store (size : AccessSize) (addr value : BitVec 64) : Except MemoryError MemoryMap :=
  memory.writeSlice addr (leBytes size.bytes value.toNat)

end MemoryMap

end Karstflow.Sbpf
