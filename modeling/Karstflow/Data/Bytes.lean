import Mathlib.Algebra.Order.Ring.Nat
import Mathlib.Data.List.Basic

namespace Karstflow.Data

open List Option

/-! Bytes: fixed-size arrays and little-endian numbers. -/

structure Octets (size : Nat) where
  bytes : List UInt8
  length_bytes : bytes.length = size
deriving DecidableEq

namespace Octets

variable {right : Octets size}

@[simp] theorem bytes_length (array : Octets size) : array.bytes.length = size := array.length_bytes

theorem ext_bytes (same : left.bytes = right.bytes) : left = right := by
  cases left
  cases same
  rfl

def filled (size : Nat) (byte : UInt8) : Octets size :=
  ⟨replicate size byte, length_replicate⟩

/-- The array with these bytes, if there are `size` of them. -/
def ofBytes (size : Nat) (bytes : List UInt8) : Option (Octets size) :=
  if sized : bytes.length = size then some ⟨bytes, sized⟩ else none

theorem ofBytes_eq_some {bytes : List UInt8} : ofBytes size bytes = some array ↔ array.bytes = bytes := by
  by_cases sized : bytes.length = size
  · simp only [ofBytes, dif_pos sized, some.injEq]
    constructor
    · intro built
      rw [← built]
    · intro same
      exact ext_bytes same.symm
  · simp only [ofBytes, dif_neg sized, reduceCtorEq, false_iff]
    intro same
    exact sized (same ▸ array.length_bytes)

end Octets

/-- The `width` bytes of a number, lowest first. -/
def leBytes : Nat → Nat → List UInt8
  | 0, _ => []
  | width + 1, value => .ofNat value :: leBytes width (value / 256)

/-- The number that bytes spell, lowest first. -/
def leValue : List UInt8 → Nat
  | [] => 0
  | byte :: rest => byte.toNat + 256 * leValue rest

@[simp] theorem length_leBytes (width value : Nat) : (leBytes width value).length = width := by
  induction width generalizing value with
  | zero => rfl
  | succ width ih => rw [leBytes, length_cons, ih]

theorem leValue_lt (bytes : List UInt8) : leValue bytes < 256 ^ bytes.length := by
  induction bytes with
  | nil => decide
  | cons byte rest ih =>
    have low : byte.toNat < 256 := byte.toNat_lt
    rw [leValue, length_cons, pow_succ]
    omega

theorem leValue_leBytes : leValue (leBytes width value) = value % 256 ^ width := by
  induction width generalizing value with
  | zero => rw [leBytes, leValue, pow_zero, Nat.mod_one]
  | succ width ih =>
    have low : (UInt8.ofNat value).toNat = value % 256 := UInt8.toNat_ofNat'
    rw [leBytes, leValue, ih, low, pow_succ', Nat.mod_mul]

theorem leBytes_leValue : leBytes bytes.length (leValue bytes) = bytes := by
  induction bytes with
  | nil => rfl
  | cons byte rest ih =>
    have low : byte.toNat < 256 := byte.toNat_lt
    have first : .ofNat (byte.toNat + 256 * leValue rest) = byte := by
      apply UInt8.toNat_inj.mp
      rw [UInt8.toNat_ofNat']
      omega
    have others : (byte.toNat + 256 * leValue rest) / 256 = leValue rest := by omega
    rw [length_cons, leValue, leBytes, first, others, ih]

theorem extract_append_front {right : List UInt8} (whole : left.length = stop) :
    (left ++ right).extract 0 stop = left := by
  rw [extract, drop_zero, Nat.sub_zero, take_left' whole]

theorem extract_append_skip {right : List UInt8} (past : left.length ≤ start) :
    (left ++ right).extract start stop = right.extract (start - left.length) (stop - left.length) := by
  have widths : stop - left.length - (start - left.length) = stop - start := by omega
  rw [extract, extract, drop_append, drop_eq_nil_of_le past, nil_append, widths]

theorem extract_append_extract (bytes : List UInt8) (first : start ≤ middle)
    (second : middle ≤ stop) : bytes.extract start middle ++ bytes.extract middle stop = bytes.extract start stop := by
  have widths : stop - start = (middle - start) + (stop - middle) := by omega
  have reached : start + (middle - start) = middle := by omega
  rw [extract, extract, extract, widths, take_add, drop_drop, reached]

theorem extract_all {bytes : List UInt8} (whole : bytes.length = stop) : bytes.extract 0 stop = bytes := by
  rw [extract, drop_zero, Nat.sub_zero, take_of_length_le whole.le]

theorem length_extract_of_le {bytes : List UInt8} (within : stop ≤ bytes.length) :
    (bytes.extract start stop).length = stop - start := by
  rw [extract, length_take, length_drop]
  omega

/-! ## Readers

A reader takes a value off the front of the bytes and hands back the rest.
-/

def takeBytes (size : Nat) (bytes : List UInt8) : Option (List UInt8 × List UInt8) :=
  if size ≤ bytes.length then some (bytes.take size, bytes.drop size) else none

def takeWord (width : Nat) (bytes : List UInt8) : Option (Nat × List UInt8) :=
  (takeBytes width bytes).map fun taken => (leValue taken.1, taken.2)

def takeOctets (size : Nat) (bytes : List UInt8) : Option (Octets size × List UInt8) := do
  let (front, rest) ← takeBytes size bytes
  let array ← Octets.ofBytes size front
  return (array, rest)

section

variable {α : Type} {read : List UInt8 → Option (α × List UInt8)}

def takeExactly (read : List UInt8 → Option (α × List UInt8)) :
    Nat → List UInt8 → Option (List α × List UInt8)
  | 0, bytes => some ([], bytes)
  | count + 1, bytes => do
    let (value, rest) ← read bytes
    let (values, rest) ← takeExactly read count rest
    return (value :: values, rest)

/-- At most `count` values, stopping where the bytes run out. -/
def takeUpTo (read : List UInt8 → Option (α × List UInt8)) : Nat → List UInt8 → List α × List UInt8
  | 0, bytes => ([], bytes)
  | count + 1, bytes =>
    match read bytes with
    | some (value, rest) =>
      let (values, rest) := takeUpTo read count rest
      (value :: values, rest)
    | none => ([], bytes)

theorem takeBytes_append (whole : front.length = size)
    (rest : List UInt8) : takeBytes size (front ++ rest) = some (front, rest) := by
  rw [takeBytes, if_pos (by rw [length_append]; omega), take_left' whole,
    drop_left' whole]

theorem takeWord_append (fits : value < 256 ^ width) (rest : List UInt8) :
    takeWord width (leBytes width value ++ rest) = some (value, rest) := by
  rw [takeWord, takeBytes_append (length_leBytes _ _), map_some, leValue_leBytes, Nat.mod_eq_of_lt fits]

theorem takeOctets_append (array : Octets size) (rest : List UInt8) :
    takeOctets size (array.bytes ++ rest) = some (array, rest) := by
  have built : Octets.ofBytes size array.bytes = some array := Octets.ofBytes_eq_some.mpr rfl
  simp [takeOctets, takeBytes_append array.length_bytes, built]

theorem takeBytes_split (taken : takeBytes size bytes = some (front, rest)) :
    front.length = size ∧ bytes = front ++ rest := by
  unfold takeBytes at taken
  split at taken
  next enough =>
    cases taken
    exact ⟨length_take_of_le enough, (take_append_drop size bytes).symm⟩
  next => cases taken

theorem takeWord_split (taken : takeWord width bytes = some (value, rest)) : bytes = leBytes width value ++ rest := by
  obtain ⟨⟨front, _⟩, read, same⟩ := map_eq_some_iff.mp taken
  cases same
  obtain ⟨rfl, whole⟩ := takeBytes_split read
  rw [leBytes_leValue, whole]

theorem takeWord_lt (taken : takeWord width bytes = some (value, rest)) : value < 256 ^ width := by
  obtain ⟨⟨front, _⟩, read, same⟩ := map_eq_some_iff.mp taken
  cases same
  obtain ⟨rfl, _⟩ := takeBytes_split read
  exact leValue_lt front

theorem takeOctets_split (taken : takeOctets size bytes = some (array, rest)) : bytes = array.bytes ++ rest := by
  obtain ⟨⟨front, _⟩, read, taken⟩ := bind_eq_some_iff.mp taken
  obtain ⟨_, built, same⟩ := bind_eq_some_iff.mp taken
  cases same
  rw [Octets.ofBytes_eq_some.mp built, (takeBytes_split read).2]

theorem takeAll_append
    (reads : ∀ value ∈ values, ∀ rest, read (write value ++ rest) = some (value, rest)) (rest : List UInt8) :
    takeExactly read values.length (values.flatMap write ++ rest) = some (values, rest) ∧
      takeUpTo read values.length (values.flatMap write ++ rest) = (values, rest) := by
  induction values with
  | nil => exact ⟨rfl, rfl⟩
  | cons value values ih =>
    have first := reads value mem_cons_self (values.flatMap write ++ rest)
    have others := ih fun other member => reads other (mem_cons_of_mem _ member)
    rw [length_cons, flatMap_cons, append_assoc, takeExactly, takeUpTo]
    simp [first, others]

theorem takeExactly_forall {Holds : α → Prop} {count : Nat}
    (each : ∀ {bytes value rest}, read bytes = some (value, rest) → Holds value)
    (taken : takeExactly read count bytes = some (values, rest)) :
    values.length = count ∧ ∀ value ∈ values, Holds value := by
  induction count generalizing bytes rest values with
  | zero =>
    cases taken
    exact ⟨rfl, fun value member => absurd member not_mem_nil⟩
  | succ count ih =>
    simp only [takeExactly, bind_eq_bind, bind_eq_some_iff, Prod.exists, Option.pure_def,
      some.injEq, Prod.mk.injEq] at taken
    obtain ⟨value, middle, first, others, last, tail, built, -⟩ := taken
    obtain ⟨counted, hold⟩ := ih tail
    rw [← built]
    exact ⟨by rw [length_cons, counted], forall_mem_cons.mpr ⟨each first, hold⟩⟩

theorem takeUpTo_forall {Holds : α → Prop}
    (each : ∀ {bytes value rest}, read bytes = some (value, rest) → Holds value) (count : Nat) (bytes : List UInt8) :
    (takeUpTo read count bytes).1.length ≤ count ∧ ∀ value ∈ (takeUpTo read count bytes).1, Holds value := by
  induction count generalizing bytes with
  | zero => exact ⟨le_refl _, fun value member => absurd member not_mem_nil⟩
  | succ count ih =>
    rw [takeUpTo]
    split
    · rename_i value rest first
      obtain ⟨counted, hold⟩ := ih rest
      exact ⟨Nat.succ_le_succ counted, forall_mem_cons.mpr ⟨each first, hold⟩⟩
    · exact ⟨Nat.zero_le _, fun value member => absurd member not_mem_nil⟩

end

/-- `Vec::resize` with zeroes. -/
def resizeBytes (bytes : List UInt8) (size : Nat) : List UInt8 :=
  bytes.take size ++ replicate (size - bytes.length) 0

theorem length_resizeBytes (bytes : List UInt8) (size : Nat) : (resizeBytes bytes size).length = size := by
  rw [resizeBytes, length_append, length_take, length_replicate]
  omega

@[simp] theorem resizeBytes_nil : resizeBytes [] size = replicate size 0 := by
  rw [resizeBytes, take_nil, nil_append, length_nil, Nat.sub_zero]

/-- The file after `buffer` is written at `offset`, with zeros up to there if
it was shorter. -/
def writeAt (file buffer : List UInt8) (offset : Nat) : List UInt8 :=
  resizeBytes file offset ++ buffer ++ file.drop (offset + buffer.length)

theorem writeAt_append : writeAt (left ++ right) buffer left.length = left ++ buffer ++ right.drop buffer.length := by
  have room : left.length - (left ++ right).length = 0 := by
    rw [length_append]
    omega
  rw [writeAt, resizeBytes, take_left, room, replicate_zero, append_nil, drop_length_add_append]

end Karstflow.Data
