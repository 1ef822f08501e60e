import Karstflow.Storage.RecordFile

namespace Karstflow.Storage

open Data List

/-! What the records of a file say: the value under each key. -/

abbrev Contents := List UInt8 → Option (List UInt8)

/-- A key or a value. Its length fits the four bytes that a record has for it. -/
structure Blob where
  bytes : List UInt8
  length_lt : bytes.length < 256 ^ 4
deriving DecidableEq

inductive Operation where
  | put (key value : Blob)
  | delete (key : Blob)
deriving DecidableEq

namespace Operation

def key : Operation → List UInt8
  | put key _ => key.bytes
  | delete key => key.bytes

def value : Operation → List UInt8
  | put _ value => value.bytes
  | delete _ => []

def status : Operation → UInt8
  | put _ _ => recordStatusActive
  | delete _ => recordStatusDeleted

def outcome : Operation → Option (List UInt8)
  | put _ value => some value.bytes
  | delete _ => none

def apply (contents : Contents) (operation : Operation) : Contents :=
  Function.update contents operation.key operation.outcome

/-- A deletion of a key that is not there writes nothing. -/
def writes (contents : Contents) : Operation → Bool
  | put _ _ => true
  | delete key => (contents key.bytes).isSome

def encode (crc : List UInt8 → Octets 4) (operation : Operation) : List UInt8 :=
  encodeRecord crc operation.status operation.key operation.value

/-- One write call takes the whole record. -/
def whole (crc : List UInt8 → Octets 4) (takes : List UInt8 → Nat) (operation : Operation) : Bool :=
  (operation.encode crc).length ≤ takes (operation.encode crc)

variable (operation : Operation)

theorem key_length_lt : operation.key.length < 256 ^ 4 := by
  cases operation with
  | put key value | delete key => exact key.length_lt

theorem value_length_lt : operation.value.length < 256 ^ 4 := by
  cases operation with
  | put key value => exact value.length_lt
  | delete key => exact Nat.zero_lt_succ _

theorem status_known : operation.status = recordStatusActive ∨ operation.status = recordStatusDeleted := by
  cases operation with
  | put key value => exact .inl rfl
  | delete key => exact .inr rfl

theorem apply_of_not_writes (silent : operation.writes contents = false) : operation.apply contents = contents := by
  cases operation with
  | put key value => cases silent
  | delete key =>
      have absent := Option.not_isSome_iff_eq_none.mp (by simpa [writes] using silent)
      rw [apply, Function.update_eq_self_iff]
      exact absent.symm

end Operation

def applyAll (contents : Contents) (operations : List Operation) : Contents :=
  operations.foldl (fun contents operation => operation.apply contents) contents

/-- What operations leave in a store that was empty. -/
def contentsOf (operations : List Operation) : Contents := applyAll (fun _ => none) operations

/-- The operations that write a record. -/
def written : Contents → List Operation → List Operation
  | _, [] => []
  | contents, operation :: rest =>
    if operation.writes contents = true then operation :: written (operation.apply contents) rest
    else written contents rest

def encodeAll (crc : List UInt8 → Octets 4) (operations : List Operation) : List UInt8 :=
  operations.flatMap (Operation.encode crc)

theorem applyAll_append (contents : Contents) (first second : List Operation) :
    applyAll contents (first ++ second) = applyAll (applyAll contents first) second :=
  foldl_append

theorem contentsOf_append : contentsOf (first ++ second) = applyAll (contentsOf first) second :=
  applyAll_append _ first second

theorem applyAll_written (contents : Contents) (operations : List Operation) :
    applyAll contents (written contents operations) = applyAll contents operations := by
  induction operations generalizing contents with
  | nil => rfl
  | cons operation rest ih =>
      by_cases writes : operation.writes contents = true
      · rw [written, if_pos writes]
        exact ih (operation.apply contents)
      · have same := operation.apply_of_not_writes (Bool.eq_false_iff.mpr writes)
        rw [written, if_neg writes, ih contents]
        exact congrArg (fun after => applyAll after rest) same.symm

theorem written_append : written contents (first ++ second) =
      written contents first ++ written (applyAll contents first) second := by
  induction first generalizing contents with
  | nil => rfl
  | cons operation rest ih =>
      by_cases writes : operation.writes contents = true
      · rw [cons_append, written, written, if_pos writes, if_pos writes, ih, cons_append]
        rfl
      · have same := operation.apply_of_not_writes (Bool.eq_false_iff.mpr writes)
        rw [cons_append, written, written, if_neg writes, if_neg writes, ih]
        exact congrArg (fun after => written contents rest ++ written (applyAll after rest) second) same.symm

section

@[simp] theorem encodeAll_nil : encodeAll crc [] = [] := rfl

variable (operation : Operation)

theorem encodeAll_cons : encodeAll crc (operation :: rest) = operation.encode crc ++ encodeAll crc rest := rfl

theorem encodeAll_append (first second : List Operation) :
    encodeAll crc (first ++ second) = encodeAll crc first ++ encodeAll crc second :=
  flatMap_append

@[simp] theorem length_encode :
    (operation.encode crc).length = recordHeaderSize + (operation.key.length + operation.value.length) := by
  simp only [Operation.encode, encodeRecord, length_append, Octets.bytes_length, length_leBytes,
    length_singleton, recordHeaderSize]
  omega

theorem encodeAll_eq_nil (empty : (encodeAll crc operations).length = 0) : operations = [] := by
  cases operations with
  | nil => rfl
  | cons operation rest =>
      rw [encodeAll_cons, length_append, length_encode, recordHeaderSize] at empty
      omega

def Operation.header (crc : List UInt8 → Octets 4) (operation : Operation) : List UInt8 :=
  (computeRecordCrc crc operation.status operation.key.length operation.value.length
    (operation.key ++ operation.value)).bytes ++
      ([operation.status] ++ leBytes 4 operation.key.length ++ leBytes 4 operation.value.length)

theorem encode_eq_header_append :
    operation.encode crc = operation.header crc ++ (operation.key ++ operation.value) := by
  simp only [Operation.encode, encodeRecord, Operation.header, append_assoc]

@[simp] theorem length_header : (operation.header crc).length = recordHeaderSize := by
  simp [Operation.header, recordHeaderSize]

/-! The fields that are read behind a header, whatever follows it. -/

section

variable (operation : Operation) (rest : List UInt8)

theorem checksum_of_header : (operation.header crc ++ rest).extract 0 4 =
    (computeRecordCrc crc operation.status operation.key.length operation.value.length
      (operation.key ++ operation.value)).bytes := by
  rw [Operation.header, append_assoc]
  exact extract_append_front (Octets.bytes_length _)

theorem status_of_header : (operation.header crc ++ rest).getD 4 0 = operation.status := by
  simp [Operation.header]

theorem declared_of_header : declaredKeyLen (operation.header crc ++ rest) = operation.key.length ∧
    declaredValueLen (operation.header crc ++ rest) = operation.value.length := by
  let front := (computeRecordCrc crc operation.status operation.key.length operation.value.length
    (operation.key ++ operation.value)).bytes ++ [operation.status]
  have five : front.length = 5 := by simp [front]
  have shown : operation.header crc ++ rest =
      front ++ (leBytes 4 operation.key.length ++ (leBytes 4 operation.value.length ++ rest)) := by
    simp [Operation.header, front]
  constructor
  · rw [declaredKeyLen, shown, extract_append_skip five.le, five, extract_append_front (length_leBytes 4 _),
      leValue_leBytes, Nat.mod_eq_of_lt operation.key_length_lt]
  · rw [declaredValueLen, shown, extract_append_skip (five.le.trans (by decide)), five,
      extract_append_skip (length_leBytes 4 _).le, length_leBytes, extract_append_front (length_leBytes 4 _),
      leValue_leBytes, Nat.mod_eq_of_lt operation.value_length_lt]

theorem declaredSize_of_header : declaredSize (operation.header crc ++ rest) = (operation.encode crc).length := by
  rw [declaredSize, (declared_of_header _ _).1, (declared_of_header _ _).2, length_encode]

end

/-- A record at the front of `rest` that is whole and whose checksum matches. -/
def intact (crc : List UInt8 → Octets 4) (rest : List UInt8) : Bool :=
  recordHeaderSize ≤ rest.length && declaredSize rest ≤ rest.length && checksumMatches crc rest

theorem scanRecord_of_not_intact (damaged : intact crc rest = false) :
    scanRecord crc rest = if rest.length < recordHeaderSize then .short else .corrupt := by
  by_cases tooShort : rest.length < recordHeaderSize
  · rw [scanRecord, if_pos tooShort, if_pos tooShort]
  rw [scanRecord, if_neg tooShort, if_neg tooShort]
  by_cases cutOff : rest.length < declaredSize rest
  · rw [if_pos cutOff]
  · have mismatch : checksumMatches crc rest = false := by
      simpa [intact, not_lt.mp tooShort, not_lt.mp cutOff] using damaged
    rw [if_neg cutOff, if_pos mismatch]

theorem scanRecord_encode : scanRecord crc (operation.encode crc ++ rest) =
      .record operation.status operation.key operation.key.length operation.value.length := by
  have shown : operation.encode crc ++ rest =
      operation.header crc ++ (operation.key ++ operation.value ++ rest) := by
    rw [encode_eq_header_append, append_assoc]
  have whole : (operation.encode crc).length ≤ (operation.encode crc ++ rest).length := by
    rw [length_append]
    exact Nat.le_add_right _ _
  have data : (operation.header crc ++ (operation.key ++ operation.value ++ rest)).extract recordHeaderSize
      (operation.encode crc).length = operation.key ++ operation.value := by
    rw [extract_append_skip (length_header operation).le, length_header, Nat.sub_self]
    exact extract_append_front (by simp)
  have key : (operation.header crc ++ (operation.key ++ operation.value ++ rest)).extract recordHeaderSize
      (recordHeaderSize + operation.key.length) = operation.key := by
    rw [extract_append_skip (length_header operation).le, length_header, Nat.sub_self, append_assoc]
    exact extract_append_front (by simp)
  have matched : checksumMatches crc (operation.header crc ++ (operation.key ++ operation.value ++ rest)) = true := by
    rw [checksumMatches, checksum_of_header, status_of_header, (declared_of_header _ _).1,
      (declared_of_header _ _).2, declaredSize_of_header, data, decide_eq_true_eq]
  have long : ¬ (operation.encode crc ++ rest).length < recordHeaderSize := by
    rw [length_encode] at whole
    omega
  rw [scanRecord, if_neg long, shown, declaredSize_of_header, ← shown, if_neg (not_lt.mpr whole), shown,
    if_neg (by rw [matched]; decide), status_of_header, if_pos operation.status_known, (declared_of_header _ _).1,
    (declared_of_header _ _).2, key]

theorem not_intact_take (cut : kept < (operation.encode crc).length) :
    intact crc ((operation.encode crc).take kept) = false := by
  by_cases tooShort : kept < recordHeaderSize
  · have few : ¬ recordHeaderSize ≤ ((operation.encode crc).take kept).length := by
      rw [length_take]
      omega
    rw [intact, decide_eq_false few]
    rfl
  · have shown : (operation.encode crc).take kept =
        operation.header crc ++ (operation.key ++ operation.value).take (kept - recordHeaderSize) := by
      rw [encode_eq_header_append, take_append, length_header, take_of_length_le (by rw [length_header]; omega)]
    have few : ¬ declaredSize ((operation.encode crc).take kept) ≤ ((operation.encode crc).take kept).length := by
      have length := length_take_of_le cut.le
      rw [length, shown, declaredSize_of_header]
      omega
    rw [intact, decide_eq_false few, Bool.and_false]
    rfl

end

end Karstflow.Storage
