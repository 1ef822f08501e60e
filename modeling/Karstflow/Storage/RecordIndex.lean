import Karstflow.Storage.RecordContents

namespace Karstflow.Storage

open Data List

/-! The index finds in the file what the records say, through appends and
through the scan that rebuilds it. -/

variable {crc : List UInt8 → Octets 4}

/-- Every key's value stands in `bytes` where the index says. -/
structure Locates (bytes : List UInt8) (index : Table (List UInt8) RecordLoc) (contents : Contents) : Prop where
  reads : ∀ key, (index.get key).map (readValue bytes) = contents key
  within : ∀ key loc, index.get key = some loc → loc.valueOffset + loc.valueLen ≤ bytes.length

theorem readValue_append (within : loc.valueOffset + loc.valueLen ≤ bytes.length)
    (more : List UInt8) : readValue (bytes ++ more) loc = readValue bytes loc := by
  have start : loc.valueOffset - bytes.length = 0 := by omega
  have enough : loc.valueLen ≤ (bytes.drop loc.valueOffset).length := by
    rw [length_drop]
    omega
  rw [readValue, readValue, extract, extract, drop_append, start, Nat.add_sub_cancel_left,
    take_append_of_le_length enough]

namespace Locates

theorem empty (bytes : List UInt8) : Locates bytes .empty fun _ => none := by
  refine ⟨fun key => rfl, ?_⟩
  intro key loc found
  cases found

theorem extend (located : Locates bytes index contents) (more : List UInt8) :
    Locates (bytes ++ more) index contents := by
  constructor
  · intro key
    rw [← located.reads key]
    cases found : index.get key with
    | none => rfl
    | some loc => exact congrArg some (readValue_append (located.within key loc found) more)
  · intro key loc found
    rw [length_append]
    exact le_trans (located.within key loc found) (Nat.le_add_right _ _)

theorem contains_eq (located : Locates bytes index contents) : index.contains key = (contents key).isSome := by
  rw [← located.reads key, Option.isSome_map, Table.contains]

theorem readValue_encode (crc : List UInt8 → Octets 4) (bytes : List UInt8) (operation : Operation) :
    readValue (bytes ++ operation.encode crc)
      { offset := bytes.length, keyLen := operation.key.length, valueLen := operation.value.length } =
        operation.value := by
  have front : (bytes ++ (operation.header crc ++ operation.key)).length =
      bytes.length + recordHeaderSize + operation.key.length := by
    rw [length_append, length_append, length_header, add_assoc]
  have shown : bytes ++ operation.encode crc =
      (bytes ++ (operation.header crc ++ operation.key)) ++ operation.value := by
    rw [encode_eq_header_append, append_assoc, append_assoc]
  rw [shown, readValue, RecordLoc.valueOffset, ← front, extract_append_skip (le_refl _), Nat.sub_self,
    Nat.add_sub_cancel_left]
  exact extract_all rfl

theorem get_indexRecord (operation : Operation) :
    (indexRecord index operation.status operation.key loc).get other =
      if other = operation.key then operation.outcome.map fun _ => loc else index.get other := by
  cases operation with
  | put key stored => exact Table.get_insert _ _ _ _
  | delete key => exact Table.get_erase _ _ _

/-- A record behind the bytes does to the index what it does to the contents. -/
theorem record (located : Locates bytes index contents) (crc : List UInt8 → Octets 4) (operation : Operation) :
    Locates (bytes ++ operation.encode crc) (indexRecord index operation.status operation.key
        { offset := bytes.length, keyLen := operation.key.length, valueLen := operation.value.length })
      (operation.apply contents) := by
  have longer := located.extend (operation.encode crc)
  have value := readValue_encode crc bytes operation
  constructor
  · intro other
    rw [Operation.apply, Function.update_apply, ← longer.reads other, get_indexRecord]
    by_cases same : other = operation.key
    · rw [if_pos same, if_pos same]
      cases operation with
      | put key stored => exact congrArg some value
      | delete key => rfl
    · rw [if_neg same, if_neg same]
  · intro other loc found
    rw [get_indexRecord] at found
    split at found
    · obtain ⟨_, _, rfl⟩ := Option.map_eq_some_iff.mp found
      simp only [length_append, length_encode, RecordLoc.valueOffset]
      omega
    · exact longer.within other loc found

end Locates

theorem length_le_encodeAll (crc : List UInt8 → Octets 4) (operations : List Operation) :
    operations.length ≤ (encodeAll crc operations).length := by
  induction operations with
  | nil => exact le_refl 0
  | cons operation rest ih =>
      rw [encodeAll_cons, length_append, length_cons, length_encode, recordHeaderSize]
      omega

theorem rebuildFrom_encodeAll (operations : List Operation) {front : List UInt8}
    (located : Locates front index contents) (rest : List UInt8) (fuel : Nat) :
    ∃ after, Locates (front ++ encodeAll crc operations) after (applyAll contents operations) ∧
      rebuildFrom crc (front ++ encodeAll crc operations ++ rest) (operations.length + fuel) front.length index =
        rebuildFrom crc (front ++ encodeAll crc operations ++ rest) fuel
          (front ++ encodeAll crc operations).length after := by
  induction operations generalizing front index contents with
  | nil =>
      rw [encodeAll_nil, append_nil, length_nil, zero_add]
      exact ⟨index, located, rfl⟩
  | cons operation operations ih =>
      obtain ⟨after, locates, scanned⟩ := ih (located.record crc operation)
      have shown : front ++ encodeAll crc (operation :: operations) =
          front ++ operation.encode crc ++ encodeAll crc operations := by
        rw [encodeAll_cons, append_assoc]
      have here : (front ++ operation.encode crc ++ encodeAll crc operations ++ rest).drop front.length =
          operation.encode crc ++ (encodeAll crc operations ++ rest) := by
        rw [append_assoc, append_assoc, drop_left]
      rw [shown]
      refine ⟨after, locates, ?_⟩
      rw [← scanned, length_cons, add_right_comm, rebuildFrom, here, scanRecord_encode,
        @length_append _ front, length_encode]

/-- A file of records, and something behind them that is not one, is opened
with what the records say. Records are appended behind them, unless the rest
is too short for a header. -/
theorem openCf_encodeAll (operations : List Operation) (damaged : intact crc rest = false) :
    ∃ state, openCf crc (fileHeader ++ encodeAll crc operations ++ rest) = .ok state ∧
      state.file = fileHeader ++ encodeAll crc operations ++ rest ∧
      Locates (fileHeader ++ encodeAll crc operations) state.index (contentsOf operations) ∧
      state.fileEnd = if rest.length < recordHeaderSize then (fileHeader ++ encodeAll crc operations ++ rest).length
        else (fileHeader ++ encodeAll crc operations).length := by
  let file := fileHeader ++ encodeAll crc operations ++ rest
  have long : ¬ file.length < cfFileHeaderSize := by
    rw [length_append, length_append]
    exact not_lt.mpr (le_trans (Nat.le_add_right 16 _) (Nat.le_add_right _ _))
  have fields : file = leBytes 4 cfFileMagic ++ (leBytes 2 cfFileFormatVersion ++
      (replicate 10 0 ++ (encodeAll crc operations ++ rest))) := by
    rfl
  have magic : file.extract 0 4 = leBytes 4 cfFileMagic := by
    exact extract_append_front (length_leBytes 4 _)
  have version : file.extract 4 6 = leBytes 2 cfFileFormatVersion := by
    exact extract_append_front (length_leBytes 2 _)
  have steps : operations.length ≤ file.length := by
    refine le_trans (length_le_encodeAll crc operations) ?_
    rw [length_append, length_append]
    omega
  obtain ⟨index, located, scanned⟩ := @rebuildFrom_encodeAll crc _ _ operations _
    (.empty fileHeader) rest (file.length - operations.length + 1)
  have fuel : operations.length + (file.length - operations.length + 1) = file.length + 1 := by omega
  have rebuilt : rebuildIndex crc file = (index, if rest.length < recordHeaderSize then file.length
      else (fileHeader ++ encodeAll crc operations).length) := by
    rw [fuel] at scanned
    refine scanned.trans ?_
    rw [rebuildFrom, drop_left, scanRecord_of_not_intact damaged]
    by_cases tooShort : rest.length < recordHeaderSize
    · rw [if_pos tooShort, if_pos tooShort]
    · rw [if_neg tooShort, if_neg tooShort]
  refine ⟨{ file, index := (rebuildIndex crc file).1, fileEnd := (rebuildIndex crc file).2 }, ?_, rfl, ?_, ?_⟩
  · rw [openCf, if_neg long, magic, if_neg (by decide), version, if_neg (by decide)]
  · rw [rebuilt]
    exact located
  · rw [rebuilt]

namespace CfState

variable {state : CfState} {tail : List UInt8}

/-- The state's file is `front`, behind which it appends, and a rest. -/
structure Stores (state : CfState) (front tail : List UInt8) (contents : Contents) : Prop where
  file : state.file = front ++ tail
  fileEnd : state.fileEnd = front.length
  locates : Locates front state.index contents

section

variable (crc : List UInt8 → Octets 4) (takes : List UInt8 → Nat) (state : CfState)

def perform : Operation → CfState
  | .put key value => state.put crc takes key.bytes value.bytes
  | .delete key => state.delete crc takes key.bytes

def run (operations : List Operation) : CfState := operations.foldl (perform crc takes) state

end

namespace Stores

theorem new : new.Stores fileHeader [] fun _ => none :=
  ⟨(append_nil _).symm, rfl, .empty fileHeader⟩

section

variable (stores : state.Stores front tail contents)

include stores

theorem get_eq : state.get key = contents key := by
  rw [get, stores.file]
  exact (stores.locates.extend tail).reads key

theorem appendRecord {operation : Operation} (whole : operation.whole crc takes = true) :
    (state.appendRecord crc takes operation.status operation.key operation.value).Stores
      (front ++ operation.encode crc) (tail.drop (operation.encode crc).length) (operation.apply contents) := by
  refine ⟨?_, ?_, ?_⟩
  · change writeAt state.file ((operation.encode crc).take (takes (operation.encode crc))) state.fileEnd = _
    rw [take_of_length_le (of_decide_eq_true whole), stores.file, stores.fileEnd, writeAt_append]
  · change state.fileEnd + _ = _
    rw [stores.fileEnd, length_append, length_encode]
  · change Locates _ (indexRecord state.index operation.status operation.key _) _
    rw [stores.fileEnd, Nat.mod_eq_of_lt operation.key_length_lt, Nat.mod_eq_of_lt operation.value_length_lt]
    exact stores.locates.record crc operation

theorem perform_eq : state.perform crc takes operation =
      if operation.writes contents = true then
        state.appendRecord crc takes operation.status operation.key operation.value
      else state := by
  cases operation with
  | put key value => rfl
  | delete key =>
      rw [perform, delete, stores.locates.contains_eq]
      rfl

theorem run (whole : ∀ operation ∈ operations, operation.whole crc takes = true) :
    (state.run crc takes operations).Stores (front ++ encodeAll crc (written contents operations))
      (tail.drop (encodeAll crc (written contents operations)).length) (applyAll contents operations) := by
  induction operations generalizing state front tail contents with
  | nil =>
      rw [written, encodeAll_nil, append_nil, length_nil, drop_zero]
      exact stores
  | cons operation operations ih =>
      obtain ⟨first, others⟩ := forall_mem_cons.mp whole
      change ((state.perform crc takes operation).run crc takes operations).Stores _ _
        (applyAll (operation.apply contents) operations)
      rw [stores.perform_eq]
      by_cases writes : operation.writes contents = true
      · have later := ih (stores.appendRecord first) others
        rw [append_assoc, drop_drop, ← length_append] at later
        rw [if_pos writes, written, if_pos writes]
        exact later
      · rw [if_neg writes, written, if_neg writes, operation.apply_of_not_writes (Bool.eq_false_iff.mpr writes)]
        exact ih stores others

end

end Stores

end CfState

end Karstflow.Storage
