import Karstflow.Data.Crc32
import Karstflow.Data.Machine
import Karstflow.Storage.WriteAheadLog

namespace Karstflow.Storage

open Data List

/-! The parser of the write-ahead log as the source reads: by positions and slices. -/

/-- Why it ends early: it answers `None`, it panics, or there is no memory. -/
inductive WalStop where
  | corrupt
  | panicked
  | aborted
deriving DecidableEq

def slice (data : List UInt8) (start stop : Nat) : Except WalStop (List UInt8) :=
  if start ≤ stop ∧ stop ≤ data.length then .ok (data.extract start stop) else .error .panicked

/-- What stands at the cursor, if the data goes that far, and the cursor after it. -/
def readField (data : List UInt8) (size cursor : Nat) : Except WalStop (List UInt8 × Nat) := do
  demand (cursor + size ≤ data.length) .corrupt
  let field ← slice data cursor (cursor + size)
  return (field, cursor + size)

def readNumber (data : List UInt8) (width cursor : Nat) : Except WalStop (Nat × Nat) := do
  let (field, cursor) ← readField data width cursor
  return (leValue field, cursor)

def readOpAt (data : List UInt8) (cursor : Nat) : Except WalStop (WalOp × Nat) := do
  let (opType, cursor) ← readNumber data 1 cursor
  let (familyLen, cursor) ← readNumber data 2 cursor
  let (family, cursor) ← readField data familyLen cursor
  let (keyLen, cursor) ← readNumber data 4 cursor
  let (key, cursor) ← readField data keyLen cursor
  let (valueLen, cursor) ← readNumber data 4 cursor
  let (value, cursor) ← readField data valueLen cursor
  if opType = walOpPut then return (.put family key value, cursor)
  else if opType = walOpDelete then return (.delete family key, cursor)
  else throw .corrupt

def readOpsAt (data : List UInt8) : Nat → Nat → Except WalStop (List WalOp × Nat)
  | 0, cursor => return ([], cursor)
  | count + 1, cursor => do
    let (op, cursor) ← readOpAt data cursor
    let (ops, cursor) ← readOpsAt data count cursor
    return (op :: ops, cursor)

/-- The vector is made for all operations that are announced. `room` is the
greatest number for which there is memory. -/
def parseOps (room : Nat) (opsData : List UInt8) : Except WalStop (List WalOp) := do
  let (opCount, cursor) ← readNumber opsData 4 0
  demand (opCount ≤ room) .aborted
  let (ops, _) ← readOpsAt opsData opCount cursor
  return ops

def checkPayload (payload : List UInt8) : Except WalStop (List UInt8) := do
  demand (8 ≤ payload.length) .corrupt
  let sentinel ← slice payload (payload.length - 4) payload.length
  demand (leValue sentinel = walEntrySentinel) .corrupt
  slice payload 0 (payload.length - 4)

/-- The first half of `parse_wal_entry`. The sum of 8 and the length wraps. -/
def checkEntry (crc : List UInt8 → Octets 4) (data : List UInt8) : Except WalStop (List UInt8) := do
  demand (8 ≤ data.length) .corrupt
  let entryLen := leValue (data.take 8)
  let stop := (8 + entryLen) % 2 ^ 64
  demand (4 ≤ entryLen ∧ stop ≤ data.length) .corrupt
  let entryData ← slice data 8 stop
  let storedCrc ← slice entryData 0 4
  let payload ← slice entryData 4 entryData.length
  demand (storedCrc = (crc payload).bytes) .corrupt
  checkPayload payload

/-- The function `parse_wal_entry`. -/
def parseEntry (room : Nat) (crc : List UInt8 → Octets 4) (data : List UInt8) : Except WalStop (List WalOp) := do
  let opsData ← checkEntry crc data
  parseOps room opsData

/-- A parser gives what another one gives that cannot panic. -/
def Reads (agree : α → β → Prop) (got : Except WalStop α) : Option β → Prop
  | some value => ∃ result, got = .ok result ∧ agree result value
  | none => got = .error .corrupt

/-- The cursor stands before the rest of the data. -/
def Before (data : List UInt8) (here : α × Nat) (there : α × List UInt8) : Prop :=
  here.1 = there.1 ∧ here.2 ≤ data.length ∧ there.2 = data.drop here.2

section

variable {data : List UInt8}

theorem Reads.bind {step : α × Nat → Except WalStop β} {next : α × List UInt8 → Option γ}
    (first : Reads (Before data) got want)
    (second : ∀ value {cursor}, cursor ≤ data.length → Reads agree (step (value, cursor)) (next (value, data.drop cursor))) :
    Reads agree (got >>= step) (want >>= next) := by
  cases want with
  | none =>
      change got = .error .corrupt at first
      rw [first]
      rfl
  | some there =>
      obtain ⟨⟨value, cursor⟩, same, before⟩ := first
      obtain ⟨rfl, inside, rest⟩ := before
      rw [same, ← Prod.mk.eta (p := there), rest]
      exact second there.1 inside

theorem Reads.eq (reads : Reads Eq got want) : got = orMissing .corrupt want := by
  cases want with
  | none => exact reads
  | some value =>
      obtain ⟨result, same, rfl⟩ := reads
      exact same

theorem slice_eq_ok (first : start ≤ stop) (within : stop ≤ data.length) :
    slice data start stop = .ok (data.extract start stop) := if_pos ⟨first, within⟩

theorem readField_reads (inside : cursor ≤ data.length) :
    Reads (Before data) (readField data size cursor) (takeBytes size (data.drop cursor)) := by
  rw [takeBytes, length_drop, readField, demand]
  by_cases within : cursor + size ≤ data.length
  · rw [if_pos within, if_pos (by omega), slice_eq_ok (Nat.le_add_right _ _) within]
    exact ⟨_, rfl, congrArg (take · _) (Nat.add_sub_cancel_left ..), within, drop_drop⟩
  · rw [if_neg within, if_neg (by omega)]
    rfl

theorem readNumber_reads (inside : cursor ≤ data.length) :
    Reads (Before data) (readNumber data width cursor) (takeWord width (data.drop cursor)) := by
  rw [takeWord, Option.map_eq_bind]
  exact (readField_reads inside).bind fun value cursor inside => ⟨_, rfl, rfl, inside, rfl⟩

theorem readOpAt_reads (inside : cursor ≤ data.length) :
    Reads (Before data) (readOpAt data cursor) (readWalOp (data.drop cursor)) := by
  refine (readNumber_reads inside).bind fun opType _ inside => ?_
  refine (readNumber_reads inside).bind fun familyLen _ inside => ?_
  refine (readField_reads inside).bind fun family _ inside => ?_
  refine (readNumber_reads inside).bind fun keyLen _ inside => ?_
  refine (readField_reads inside).bind fun key _ inside => ?_
  refine (readNumber_reads inside).bind fun valueLen _ inside => ?_
  refine (readField_reads inside).bind fun value cursor inside => ?_
  dsimp only
  split_ifs
  · exact ⟨_, rfl, rfl, inside, rfl⟩
  · exact ⟨_, rfl, rfl, inside, rfl⟩
  · rfl

theorem readOpsAt_reads {count : Nat} (inside : cursor ≤ data.length) :
    Reads (Before data) (readOpsAt data count cursor) (takeExactly readWalOp count (data.drop cursor)) := by
  induction count generalizing cursor with
  | zero => exact ⟨_, rfl, rfl, inside, rfl⟩
  | succ count ih =>
      refine (readOpAt_reads inside).bind fun op _ inside => ?_
      exact (ih inside).bind fun ops cursor inside => ⟨_, rfl, rfl, inside, rfl⟩

theorem demand_eq_orMissing [Decidable condition] {next : Unit → Except ε α} (same : next () = orMissing error want) :
    (demand condition error >>= next) = orMissing error (if ¬ condition then none else want) := by
  rw [demand, ite_not]
  split
  · exact same
  · rfl

theorem slice_to_end (within : start ≤ data.length) : slice data start data.length = .ok (data.drop start) := by
  rw [slice_eq_ok within le_rfl, extract, take_of_length_le length_drop.le]

theorem checkPayload_eq : checkPayload data = orMissing .corrupt (sealedOps data) := by
  rw [checkPayload, sealedOps, slice_to_end (Nat.sub_le _ _), slice_eq_ok (Nat.zero_le _) (Nat.sub_le _ _)]
  simp only [← not_le]
  exact demand_eq_orMissing (demand_eq_orMissing rfl)

theorem checkEntry_eq (fits : 8 + leValue (data.take 8) < 2 ^ 64) :
    checkEntry crc data = orMissing .corrupt (wholeEntry crc data) := by
  rw [checkEntry, wholeEntry]
  generalize leValue (data.take 8) = entryLen at fits
  simp only [Nat.mod_eq_of_lt fits, ← not_le, ← not_and_or]
  refine demand_eq_orMissing ?_
  by_cases whole : 4 ≤ entryLen ∧ 8 + entryLen ≤ data.length
  · have sized := @length_extract_of_le _ 8 _ whole.2
    rw [slice_eq_ok (Nat.le_add_right _ _) whole.2]
    refine demand_eq_orMissing ?_
    change (slice _ 0 4 >>= _) = _
    rw [slice_eq_ok (Nat.zero_le _) (by omega), slice_to_end (by omega)]
    exact demand_eq_orMissing checkPayload_eq
  · rw [if_pos whole, demand, if_neg whole]
    rfl

/-- What a whole entry announces fits in memory. -/
def announcedFits (room : Nat) (crc : List UInt8 → Octets 4) (data : List UInt8) : Prop :=
  ∀ opsData, wholeEntry crc data = some opsData → leValue (opsData.take 4) ≤ room

theorem four_le_of_wholeEntry (whole : wholeEntry crc data = some opsData) : 4 ≤ opsData.length := by
  rw [wholeEntry] at whole
  split_ifs at whole
  rw [sealedOps] at whole
  split_ifs at whole
  rw [← Option.some.inj whole, length_take]
  omega

theorem parseOps_eq (counted : 4 ≤ data.length) : parseOps room data =
    if leValue (data.take 4) ≤ room then orMissing .corrupt (parseWalOps data) else .error .aborted := by
  have number : readNumber data 4 0 = .ok (leValue (data.take 4), 4) := by
    rw [readNumber, readField, demand, if_pos (by omega), slice_eq_ok (Nat.zero_le _) (by omega)]
    rfl
  have word : takeWord 4 data = some (leValue (data.take 4), data.drop 4) := by
    rw [takeWord, takeBytes, if_pos counted]
    rfl
  rw [parseOps, number, parseWalOps, word]
  change (demand _ _ >>= fun _ => _) = _
  rw [demand]
  split
  · apply Reads.eq
    exact (readOpsAt_reads counted).bind fun ops _ _ => ⟨ops, rfl, rfl⟩
  · rfl

theorem parseEntry_eq (fits : 8 + leValue (data.take 8) < 2 ^ 64) (announced : announcedFits room crc data) :
    parseEntry room crc data = orMissing .corrupt (parseWalEntry crc data) := by
  rw [parseEntry, checkEntry_eq fits, parseWalEntry]
  cases whole : wholeEntry crc data with
  | none => rfl
  | some opsData =>
      change parseOps room opsData = _
      rw [parseOps_eq (four_le_of_wholeEntry whole), if_pos (announced opsData whole)]
      rfl

theorem lengthFits_of_short (less : data.length < 8) : 8 + leValue (data.take 8) < 2 ^ 64 := by
  have small := leValue_lt (data.take 8)
  have power := Nat.pow_le_pow_right (show 0 < 256 by decide) (show (data.take 8).length ≤ 7 by rw [length_take]; omega)
  omega

theorem parseEntry_encode (short : ∀ op ∈ batch.ops, op.family.length < 256 ^ 2) (held : batch.ops.length ≤ room)
    (rest : List UInt8) : parseEntry room crc (encodeWalEntry crc batch ++ rest) = .ok (batch.ops.map WriteOp.toWal) := by
  have announced : announcedFits room crc (encodeWalEntry crc batch ++ rest) := by
    intro opsData whole
    rw [wholeEntry_encode crc short] at whole
    rw [← Option.some.inj whole, walOperations, take_left' (length_leBytes 4 _), leValue_leBytes]
    exact (Nat.mod_le _ _).trans held
  rw [parseEntry_eq _ announced, parseWalEntry_encode crc short]
  · rfl
  · rw [entryLen_encode crc short]
    exact length_walPayload short

theorem parseEntry_part (short : ∀ op ∈ batch.ops, op.family.length < 256 ^ 2)
    (inside : part <+: encodeWalEntry crc batch) (strict : part ≠ encodeWalEntry crc batch) :
    parseEntry room crc part = .error .corrupt := by
  obtain ⟨more, whole⟩ := inside
  have missing : 0 < more.length := length_pos_iff.mpr fun empty => strict (by rw [← whole, empty, append_nil])
  by_cases less : part.length < 8
  · rw [parseEntry, checkEntry_eq (lengthFits_of_short less), wholeEntry, if_pos less]
    rfl
  · have entryLen := @entryLen_encode batch [] crc short
    have length : part.length + more.length = 8 + (4 + (walPayload batch).length) := by
      rw [← length_append, whole]
      simp [encodeWalEntry]
    rw [append_nil, ← whole, take_append_of_le_length (by omega)] at entryLen
    rw [parseEntry, checkEntry_eq (entryLen ▸ length_walPayload short), wholeEntry, if_neg less, entryLen,
      if_pos (by omega)]
    rfl

theorem parseEntry_of_wraps (wraps : ¬ 8 + leValue (data.take 8) < 2 ^ 64) :
    parseEntry room crc data = .error .panicked := by
  have long : ¬ data.length < 8 := fun less => wraps (lengthFits_of_short less)
  have bound := leValue_lt (data.take 8)
  rw [length_take_of_le (by omega)] at bound
  have panics : checkEntry crc data = .error .panicked := by
    rw [checkEntry, demand, if_pos (by omega)]
    change (demand _ _ >>= _) = _
    rw [demand, if_pos (by omega), slice, if_neg (by omega)]
    rfl
  rw [parseEntry, panics]
  rfl

theorem parseEntry_of_unannounced (fits : 8 + leValue (data.take 8) < 2 ^ 64)
    (whole : wholeEntry crc data = some opsData) (announced : ¬ leValue (opsData.take 4) ≤ room) :
    parseEntry room crc data = .error .aborted := by
  rw [parseEntry, checkEntry_eq fits, whole]
  change parseOps room opsData = _
  rw [parseOps_eq (four_le_of_wholeEntry whole), if_neg announced]

end

/-- The log's codec is exact for every batch for which there is memory, and
the parser returns exactly where the sum of 8 and the declared length fits in
64 bits and the operations that a whole entry announces fit in memory. -/
theorem wal_codec_iff (room : Nat) (crc : List UInt8 → Octets 4) :
    (∀ batch : WriteBatch, (∀ op ∈ batch.ops, op.family.length < 256 ^ 2) → batch.ops.length ≤ room →
      (∀ rest, parseEntry room crc (encodeWalEntry crc batch ++ rest) = .ok (batch.ops.map WriteOp.toWal)) ∧
      ∀ part, part <+: encodeWalEntry crc batch → part ≠ encodeWalEntry crc batch →
        parseEntry room crc part = .error .corrupt) ∧
    ∀ data, (∀ stop, parseEntry room crc data = .error stop → stop = .corrupt) ↔
      8 + leValue (data.take 8) < 2 ^ 64 ∧ announcedFits room crc data := by
  refine ⟨fun batch short held => ⟨parseEntry_encode short held, fun part => parseEntry_part short⟩, fun data => ?_⟩
  constructor
  · intro returns
    have fits : 8 + leValue (data.take 8) < 2 ^ 64 := by
      by_contra wraps
      cases returns _ (parseEntry_of_wraps wraps)
    refine ⟨fits, ?_⟩
    intro opsData whole
    by_contra announced
    cases returns _ (parseEntry_of_unannounced fits whole announced)
  · intro both stop stopped
    rw [parseEntry_eq both.1 both.2] at stopped
    cases parsed : parseWalEntry crc data with
    | none =>
        rw [parsed] at stopped
        exact (Except.error.inj stopped).symm
    | some ops =>
        rw [parsed] at stopped
        cases stopped

/-- Eight bytes that declare the greatest length, and a whole entry that
announces more operations than there is memory for. -/
theorem greatest_length_panics : parseEntry 10000 crc32Bytes (replicate 8 255) = .error .panicked ∧
    parseEntry 10000 crc32Bytes (leBytes 8 12 ++ (crc32Bytes (leBytes 4 (2 ^ 32 - 1) ++
      leBytes 4 walEntrySentinel)).bytes ++ (leBytes 4 (2 ^ 32 - 1) ++ leBytes 4 walEntrySentinel)) =
        .error .aborted := by
  decide +kernel

end Karstflow.Storage
