import Karstflow.Storage.RecordContents

namespace Karstflow.Storage

open Data List Option

/-! The write-ahead log: the bytes in which a batch is announced before it is applied. -/

def walEntrySentinel : Nat := 0x454E4421

def walOpPut : Nat := 0

def walOpDelete : Nat := 1

def maxWriteBatchSize : Nat := 10000

abbrev FamilyName := List UInt8

structure WriteOp where
  family : FamilyName
  operation : Operation
deriving DecidableEq

structure WriteBatch where
  ops : List WriteOp
  size_le : ops.length ≤ maxWriteBatchSize

inductive WalOp where
  | put (family : FamilyName) (key value : List UInt8)
  | delete (family : FamilyName) (key : List UInt8)
deriving DecidableEq

def WriteOp.toWal (op : WriteOp) : WalOp :=
  match op.operation with
  | .put key value => .put op.family key.bytes value.bytes
  | .delete key => .delete op.family key.bytes

def encodeWalOp : WalOp → List UInt8
  | .put family key value =>
    leBytes 1 walOpPut ++ (leBytes 2 family.length ++ (family ++ (leBytes 4 key.length ++ (key ++
      (leBytes 4 value.length ++ value)))))
  | .delete family key =>
    leBytes 1 walOpDelete ++ (leBytes 2 family.length ++ (family ++ (leBytes 4 key.length ++ (key ++ leBytes 4 0))))

def walOperations (batch : WriteBatch) : List UInt8 :=
  leBytes 4 batch.ops.length ++ (batch.ops.map WriteOp.toWal).flatMap encodeWalOp

def walPayload (batch : WriteBatch) : List UInt8 := walOperations batch ++ leBytes 4 walEntrySentinel

def encodeWalEntry (crc : List UInt8 → Octets 4) (batch : WriteBatch) : List UInt8 :=
  leBytes 8 (4 + (walPayload batch).length) ++ ((crc (walPayload batch)).bytes ++ walPayload batch)

def readWalOp (bytes : List UInt8) : Option (WalOp × List UInt8) := do
  let (opType, bytes) ← takeWord 1 bytes
  let (familyLen, bytes) ← takeWord 2 bytes
  let (family, bytes) ← takeBytes familyLen bytes
  let (keyLen, bytes) ← takeWord 4 bytes
  let (key, bytes) ← takeBytes keyLen bytes
  let (valueLen, bytes) ← takeWord 4 bytes
  let (value, bytes) ← takeBytes valueLen bytes
  if opType = walOpPut then some (.put family key value, bytes)
  else if opType = walOpDelete then some (.delete family key, bytes)
  else none

def parseWalOps (bytes : List UInt8) : Option (List WalOp) := do
  let (count, bytes) ← takeWord 4 bytes
  let (ops, _) ← takeExactly readWalOp count bytes
  return ops

/-- What a payload has before its sentinel. -/
def sealedOps (payload : List UInt8) : Option (List UInt8) :=
  if payload.length < 8 then none
  else if leValue (payload.drop (payload.length - 4)) ≠ walEntrySentinel then none
  else some (payload.take (payload.length - 4))

/-- The count and the operations of a whole entry: its length, its checksum
and its sentinel are right. -/
def wholeEntry (crc : List UInt8 → Octets 4) (data : List UInt8) : Option (List UInt8) :=
  if data.length < 8 then none
  else if leValue (data.take 8) < 4 ∨ data.length < 8 + leValue (data.take 8) then none
  else if (data.extract 8 (8 + leValue (data.take 8))).take 4 ≠
      (crc ((data.extract 8 (8 + leValue (data.take 8))).drop 4)).bytes then none
  else sealedOps ((data.extract 8 (8 + leValue (data.take 8))).drop 4)

/-- The operations of a whole entry, and nothing of any other bytes. -/
def parseWalEntry (crc : List UInt8 → Octets 4) (data : List UInt8) : Option (List WalOp) :=
  (wholeEntry crc data).bind parseWalOps

theorem readWalOp_encode {op : WriteOp} (short : op.family.length < 256 ^ 2) (rest : List UInt8) :
    readWalOp (encodeWalOp op.toWal ++ rest) = some (op.toWal, rest) := by
  obtain ⟨family, operation⟩ := op
  cases operation with
  | put key value =>
      have typed : walOpPut < 256 ^ 1 := by decide
      simp only [readWalOp, encodeWalOp, WriteOp.toWal, append_assoc, takeWord_append typed,
        takeWord_append short, takeWord_append key.length_lt, takeWord_append value.length_lt, takeBytes_append rfl,
        bind_eq_bind, bind_some, if_true]
  | delete key =>
      have typed : walOpDelete < 256 ^ 1 := by decide
      have other : walOpDelete ≠ walOpPut := by decide
      have none : (0 : Nat) < 256 ^ 4 := by decide
      have empty : takeBytes 0 rest = some ([], rest) := rfl
      simp only [readWalOp, encodeWalOp, WriteOp.toWal, append_assoc, takeWord_append typed,
        takeWord_append short, takeWord_append key.length_lt, takeWord_append none, empty,
        takeBytes_append rfl, bind_eq_bind, bind_some, if_neg other, if_true]

theorem length_encodeWalOp {op : WriteOp} (short : op.family.length < 256 ^ 2) :
    (encodeWalOp op.toWal).length ≤ 2 ^ 34 := by
  obtain ⟨family, operation⟩ := op
  change family.length < 256 ^ 2 at short
  cases operation with
  | put key value =>
      have keyShort := key.length_lt
      have valueShort := value.length_lt
      simp only [encodeWalOp, WriteOp.toWal, length_append, length_leBytes]
      omega
  | delete key =>
      have keyShort := key.length_lt
      simp only [encodeWalOp, WriteOp.toWal, length_append, length_leBytes]
      omega

theorem parseWalOps_walOperations (short : ∀ op ∈ batch.ops, op.family.length < 256 ^ 2) :
    parseWalOps (walOperations batch) = some (batch.ops.map WriteOp.toWal) := by
  have few : batch.ops.length < 256 ^ 4 := lt_of_le_of_lt batch.size_le (by decide)
  have reads : ∀ op ∈ batch.ops.map WriteOp.toWal, ∀ rest, readWalOp (encodeWalOp op ++ rest) = some (op, rest) := by
    intro op member rest
    obtain ⟨source, sourceMember, rfl⟩ := mem_map.mp member
    exact readWalOp_encode (short source sourceMember) rest
  have all := (takeAll_append reads []).1
  rw [length_map, append_nil] at all
  simp only [parseWalOps, walOperations, takeWord_append few, all, bind_eq_bind, bind_some, Option.pure_def]

theorem length_flatMap_encodeWalOp {ops : List WriteOp} (short : ∀ op ∈ ops, op.family.length < 256 ^ 2) :
    ((ops.map WriteOp.toWal).flatMap encodeWalOp).length ≤ ops.length * 2 ^ 34 := by
  induction ops with
  | nil => exact le_refl 0
  | cons op ops ih =>
      have first := length_encodeWalOp (short op mem_cons_self)
      have others := ih fun other member => short other (mem_cons_of_mem _ member)
      rw [map_cons, flatMap_cons, length_append, length_cons]
      omega

theorem length_walPayload (short : ∀ op ∈ batch.ops, op.family.length < 256 ^ 2) :
    8 + (4 + (walPayload batch).length) < 256 ^ 8 := by
  have operations := length_flatMap_encodeWalOp short
  have few : batch.ops.length ≤ 10000 := batch.size_le
  simp only [walPayload, walOperations, length_append, length_leBytes]
  omega

theorem sealedOps_walPayload (batch : WriteBatch) : sealedOps (walPayload batch) = some (walOperations batch) := by
  have length : (walPayload batch).length = (walOperations batch).length + 4 := by
    rw [walPayload, length_append, length_leBytes]
  have counted : 4 ≤ (walOperations batch).length := by
    rw [walOperations, length_append, length_leBytes]
    exact Nat.le_add_right 4 _
  have front : (walPayload batch).length - 4 = (walOperations batch).length := by omega
  have sentinel : leValue ((walPayload batch).drop (walOperations batch).length) = walEntrySentinel := by
    rw [walPayload, drop_left, leValue_leBytes]
    rfl
  have operations : (walPayload batch).take (walOperations batch).length = walOperations batch := by
    rw [walPayload, take_left]
  rw [sealedOps, if_neg (by omega), front, sentinel, if_neg (fun wrong => wrong rfl), operations]

theorem entryLen_encode (crc : List UInt8 → Octets 4) (short : ∀ op ∈ batch.ops, op.family.length < 256 ^ 2) :
    leValue ((encodeWalEntry crc batch ++ rest).take 8) = 4 + (walPayload batch).length := by
  have fits := length_walPayload short
  rw [encodeWalEntry, append_assoc, take_left' (length_leBytes 8 _), leValue_leBytes, Nat.mod_eq_of_lt (by omega)]

theorem wholeEntry_encode (crc : List UInt8 → Octets 4) (short : ∀ op ∈ batch.ops, op.family.length < 256 ^ 2) :
    wholeEntry crc (encodeWalEntry crc batch ++ rest) = some (walOperations batch) := by
  let body := (crc (walPayload batch)).bytes ++ walPayload batch
  have bodyLength : body.length = 4 + (walPayload batch).length := by simp [body]
  have shown : encodeWalEntry crc batch ++ rest = leBytes 8 body.length ++ (body ++ rest) := by
    rw [encodeWalEntry, bodyLength, append_assoc]
  have length : (encodeWalEntry crc batch ++ rest).length = 8 + (body.length + rest.length) := by
    rw [shown, length_append, length_leBytes, length_append]
  have entry : (encodeWalEntry crc batch ++ rest).extract 8 (8 + body.length) = body := by
    rw [shown, extract_append_skip (length_leBytes 8 _).le, length_leBytes, Nat.sub_self, Nat.add_sub_cancel_left]
    exact extract_append_front rfl
  have checksum : body.take 4 = (crc (walPayload batch)).bytes := take_left' (Octets.bytes_length _)
  have payload : body.drop 4 = walPayload batch := drop_left' (Octets.bytes_length _)
  rw [wholeEntry, entryLen_encode crc short, ← bodyLength, if_neg (by omega), if_neg (by omega), entry, payload, checksum,
    if_neg (fun wrong => wrong rfl), sealedOps_walPayload]

theorem parseWalEntry_encode (crc : List UInt8 → Octets 4) (short : ∀ op ∈ batch.ops, op.family.length < 256 ^ 2) :
    parseWalEntry crc (encodeWalEntry crc batch ++ rest) = some (batch.ops.map WriteOp.toWal) := by
  rw [parseWalEntry, wholeEntry_encode crc short, bind_some, parseWalOps_walOperations short]

end Karstflow.Storage
