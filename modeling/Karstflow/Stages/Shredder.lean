import Karstflow.Types.Account
import Mathlib.Data.List.Sort

namespace Karstflow.Stages

open Data Karstflow.Types List

/-! Entries cut into shreds, and the block that is assembled from them. -/

structure PohEntry where
  numHashes : Nat
  hash : Hash
  transactions : List (List UInt8)
deriving DecidableEq

def PohEntry.isTick (entry : PohEntry) : Bool := entry.transactions.isEmpty

/-- How a batch is written and read; the source has `bincode` for it. -/
structure BatchCodec where
  batchToBytes : List PohEntry → List UInt8
  batchFromBytes : List UInt8 → Except String (List PohEntry)
  batchToBytes_ne_nil : ∀ entries, batchToBytes entries ≠ []

def dataShredPayloadSize : Nat := 1115

def maxDataShredsPerFecBlock : Nat := 67

def shredLastInSlot : UInt8 := 0x80

structure DataShredHeader where
  parentOffset : Nat
  flags : UInt8
  size : Nat

structure CodingShredHeader where
  numDataShreds : Nat
  numCodingShreds : Nat
  position : Nat

inductive ShredVariant where
  | legacyData (header : DataShredHeader)
  | legacyCoding (header : CodingShredHeader)
  | merkleData (header : DataShredHeader)
  | merkleCoding (header : CodingShredHeader)

structure Shred where
  variantByte : UInt8
  slot : Nat
  index : Nat
  version : Nat
  fecSetIndex : Nat
  variant : ShredVariant
  payload : List UInt8

namespace Shred

def dataHeader (shred : Shred) : Option DataShredHeader :=
  match shred.variant with
  | .legacyData header | .merkleData header => some header
  | _ => none

def isData (shred : Shred) : Bool := shred.dataHeader.isSome

def isLastInSlot (shred : Shred) : Bool :=
  shred.dataHeader.any fun header => header.flags &&& shredLastInSlot != 0

def dataSize (shred : Shred) : Option Nat := shred.dataHeader.map DataShredHeader.size

end Shred

inductive ShredderError where
  | tooManyDataShreds (count max : Nat)
  | fecEncodingFailed (reason : String)
  | invalidConfiguration (reason : String)

/-- Reed-Solomon encoding: the coding shards for these data shards. -/
abbrev FecEncoder := List (List UInt8) → Except String (List (List UInt8))

structure ShredderConfig where
  fecDataShreds : Nat
  fecCodingShreds : Nat
  useMerkleProofs : Bool
  shredVersion : Nat

structure EntryShredder where
  slot : Nat
  nextIndex : Nat
  fecSetIndex : Nat
  config : ShredderConfig
  fecEncoder : Option FecEncoder

/-- The pieces of `[T]::chunks`. -/
def chunks (size : Nat) : Nat → List UInt8 → List (List UInt8)
  | 0, _ | _, [] => []
  | fuel + 1, data => data.take size :: chunks size fuel (data.drop size)

namespace EntryShredder

variable (codec : BatchCodec) (shredder : EntryShredder)

def createDataShred (data : List UInt8) (isLastInSlot : Bool) : EntryShredder × Shred :=
  let header : DataShredHeader :=
    { parentOffset := 1, flags := if isLastInSlot then shredLastInSlot else 0, size := data.length % 65536 }
  ({ shredder with nextIndex := shredder.nextIndex + 1 },
    { variantByte := if shredder.config.useMerkleProofs then 0x80 else 0xA0 ||| 0x05
      slot := shredder.slot
      index := shredder.nextIndex
      version := shredder.config.shredVersion
      fecSetIndex := shredder.fecSetIndex
      variant := if shredder.config.useMerkleProofs then .merkleData header else .legacyData header
      payload := data ++ replicate (dataShredPayloadSize - data.length) 0 })

/-- The loop of `create_data_shreds` over the chunks. -/
def createFrom (shredder : EntryShredder) (isLastEntry : Bool) : List (List UInt8) → EntryShredder × List Shred
  | [] => (shredder, [])
  | chunk :: rest =>
    let (next, shred) := shredder.createDataShred chunk (isLastEntry && rest.isEmpty)
    let (last, shreds) := next.createFrom isLastEntry rest
    (last, shred :: shreds)

def entryChunks (entries : List PohEntry) : List (List UInt8) :=
  chunks dataShredPayloadSize (codec.batchToBytes entries).length (codec.batchToBytes entries)

def createDataShreds (entries : List PohEntry) : Except ShredderError (EntryShredder × List Shred) :=
  if entries.isEmpty then .ok (shredder, [])
  else if maxDataShredsPerFecBlock < (entryChunks codec entries).length then
    .error (.tooManyDataShreds (entryChunks codec entries).length maxDataShredsPerFecBlock)
  else .ok (shredder.createFrom (entries.getLast?.any PohEntry.isTick) (entryChunks codec entries))

def codingShred (dataShreds position : Nat) (payload : List UInt8) : Shred :=
  let header : CodingShredHeader :=
    { numDataShreds := dataShreds % 65536, numCodingShreds := shredder.config.fecCodingShreds % 65536
      position := position % 65536 }
  { variantByte := if shredder.config.useMerkleProofs then 0x40 else 0x50 ||| 0x0A
    slot := shredder.slot
    index := shredder.nextIndex + position
    version := shredder.config.shredVersion
    fecSetIndex := shredder.fecSetIndex
    variant := if shredder.config.useMerkleProofs then .merkleCoding header else .legacyCoding header
    payload }

def createCodingShreds (dataShreds : List Shred) : Except ShredderError (EntryShredder × List Shred) :=
  if dataShreds.isEmpty then .ok (shredder, [])
  else
    match shredder.fecEncoder with
    | none => .error (.invalidConfiguration "FEC encoder not initialized")
    | some encode =>
      match encode (dataShreds.map Shred.payload ++ replicate (shredder.config.fecDataShreds - dataShreds.length)
        (replicate dataShredPayloadSize 0)) with
      | .error reason => .error (.fecEncodingFailed reason)
      | .ok coding =>
        .ok ({ shredder with
            nextIndex := shredder.nextIndex + shredder.config.fecCodingShreds
            fecSetIndex := shredder.fecSetIndex + 1 },
          coding.mapIdx fun position payload => shredder.codingShred dataShreds.length position payload)

/-- The data shreds of each batch, with the coding shreds made after each. -/
def shredBatches (codec : BatchCodec) (shredder : EntryShredder) : List (List PohEntry) → Except ShredderError (List (List Shred))
  | [] => return []
  | batch :: rest => do
    let made ← shredder.createDataShreds codec batch
    let coded ← made.1.createCodingShreds made.2
    let others ← coded.1.shredBatches codec rest
    return made.2 :: others

end EntryShredder

inductive ShredAssemblyError where
  | noShreds
  | noDataShreds
  | slotMismatch (expected actual : Nat)
  | deserializationFailed (reason : String)
deriving DecidableEq

structure AssembledBlock where
  slot : Nat
  parentSlot : Nat
  entries : List PohEntry
  transactionCount : Nat
  totalBytes : Nat
  shredCount : Nat
deriving DecidableEq

def Shred.contents (shred : Shred) : List UInt8 :=
  shred.dataSize.elim [] fun size => shred.payload.take size

def parseEntries (codec : BatchCodec) (data : List UInt8) :
    Except ShredAssemblyError (List PohEntry) :=
  if data.isEmpty then .ok []
  else
    match codec.batchFromBytes data with
    | .ok entries => .ok entries
    | .error reason => .error (.deserializationFailed ("bincode deserialization failed: " ++ reason))

def assembleBlock (codec : BatchCodec) (shreds : List Shred) :
    Except ShredAssemblyError AssembledBlock :=
  if shreds.isEmpty then .error .noShreds
  else
    match (shreds.filter Shred.isData).insertionSort (fun left right => left.index ≤ right.index) with
    | [] => .error .noDataShreds
    | first :: rest =>
      match rest.find? fun shred => shred.slot != first.slot with
      | some other => .error (.slotMismatch first.slot other.slot)
      | none =>
        let data := (first :: rest).flatMap Shred.contents
        (parseEntries codec data).map fun entries =>
          { slot := first.slot
            parentSlot := first.slot - (first.dataHeader.elim 1 DataShredHeader.parentOffset)
            entries
            transactionCount := (entries.map fun entry => entry.transactions.length).sum
            totalBytes := data.length
            shredCount := (first :: rest).length }

theorem flatten_chunks (positive : 0 < size) (enough : data.length ≤ fuel) :
    (chunks size fuel data).flatten = data := by
  induction fuel generalizing data with
  | zero => rw [length_eq_zero_iff.mp (Nat.le_zero.mp enough), chunks, flatten_nil]
  | succ fuel ih =>
    cases data with
    | nil => rfl
    | cons byte rest =>
      rw [chunks, flatten_cons, ih, take_append_drop]
      · rw [length_drop, length_cons] at *
        omega
      · exact cons_ne_nil byte rest

theorem length_le_of_mem_chunks (member : chunk ∈ chunks size fuel data) : chunk.length ≤ size := by
  induction fuel generalizing data with
  | zero => cases member
  | succ fuel ih =>
    cases data with
    | nil => cases member
    | cons byte rest =>
      rw [chunks] at member
      · obtain rfl | later := mem_cons.mp member
        · exact length_take_le size _
        · exact ih later
      · exact cons_ne_nil byte rest

/-- Data shreds of a slot, in the order of their indices, that carry these bytes. -/
structure Carries (slot start stop : Nat) (shreds : List Shred) (data : List UInt8) : Prop where
  span : start ≤ stop
  kind : ∀ shred ∈ shreds, shred.isData = true ∧ shred.slot = slot ∧ start ≤ shred.index ∧ shred.index < stop
  ordered : shreds.Pairwise fun left right => left.index < right.index
  contents : shreds.flatMap Shred.contents = data

section

variable {order : List Shred}

theorem Carries.append {next : Nat} (first : Carries slot start middle shreds data) (second : Carries slot next stop others more)
    (apart : middle ≤ next) : Carries slot start stop (shreds ++ others) (data ++ more) := by
  have before := first.span
  have after := second.span
  refine ⟨by omega, fun shred member => ?_, pairwise_append.mpr ⟨first.ordered, second.ordered, ?_⟩, ?_⟩
  · obtain early | late := mem_append.mp member
    · have := first.kind shred early
      exact ⟨this.1, this.2.1, by omega, by omega⟩
    · have := second.kind shred late
      exact ⟨this.1, this.2.1, by omega, by omega⟩
  · intro left early right late
    have := first.kind left early
    have := second.kind right late
    omega
  · rw [flatMap_append, first.contents, second.contents]

theorem Carries.sort (carries : Carries slot start stop shreds data) (shuffled : order.Perm shreds) :
    (order.filter Shred.isData).insertionSort (fun left right => left.index ≤ right.index) = shreds := by
  have whole := filter_eq_self.mpr fun shred member => (carries.kind shred (shuffled.subset member)).1
  have sorted := (perm_insertionSort (fun left right : Shred => left.index ≤ right.index) order).trans shuffled
  rw [whole]
  have distinct := pairwise_map.mpr (carries.ordered.imp ne_of_lt)
  refine sorted.eq_of_pairwise ?_ (pairwise_insertionSort _ order) ?_
  · intro left right early late below above
    exact inj_on_of_nodup_map distinct (sorted.subset early) late (le_antisymm below above)
  · exact carries.ordered.imp fun earlier => le_of_lt earlier

theorem Carries.assemble (carries : Carries slot start stop shreds data) (shuffled : order.Perm shreds)
    (some : data ≠ []) (decoded : codec.batchFromBytes data = .ok entries) :
    ∃ block, assembleBlock codec order = .ok block ∧ block.entries = entries := by
  rw [assembleBlock, carries.sort shuffled]
  cases shreds with
  | nil => exact absurd carries.contents.symm some
  | cons first rest =>
    have slots : rest.find? (fun shred => shred.slot != first.slot) = none := by
      refine find?_eq_none.mpr fun shred member => ?_
      have := (carries.kind shred (mem_cons_of_mem first member)).2.1
      have := (carries.kind first mem_cons_self).2.1
      simp_all
    have nonempty : order.isEmpty = false := by
      rw [isEmpty_eq_false_iff]
      rintro rfl
      exact absurd shuffled.length_eq (by simp)
    simp only [nonempty, slots, carries.contents, parseEntries, isEmpty_eq_false_iff.mpr some, decoded]
    exact ⟨_, rfl, rfl⟩

end

namespace EntryShredder

variable {shredder : EntryShredder} {isLastEntry : Bool}

theorem createFrom_carries (short : ∀ chunk ∈ pieces, chunk.length ≤ dataShredPayloadSize) :
    Carries shredder.slot shredder.nextIndex (shredder.nextIndex + pieces.length)
        (shredder.createFrom isLastEntry pieces).2 pieces.flatten ∧ (shredder.createFrom isLastEntry pieces).1 =
        { shredder with nextIndex := shredder.nextIndex + pieces.length } := by
  induction pieces generalizing shredder with
  | nil => exact ⟨⟨le_rfl, by simp [createFrom], .nil, rfl⟩, rfl⟩
  | cons chunk rest ih =>
    obtain ⟨carries, state⟩ := @ih { shredder with nextIndex := shredder.nextIndex + 1 }
      fun chunk member => short chunk (mem_cons_of_mem _ member)
    have one : Carries shredder.slot shredder.nextIndex (shredder.nextIndex + 1)
        [(shredder.createDataShred chunk (isLastEntry && rest.isEmpty)).2] chunk := by
      have fits := short chunk mem_cons_self
      have size : chunk.length % 65536 = chunk.length := Nat.mod_eq_of_lt (by rw [dataShredPayloadSize] at fits; omega)
      refine ⟨Nat.le_succ _, ?_, pairwise_singleton _ _, ?_⟩
      · simp only [mem_singleton, forall_eq, createDataShred, Shred.isData, Shred.dataHeader]
        split_ifs <;> simp
      · simp only [flatMap_singleton, Shred.contents, Shred.dataSize, createDataShred, Shred.dataHeader, size]
        split_ifs <;> simp
    rw [createFrom, length_cons, add_comm rest.length, ← add_assoc]
    exact ⟨one.append carries le_rfl, state⟩

theorem isLastInSlot_createFrom {after : List Shred} {shred : Shred}
    (split : (shredder.createFrom isLastEntry pieces).2 = before ++ shred :: after) :
    shred.isLastInSlot = true ↔ isLastEntry = true ∧ after = [] := by
  induction pieces generalizing shredder before with
  | nil => cases before <;> cases split
  | cons chunk rest ih =>
    rw [createFrom] at split
    cases before with
    | cons first earlier =>
      obtain ⟨-, later⟩ := cons.inj split
      exact ih later
    | nil =>
      obtain ⟨rfl, rfl⟩ := cons.inj split
      have ends : (createFrom { shredder with nextIndex := shredder.nextIndex + 1 } isLastEntry rest).2 = [] ↔
          rest = [] := by cases rest <;> simp [createFrom]
      rw [createDataShred, ends, Shred.isLastInSlot]
      cases isLastEntry <;> cases rest <;> cases shredder.config.useMerkleProofs <;> simp [Shred.dataHeader, shredLastInSlot]

theorem createDataShreds_carries (created : shredder.createDataShreds codec entries = .ok made) (nonempty : entries ≠ []) :
    made = shredder.createFrom (entries.getLast?.any PohEntry.isTick) (entryChunks codec entries) ∧
      Carries shredder.slot shredder.nextIndex made.1.nextIndex made.2 (codec.batchToBytes entries) ∧
      made.1.slot = shredder.slot := by
  rw [createDataShreds, if_neg (by simpa using nonempty)] at created
  split at created
  · cases created
  cases created
  obtain ⟨carries, state⟩ := @createFrom_carries shredder (entries.getLast?.any PohEntry.isTick) (entryChunks codec entries)
    fun _ member => length_le_of_mem_chunks member
  rw [entryChunks, flatten_chunks (by decide) le_rfl, ← entryChunks] at carries
  rw [state]
  exact ⟨rfl, carries, rfl⟩

theorem createCodingShreds_state (created : shredder.createCodingShreds dataShreds = .ok coded) :
    coded.1.slot = shredder.slot ∧ shredder.nextIndex ≤ coded.1.nextIndex := by
  rw [createCodingShreds] at created
  split at created
  · cases created
    exact ⟨rfl, le_rfl⟩
  split at created
  · cases created
  · split at created
    · cases created
    · cases created
      exact ⟨rfl, Nat.le_add_right _ _⟩

theorem shredBatches_carries
    (nonempty : ∀ batch ∈ batches, batch ≠ []) (ran : shredder.shredBatches codec batches = .ok shreds) :
    ∃ stop, Carries shredder.slot shredder.nextIndex stop shreds.flatten (batches.flatMap codec.batchToBytes) := by
  induction batches generalizing shredder shreds with
  | nil =>
    cases ran
    exact ⟨_, ⟨le_rfl, by simp, .nil, rfl⟩⟩
  | cons batch rest ih =>
    simp only [shredBatches, bind_eq_ok, pure_eq_ok] at ran
    obtain ⟨made, created, coded, coding, others, later, rfl⟩ := ran
    obtain ⟨-, carries, slot⟩ := createDataShreds_carries created (nonempty batch mem_cons_self)
    obtain ⟨sameSlot, further⟩ := createCodingShreds_state coding
    obtain ⟨stop, carriesLater⟩ := ih (fun batch member => nonempty batch (mem_cons_of_mem _ member)) later
    rw [sameSlot, slot] at carriesLater
    exact ⟨stop, carries.append carriesLater further⟩

end EntryShredder

/-- Only the last data shred is flagged, and every order of the data shreds
assembles to the entries. -/
structure ComesBack (codec : BatchCodec) (batches : List (List PohEntry))
    (shreds : List (List Shred)) : Prop where
  flags : ∀ before shred after, shreds.flatten = before ++ shred :: after → (shred.isLastInSlot = true ↔ after = [])
  whole : ∀ order, order.Perm shreds.flatten → ∃ block, assembleBlock codec order = .ok block ∧
    block.entries = batches.flatten

/-- A block comes back exactly when it is one batch that ends in a tick: the
assembler decodes a single batch, and every batch that ends in a tick is flagged. -/
theorem shredBatches_comesBack_iff (codec : BatchCodec) (shredder : EntryShredder)
    (batches : List (List PohEntry)) (shreds : List (List Shred)) (nonempty : ∀ batch ∈ batches, batch ≠ [])
    (decodes : ∀ batch ∈ batches, ∀ rest, codec.batchFromBytes (codec.batchToBytes batch ++ rest) = .ok batch)
    (ran : shredder.shredBatches codec batches = .ok shreds) : ComesBack codec batches shreds ↔
      ∃ batch, batches = [batch] ∧ batch.getLast?.any PohEntry.isTick = true := by
  obtain ⟨stop, carries⟩ := EntryShredder.shredBatches_carries nonempty ran
  cases batches with
  | nil =>
    cases ran
    refine iff_of_false (fun comes => ?_) (by simp)
    obtain ⟨block, assembled, -⟩ := comes.whole [] .nil
    cases assembled
  | cons batch rest =>
    have filled : (batch :: rest).flatMap codec.batchToBytes ≠ [] := by
      simp [codec.batchToBytes_ne_nil]
    have decoded := decodes batch mem_cons_self (rest.flatMap codec.batchToBytes)
    have assembles {order : List Shred} (shuffled : order.Perm shreds.flatten) :=
      carries.assemble shuffled filled decoded
    cases rest with
    | cons second others =>
      refine iff_of_false (fun comes => ?_) (by simp)
      obtain ⟨block, assembled, entries⟩ := comes.whole _ (.refl _)
      obtain ⟨same, again, first⟩ := assembles (.refl _)
      cases assembled.symm.trans again
      rw [first, flatten_cons, self_eq_append_right, flatten_cons, append_eq_nil_iff] at entries
      exact nonempty second (by simp) entries.1
    | nil =>
      simp only [EntryShredder.shredBatches, bind_eq_ok, pure_eq_ok] at ran
      obtain ⟨made, created, coded, -, others, rfl, rfl⟩ := ran
      obtain ⟨rfl, -, -⟩ := EntryShredder.createDataShreds_carries created (nonempty batch mem_cons_self)
      have flag {before : List Shred} {shred : Shred} {after : List Shred} := @EntryShredder.isLastInSlot_createFrom shredder
        (batch.getLast?.any PohEntry.isTick) (EntryShredder.entryChunks codec batch) before after shred
      rw [flatten_singleton] at assembles carries
      constructor
      · intro comes
        refine ⟨batch, rfl, ?_⟩
        obtain none | ⟨before, shred, split⟩ := eq_nil_or_concat' (EntryShredder.createFrom shredder _ _).2
        · rw [none] at carries
          exact absurd carries.contents.symm filled
        · have flagged := (comes.flags before shred [] (by rw [flatten_singleton, split])).mpr rfl
          exact ((flag split).mp flagged).1
      · rintro ⟨only, same, tick⟩
        cases same
        refine ⟨fun before shred after split => ?_, fun order shuffled => ?_⟩
        · rw [flatten_singleton] at split
          rw [flag split, and_iff_right tick]
        · rw [flatten_singleton] at shuffled ⊢
          exact assembles shuffled

def takeTransaction (bytes : List UInt8) : Option (List UInt8 × List UInt8) := do
  let (size, bytes) ← takeWord 8 bytes
  takeBytes size bytes

namespace PohEntry

def toBytes (entry : PohEntry) : List UInt8 :=
  leBytes 8 entry.numHashes ++ (entry.hash.bytes ++ (leBytes 8 entry.transactions.length ++
    entry.transactions.flatMap fun transaction => leBytes 8 transaction.length ++ transaction))

def fromBytes (bytes : List UInt8) : Option (PohEntry × List UInt8) := do
  let (numHashes, bytes) ← takeWord 8 bytes
  let (hash, bytes) ← takeOctets 32 bytes
  let (count, bytes) ← takeWord 8 bytes
  let (transactions, bytes) ← takeExactly takeTransaction count bytes
  return ({ numHashes, hash, transactions }, bytes)

/-- The counts of the entry are 64 bits wide. -/
structure Fits (entry : PohEntry) : Prop where
  numHashes : entry.numHashes < 256 ^ 8
  count : entry.transactions.length < 256 ^ 8
  sizes : ∀ transaction ∈ entry.transactions, transaction.length < 256 ^ 8

theorem fromBytes_toBytes (fits : Fits entry) (rest : List UInt8) :
    fromBytes (entry.toBytes ++ rest) = some (entry, rest) := by
  have reads : ∀ transaction ∈ entry.transactions, ∀ rest,
      takeTransaction (leBytes 8 transaction.length ++ transaction ++ rest) = some (transaction, rest) := by
    intro transaction member rest
    simp [takeTransaction, takeWord_append (fits.sizes transaction member), takeBytes_append]
  have transactions := (takeAll_append reads rest).1
  simp [fromBytes, toBytes, takeWord_append fits.numHashes, takeOctets_append, takeWord_append fits.count, transactions]

end PohEntry

/-- Each count as eight bytes before what it counts; bytes that are left over are ignored. -/
def bincode : BatchCodec where
  batchToBytes entries := leBytes 8 entries.length ++ entries.flatMap PohEntry.toBytes
  batchFromBytes bytes :=
    match (takeWord 8 bytes).bind fun taken => takeExactly PohEntry.fromBytes taken.1 taken.2 with
    | some (entries, _) => .ok entries
    | none => .error "unexpected end of file"
  batchToBytes_ne_nil entries := by simp [leBytes]

theorem bincode_decodes (long : batch.length < 256 ^ 8) (fits : ∀ entry ∈ batch, PohEntry.Fits entry)
    (rest : List UInt8) : bincode.batchFromBytes (bincode.batchToBytes batch ++ rest) = .ok batch := by
  have entries := (takeAll_append (fun entry member => PohEntry.fromBytes_toBytes (fits entry member)) rest).1
  simp [bincode, takeWord_append long, entries]

def zeroTick : PohEntry := { numHashes := 1, hash := .filled 32 0, transactions := [] }

/-- One coding shard for one data shard, which is its copy. -/
def copyingShredder : EntryShredder :=
  { slot := 1, nextIndex := 0, fecSetIndex := 0, fecEncoder := some .ok
    config := { fecDataShreds := 1, fecCodingShreds := 1, useMerkleProofs := false, shredVersion := 1 } }

theorem shredBatches_comesBack_tick : ∃ shreds, copyingShredder.shredBatches bincode [[zeroTick]] = .ok shreds ∧
    ComesBack bincode [[zeroTick]] shreds := by
  have fits : ∀ entry ∈ [zeroTick], PohEntry.Fits entry := by
    intro entry member
    rw [mem_singleton.mp member]
    exact ⟨by decide, by decide, by decide⟩
  refine ⟨_, rfl, (shredBatches_comesBack_iff bincode copyingShredder [[zeroTick]] _ (by decide) ?_ rfl).mpr ⟨_, rfl, rfl⟩⟩
  intro batch member rest
  rw [mem_singleton.mp member]
  exact bincode_decodes (by decide) fits rest

/-- Of two batches only the first comes back. -/
theorem shredBatches_loses_second : ∃ shreds, copyingShredder.shredBatches bincode [[zeroTick], [zeroTick]] = .ok shreds ∧
    ¬ ComesBack bincode [[zeroTick], [zeroTick]] shreds := by
  refine ⟨_, rfl, fun comes => ?_⟩
  obtain ⟨block, assembled, entries⟩ := comes.whole _ (.refl _)
  cases assembled
  exact absurd (congrArg length entries) (by decide)

end Karstflow.Stages
