import Karstflow.Stages.Poh

namespace Karstflow.Stages

open Data Karstflow.Types List

/-! The entries of a leader slot as a proof-of-history sequence. -/

/-- The hash that an entry reaches from the one before it. -/
def follow (sha256 : List UInt8 → Hash) (hash : Hash) (numHashes : Nat) (mixin : Option Hash) : Hash :=
  let last := (hashOnce sha256)^[numHashes - 1] hash
  mixin.elim (hashOnce sha256 last) (hashMixin sha256 last)

def Chained (sha256 : List UInt8 → Hash) : Hash → List Recorded → Prop
  | _, [] => True
  | hash, (mixin, entry) :: rest =>
    1 ≤ entry.numHashes ∧ entry.hash = follow sha256 hash entry.numHashes mixin ∧ Chained sha256 entry.hash rest

/-- The hashes between ticks so far, and those after the last tick. -/
def measure (lengths : List Nat × Nat) (record : Recorded) : List Nat × Nat :=
  let hashes := lengths.2 + record.2.numHashes
  if record.2.isTick then (hashes :: lengths.1, 0) else (lengths.1, hashes)

def tickIntervals (records : List Recorded) : List Nat × Nat := records.foldl measure ([], 0)

structure WellFormedSlot (sha256 : List UInt8 → Hash) (poh : PohService) (start : Hash)
    (records : List Recorded) (complete : SlotComplete) : Prop where
  ticks : records.countP (fun record => record.2.isTick) = poh.ticksPerSlot
  hashes : (records.map fun record => record.2.numHashes).sum = poh.hashcntPerSlot
  chained : Chained sha256 start records
  intervals : ∀ hashes ∈ (tickIntervals records).2 :: (tickIntervals records).1, hashes ≤ poh.hashesPerTick
  blockhash : records.getLast?.map (fun record => record.2.hash) = some complete.blockhash

/-- The service that leads the slot after a completed one. -/
def PohService.lead (poh : PohService) (completedSlot : Nat) (blockhash : Hash) (nextLeaderSlot : Nat) :
    PohService :=
  (poh.reset completedSlot blockhash nextLeaderSlot).setLeaderBank (completedSlot + 1) poh.hashesPerTick

/-- What is recorded for a slot that is finished after these calls. -/
def leaderSlot (sha256 : List UInt8 → Hash) (poh : PohService) (calls : List PohCall) :
    List Recorded × SlotComplete :=
  let (last, records) := PohCall.run sha256 poh calls
  let (_, entries, complete) := last.finishSlot sha256
  (records ++ plain entries, complete)

/-- The call mixes a microblock in where a tick is due. -/
def PohCall.meetsTick (poh : PohService) : PohCall → Prop
  | .mixin _ _ => poh.hashcnt < poh.hashcntPerSlot ∧ poh.hashesPerTick ∣ poh.hashcnt + 1
  | _ => False

/-- No microblock takes the place of a tick. -/
def KeepsTicks (sha256 : List UInt8 → Hash) : PohService → List PohCall → Prop
  | _, [] => True
  | poh, call :: rest => ¬ call.meetsTick poh ∧ KeepsTicks sha256 (call.apply sha256 poh).1 rest

def tip (start : Hash) (records : List Recorded) : Hash :=
  (records.getLast?.map fun record => record.2.hash).getD start

theorem chained_append : Chained sha256 start (records ++ others) ↔
      Chained sha256 start records ∧ Chained sha256 (tip start records) others := by
  induction records generalizing start with
  | nil => simp [Chained, tip]
  | cons record rest ih =>
      have tips : tip start (record :: rest) = tip record.2.hash rest := by
        rw [tip, tip, getLast?_cons]
        cases rest.getLast? <;> rfl
      rw [cons_append, Chained, Chained, ih, tips, and_assoc, and_assoc]

/-- The service leads the slot, has recorded these entries, and this many ticks
have given their place to a microblock. -/
structure Recording (sha256 : List UInt8 → Hash) (hashesPerTick ticksPerSlot : Nat) (start : Hash) (missed : Nat)
    (poh : PohService) (records : List Recorded) : Prop where
  leading : poh.state = .leading
  slot : poh.slot = poh.lastEntrySlot
  perTick : poh.hashesPerTick = hashesPerTick
  perSlot : poh.ticksPerSlot = ticksPerSlot
  within : poh.hashcnt ≤ hashesPerTick * ticksPerSlot
  before : poh.lastEntryHashcnt ≤ poh.hashcnt
  recorded : hashesPerTick ∣ poh.hashcnt → poh.lastEntryHashcnt = poh.hashcnt
  chained : Chained sha256 start records
  hash : poh.hash = (hashOnce sha256)^[poh.hashcnt - poh.lastEntryHashcnt] (tip start records)
  hashes : (records.map fun record => record.2.numHashes).sum = poh.lastEntryHashcnt
  ticks : records.countP (fun record => record.2.isTick) + missed = poh.hashcnt / hashesPerTick
  intervals : missed = 0 → (∀ hashes ∈ (tickIntervals records).1, hashes ≤ hashesPerTick) ∧
    (tickIntervals records).2 + hashesPerTick * (poh.hashcnt / hashesPerTick) = poh.lastEntryHashcnt

theorem PohService.updateHashesPerTick_self {poh : PohService} {hashesPerTick : Nat} (positive : 0 < hashesPerTick)
    (same : poh.hashesPerTick = hashesPerTick) : poh.updateHashesPerTick hashesPerTick = poh :=
  if_pos (by omega)

section

variable (recording : Recording sha256 hashesPerTick ticksPerSlot start missed poh records)

include recording

theorem Recording.hashcntPerSlot_eq : poh.hashcntPerSlot = hashesPerTick * ticksPerSlot := by
  rw [PohService.hashcntPerSlot, recording.perTick, recording.perSlot]

/-- A slot of no more hashes than a `u64` counts overflows no counter. -/
theorem Recording.fits (small : hashesPerTick * ticksPerSlot ≤ u64Max) : poh.hashcnt ≤ u64Max ∧
    poh.lastEntryHashcnt ≤ u64Max ∧ ∀ record ∈ records, record.2.numHashes ≤ u64Max := by
  have within := recording.within
  have before := recording.before
  refine ⟨by omega, by omega, fun record member => ?_⟩
  have below := le_sum_of_mem (mem_map_of_mem (f := fun record => record.2.numHashes) member)
  rw [recording.hashes] at below
  omega

section

variable (room : poh.hashcnt < hashesPerTick * ticksPerSlot)

include room

theorem Recording.emit (positive : 0 < hashesPerTick) (entry : Entry) (taken microblocks : Nat)
    (hashed : entry.hash = mixin.elim (hashOnce sha256 poh.hash) (hashMixin sha256 poh.hash))
    (numHashes : entry.numHashes = poh.hashcnt + 1 - poh.lastEntryHashcnt)
    (due : (if entry.isTick then 1 else 0) + taken = if hashesPerTick ∣ poh.hashcnt + 1 then 1 else 0) :
    Recording sha256 hashesPerTick ticksPerSlot start (missed + taken)
      { poh with
        hash := entry.hash, hashcnt := poh.hashcnt + 1, microblocksInSlot := microblocks,
        lastEntryHashcnt := poh.hashcnt + 1, lastEntrySlot := poh.slot }
      (records ++ [(mixin, entry)]) := by
  have before := recording.before
  have ticks := recording.ticks
  have next := @Nat.succ_div poh.hashcnt hashesPerTick
  have rest := Nat.mod_lt poh.hashcnt positive
  have whole := Nat.div_add_mod poh.hashcnt hashesPerTick
  have steps : poh.hashcnt + 1 - poh.lastEntryHashcnt - 1 = poh.hashcnt - poh.lastEntryHashcnt := by omega
  refine ⟨recording.leading, rfl, recording.perTick, recording.perSlot, room, le_rfl, fun _ => rfl, ?_, ?_, ?_, ?_, ?_⟩
  · refine chained_append.mpr ⟨recording.chained, by omega, ?_, trivial⟩
    rw [hashed, numHashes, follow, steps, ← recording.hash]
  · simp [tip]
  · rw [map_append, sum_append, recording.hashes, map_singleton, sum_singleton, numHashes]
    exact Nat.add_sub_of_le (by omega)
  · rw [countP_append, countP_singleton, next, ← due]
    dsimp only
    omega
  · intro none
    obtain ⟨lengths, last⟩ := recording.intervals (by omega)
    rw [tickIntervals, foldl_append] at *
    simp only [foldl_cons, foldl_nil, measure, numHashes]
    by_cases tick : entry.isTick
    · have boundary : hashesPerTick ∣ poh.hashcnt + 1 := by
        by_contra other
        rw [if_pos tick, if_neg other] at due
        omega
      rw [if_pos tick, Nat.mul_div_cancel' boundary]
      refine ⟨forall_mem_cons.mpr ⟨?_, lengths⟩, zero_add _⟩
      omega
    · rw [if_neg tick] at due ⊢
      have same : (poh.hashcnt + 1) / hashesPerTick = poh.hashcnt / hashesPerTick := by omega
      rw [same]
      exact ⟨lengths, by dsimp only; omega⟩

theorem Recording.skip (between : ¬ hashesPerTick ∣ poh.hashcnt + 1) :
    Recording sha256 hashesPerTick ticksPerSlot start missed
      { poh with hash := hashOnce sha256 poh.hash, hashcnt := poh.hashcnt + 1 } records := by
  have same : (poh.hashcnt + 1) / hashesPerTick = poh.hashcnt / hashesPerTick := by
    rw [Nat.succ_div, if_neg between, add_zero]
  refine ⟨recording.leading, recording.slot, recording.perTick, recording.perSlot, room, by grind [recording.before],
    fun due => absurd due between, recording.chained, ?_, recording.hashes, ?_, ?_⟩
  · rw [Nat.sub_add_comm recording.before, Function.iterate_succ_apply', ← recording.hash]
  · rw [recording.ticks, same]
  · rw [same]
    exact recording.intervals

theorem Recording.advanceOnce (positive : 0 < hashesPerTick) :
    Recording sha256 hashesPerTick ticksPerSlot start missed (poh.advanceOnce sha256).1
      (records ++ plain (poh.advanceOnce sha256).2) := by
  obtain rfl := recording.perTick
  by_cases due : poh.hashesPerTick ∣ poh.hashcnt + 1
  · rw [PohService.advanceOnce, if_pos due, if_pos recording.leading]
    refine recording.emit room positive (.tick _ _) 0 poh.microblocksInSlot rfl ?_ ?_
    · simp only [Entry.numHashes, PohService.hashcntSinceLastEntry, recording.slot, if_true]
    · simp only [Entry.isTick, if_true, if_pos due]
  · rw [PohService.advanceOnce, if_neg due, plain, map_nil, append_nil]
    exact recording.skip room due

end

end

theorem PohService.advanceOnce_hashcnt (poh : PohService) : (poh.advanceOnce sha256).1.hashcnt = poh.hashcnt + 1 := by
  rw [advanceOnce]
  split_ifs <;> rfl

section

variable (recording : Recording sha256 hashesPerTick ticksPerSlot start missed poh records) (positive : 0 < hashesPerTick)

include recording positive

theorem Recording.advance (count : Nat) :
    Recording sha256 hashesPerTick ticksPerSlot start missed (poh.advance sha256 count).1
        (records ++ plain (poh.advance sha256 count).2) ∧ (hashesPerTick * ticksPerSlot ≤ poh.hashcnt + count →
        (poh.advance sha256 count).1.hashcnt = hashesPerTick * ticksPerSlot) := by
  induction count generalizing poh records with
  | zero =>
      simp only [PohService.advance, plain, map_nil, append_nil]
      exact ⟨recording, fun full => le_antisymm recording.within full⟩
  | succ count ih =>
      rw [PohService.advance, recording.hashcntPerSlot_eq]
      by_cases full : hashesPerTick * ticksPerSlot ≤ poh.hashcnt
      · simp only [if_pos full, plain, map_nil, append_nil]
        exact ⟨recording, fun _ => le_antisymm recording.within full⟩
      obtain ⟨rest, filled⟩ := ih (recording.advanceOnce (Nat.lt_of_not_le full) positive)
      rw [PohService.advanceOnce_hashcnt, add_right_comm] at filled
      rw [plain, plain, append_assoc, ← map_append] at rest
      rw [if_neg full]
      exact ⟨rest, filled⟩

/-- Each call extends the recording, and takes the place of a tick exactly when it meets one. -/
theorem Recording.apply (call : PohCall) :
    ∃ taken, Recording sha256 hashesPerTick ticksPerSlot start (missed + taken) (call.apply sha256 poh).1
        (records ++ (call.apply sha256 poh).2) ∧ (taken = 0 ↔ ¬ call.meetsTick poh) := by
  cases call with
  | advance count => exact ⟨0, (recording.advance positive count).1, by simp [PohCall.meetsTick]⟩
  | advanceToClock nowNs =>
      refine ⟨0, ?_, by simp [PohCall.meetsTick]⟩
      rw [PohCall.apply, PohService.advanceToClock]
      split
      · simpa [plain] using recording
      · exact (recording.advance positive _).1
  | mixin mixinHash count =>
      obtain rfl := recording.perTick
      rw [PohCall.apply, PohService.mixin, PohCall.meetsTick, recording.hashcntPerSlot_eq]
      by_cases full : poh.hashesPerTick * ticksPerSlot ≤ poh.hashcnt
      · rw [if_pos (.inr full)]
        exact ⟨0, by simpa using recording, by simp [full]⟩
      have room := Nat.lt_of_not_le full
      rw [if_neg (by simp [recording.leading, full])]
      refine ⟨if poh.hashesPerTick ∣ poh.hashcnt + 1 then 1 else 0,
        recording.emit room positive (.microblock _ _ count) _ _ rfl ?_ ?_, by simp [room]⟩
      · simp only [Entry.numHashes, PohService.hashcntSinceLastEntry, recording.slot, if_true]
      · simp [Entry.isTick]

theorem Recording.run (calls : List PohCall) :
    ∃ taken, Recording sha256 hashesPerTick ticksPerSlot start (missed + taken) (PohCall.run sha256 poh calls).1
        (records ++ (PohCall.run sha256 poh calls).2) ∧ (taken = 0 ↔ KeepsTicks sha256 poh calls) := by
  induction calls generalizing poh records missed with
  | nil => exact ⟨0, by simpa [PohCall.run] using recording, by simp [KeepsTicks]⟩
  | cons call rest ih =>
      obtain ⟨taken, applied, meets⟩ := recording.apply positive call
      obtain ⟨more, ran, keeps⟩ := ih applied
      refine ⟨taken + more, ?_, ?_⟩
      · rw [PohCall.run, ← add_assoc, ← append_assoc]
        exact ran
      · rw [KeepsTicks, Nat.add_eq_zero_iff, meets, keeps]

end

/-- A leader slot is a well-formed sequence exactly when no microblock is mixed
in where a tick is due. -/
theorem leaderSlot_wellFormed_iff (sha256 : List UInt8 → Hash) (poh : PohService) (completedSlot : Nat)
    (blockhash : Hash) (nextLeaderSlot : Nat) (calls : List PohCall) (ticks : 1 ≤ poh.ticksPerSlot)
    (hashes : 2 ≤ poh.hashesPerTick) : WellFormedSlot sha256 poh blockhash
        (leaderSlot sha256 (poh.lead completedSlot blockhash nextLeaderSlot) calls).1
        (leaderSlot sha256 (poh.lead completedSlot blockhash nextLeaderSlot) calls).2 ↔
      KeepsTicks sha256 (poh.lead completedSlot blockhash nextLeaderSlot) calls := by
  have positive : 0 < poh.hashesPerTick := by omega
  have started : Recording sha256 poh.hashesPerTick poh.ticksPerSlot blockhash 0
      (poh.lead completedSlot blockhash nextLeaderSlot) [] := by
    rw [PohService.lead, PohService.setLeaderBank, PohService.updateHashesPerTick_self positive]
    · exact ⟨if_pos le_rfl, rfl, rfl, rfl, Nat.zero_le _, le_rfl, fun _ => rfl, trivial, rfl, rfl, (Nat.zero_div _).symm,
        fun _ => ⟨forall_mem_nil _, by simp [tickIntervals, PohService.reset]⟩⟩
    · rfl
  obtain ⟨taken, ran, keeps⟩ := started.run positive calls
  rw [zero_add, nil_append] at ran
  simp only [leaderSlot, PohService.finishSlot, ran.hashcntPerSlot_eq, ← keeps]
  generalize PohCall.run sha256 _ calls = outcome at ran ⊢
  obtain ⟨finished, filled⟩ := ran.advance positive (poh.hashesPerTick * poh.ticksPerSlot - outcome.1.hashcnt)
  have full := filled (by omega)
  have recorded := finished.recorded (Dvd.intro _ full.symm)
  have counted := finished.ticks
  have total := finished.hashes.trans (recorded.trans full)
  rw [full, Nat.mul_div_cancel_left _ positive] at counted
  constructor
  · intro wellFormed
    have := wellFormed.ticks
    omega
  · intro none
    obtain ⟨lengths, closed⟩ := finished.intervals none
    rw [recorded, full, Nat.mul_div_cancel_left _ positive] at closed
    refine ⟨by simpa [none] using counted, total, finished.chained, ?_, ?_⟩
    · exact forall_mem_cons.mpr ⟨by omega, lengths⟩
    · have reached := finished.hash
      rw [recorded, Nat.sub_self, Function.iterate_zero, id, tip] at reached
      rw [reached]
      cases found : getLast? _ with
      | none =>
          have long := mul_pos positive ticks
          rw [getLast?_eq_none_iff.mp found, map_nil, sum_nil] at total
          omega
      | some record => rfl

def zeroHash : Hash := .filled 32 0

def twoHashes : PohService :=
  { state := .idling, hash := zeroHash, slot := 0, hashcnt := 0, lastEntryHashcnt := 0, lastEntrySlot := 0,
    microblocksInSlot := 0, slotDone := false, haveLeaderBank := false, resetSlot := 0, nextLeaderSlot := 0,
    hashesPerTick := 2, ticksPerSlot := 1, maxMicroblocksPerSlot := 1, skippedTickHashes := [], resetStartNs := 0 }

theorem leaderSlot_wellFormed_first : WellFormedSlot (fun _ => zeroHash) twoHashes zeroHash
      (leaderSlot (fun _ => zeroHash) (twoHashes.lead 0 zeroHash 1) [.mixin zeroHash 1]).1
      (leaderSlot (fun _ => zeroHash) (twoHashes.lead 0 zeroHash 1) [.mixin zeroHash 1]).2 :=
  (leaderSlot_wellFormed_iff (fun _ => zeroHash) twoHashes 0 zeroHash 1 [.mixin zeroHash 1] le_rfl le_rfl).mpr
    ⟨fun meets => absurd meets.2 (by decide), trivial⟩

/-- A microblock in the second hash of the slot leaves it without a tick. -/
theorem leaderSlot_without_tick : ¬ WellFormedSlot (fun _ => zeroHash) twoHashes zeroHash
      (leaderSlot (fun _ => zeroHash) (twoHashes.lead 0 zeroHash 1) [.advance 1, .mixin zeroHash 1]).1
      (leaderSlot (fun _ => zeroHash) (twoHashes.lead 0 zeroHash 1) [.advance 1, .mixin zeroHash 1]).2 :=
  fun wellFormed => absurd wellFormed.ticks (by decide)

end Karstflow.Stages
