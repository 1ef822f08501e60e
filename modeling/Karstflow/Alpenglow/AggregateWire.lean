import Karstflow.Alpenglow.Cert
import Karstflow.Data.Bytes

namespace Karstflow.Alpenglow

open Data List
open Option hiding mem_map

/-! The wire form of aggregate signatures. -/

def sigSz : Nat := 192

def wordsForBits (nbits : Nat) : Nat := (nbits + 63) / 64

def serializedSz (nbits : Nat) : Nat := sigSz + 8 + 8 + 8 * wordsForBits nbits

/-- The signers, and the point into which their signatures are folded. -/
structure WireAggregate extends AggregateSignature where
  sig : Octets sigSz
deriving DecidableEq

namespace WireAggregate

def add (agg : WireAggregate) (signer : Nat) (sig : Octets sigSz) : Except Panic WireAggregate := do
  let signers ← agg.toAggregateSignature.add signer
  return ⟨signers, zipWith (· ^^^ ·) agg.sig.bytes sig.bytes, by simp⟩

def addAll (agg : WireAggregate) (entries : List (Octets sigSz × Nat)) : Except Panic WireAggregate :=
  entries.foldlM (fun agg entry => agg.add entry.2 entry.1) agg

def new (sigs : List (Octets sigSz)) (indices : List Nat) (nbits : Nat) : Except Panic WireAggregate := do
  assert (!sigs.isEmpty) .assertion
  assert (sigs.length = indices.length) .assertion
  let empty ← AggregateSignature.init nbits
  addAll ⟨empty, .filled sigSz 0⟩ (sigs.zip indices)

/-- The ones of every word of the mask, whatever the number of bits. -/
def signerCnt (agg : WireAggregate) : Nat := (range maxSigners).countP agg.bitmask.getLsbD

/-- What is written to a buffer of this size. The words of the mask, lowest
first and each in little-endian order, are its low bytes. -/
def serialize (agg : WireAggregate) (room : Nat) : Option (List UInt8) :=
  if room < serializedSz agg.nbits then none
  else some (agg.sig.bytes ++ (leBytes 8 agg.nbits ++ (leBytes 8 (wordsForBits agg.nbits) ++
    leBytes (8 * wordsForBits agg.nbits) agg.bitmask.toNat)))

def deserialize (input : List UInt8) : Option (WireAggregate × Nat) := do
  let (sig, rest) ← takeOctets sigSz input
  let (numBits, rest) ← takeWord 8 rest
  let (numWords, rest) ← takeWord 8 rest
  if wordsForBits maxSigners < numWords ∨ numWords * 64 < numBits then none
  else do
    let (words, _) ← takeBytes (8 * numWords) rest
    return ({ nbits := numBits, bitmask := .ofNat 2048 (leValue words), sig }, sigSz + 8 + 8 + 8 * numWords)

/-- Made by `new` and any number of `add`. -/
def Built (agg : WireAggregate) : Prop :=
  ∃ sigs indices nbits first entries, new sigs indices nbits = .ok first ∧ first.addAll entries = .ok agg

/-- No bit above the length, and no length above the mask. -/
def Tidy (agg : WireAggregate) : Prop :=
  agg.nbits ≤ maxSigners ∧ ∀ index, agg.nbits ≤ index → agg.bitmask.getLsbD index = false

variable {agg later : WireAggregate}

theorem Tidy.add {sig : Octets sigSz} (tidy : Tidy agg) (added : agg.add signer sig = .ok later) : Tidy later := by
  obtain ⟨signers, joined, done⟩ := bind_eq_ok.mp added
  obtain ⟨_, inside, joined⟩ := bind_eq_ok.mp joined
  obtain ⟨_, _, joined⟩ := bind_eq_ok.mp joined
  cases joined
  cases done
  have below : signer < agg.nbits := of_decide_eq_true (assert_eq_ok.mp inside)
  refine ⟨tidy.1, fun index above => ?_⟩
  simp only [BitVec.getLsbD_or, BitVec.getLsbD_twoPow, tidy.2 index above, Bool.false_or, Bool.and_eq_false_iff,
    decide_eq_false_iff_not]
  exact .inr fun same => not_lt.mpr above (same ▸ below)

theorem Tidy.addAll (tidy : Tidy agg) (ran : agg.addAll entries = .ok later) : Tidy later := by
  induction entries generalizing agg with
  | nil =>
      cases ran
      exact tidy
  | cons entry rest ih =>
      obtain ⟨next, added, ran⟩ := bind_eq_ok.mp ran
      exact ih (tidy.add added) ran

theorem Built.tidy (built : Built agg) : Tidy agg := by
  obtain ⟨sigs, indices, nbits, first, entries, started, ran⟩ := built
  obtain ⟨_, _, started⟩ := bind_eq_ok.mp started
  obtain ⟨_, _, started⟩ := bind_eq_ok.mp started
  obtain ⟨empty, opened, started⟩ := bind_eq_ok.mp started
  obtain ⟨_, bounded, opened⟩ := bind_eq_ok.mp opened
  cases opened
  have blank : Tidy ⟨⟨nbits, 0⟩, .filled sigSz 0⟩ :=
    ⟨of_decide_eq_true (assert_eq_ok.mp bounded), fun index _ => BitVec.getLsbD_zero⟩
  exact (blank.addAll started).addAll ran

theorem pow_words (words : Nat) : 256 ^ (8 * words) = 2 ^ (64 * words) := by
  rw [show 256 = 2 ^ 8 by rfl, ← pow_mul, ← mul_assoc, show 8 * 8 = 64 by rfl]

theorem toNat_ofNat_leValue (sized : length bytes = 8 * words) (fits : 64 * words ≤ width) :
    (BitVec.ofNat width (leValue bytes)).toNat = leValue bytes := by
  rw [BitVec.toNat_ofNat]
  apply Nat.mod_eq_of_lt
  refine (leValue_lt bytes).trans_le ?_
  rw [sized, pow_words]
  exact pow_le_pow_right₀ (by decide) fits

theorem Tidy.toNat_lt (tidy : Tidy agg) : agg.bitmask.toNat < 256 ^ (8 * wordsForBits agg.nbits) := by
  rw [pow_words]
  apply Nat.lt_pow_two_of_testBit
  intro index above
  exact tidy.2 index (by rw [wordsForBits] at above; omega)

theorem Tidy.deserialize_serialize (tidy : Tidy agg) (enough : serializedSz agg.nbits ≤ room) :
    (agg.serialize room).bind deserialize = some (agg, serializedSz agg.nbits) := by
  have bits : agg.nbits < 256 ^ 8 := tidy.1.trans_lt (by decide)
  have words : wordsForBits agg.nbits ≤ wordsForBits maxSigners := Nat.div_le_div_right (Nat.add_le_add_right tidy.1 63)
  have few : wordsForBits agg.nbits < 256 ^ 8 := words.trans_lt (by decide)
  have covered : ¬ (wordsForBits maxSigners < wordsForBits agg.nbits ∨ wordsForBits agg.nbits * 64 < agg.nbits) := by
    rw [not_or, not_lt, not_lt]
    exact ⟨words, by rw [wordsForBits]; omega⟩
  have taken := takeBytes_append (length_leBytes (8 * wordsForBits agg.nbits) agg.bitmask.toNat) []
  rw [append_nil] at taken
  rw [serialize, if_neg (not_lt.mpr enough), bind_some, deserialize]
  simp only [takeOctets_append, takeWord_append bits, takeWord_append few, if_neg covered, taken, bind_eq_bind,
    bind_some, leValue_leBytes, Nat.mod_eq_of_lt tidy.toNat_lt]
  simp [serializedSz]

theorem signerCnt_eq_iff (bounded : agg.nbits ≤ maxSigners) :
    agg.signerCnt = (range agg.nbits).countP agg.isSigner ↔ Tidy agg := by
  have low : (range agg.nbits).countP agg.bitmask.getLsbD = (range agg.nbits).countP agg.isSigner := by
    refine countP_congr fun index below => ?_
    simp [AggregateSignature.isSigner, mem_range.mp below]
  rw [signerCnt, ← Nat.add_sub_of_le bounded, range_add, countP_append, low, add_eq_left, countP_eq_zero]
  simp only [mem_map, mem_range, Tidy, bounded, true_and]
  constructor
  · intro clear index above
    by_cases inside : index < maxSigners
    · exact Bool.eq_false_iff.mpr (clear index ⟨index - agg.nbits, by omega, by omega⟩)
    · exact BitVec.getLsbD_of_ge _ _ (not_lt.mp inside)
  · rintro clear _ ⟨past, _, rfl⟩
    simp [clear _ (Nat.le_add_right _ past)]

theorem deserialize_spec (accepted : deserialize input = some (agg, n)) :
    ∃ numWords words, words.length = 8 * numWords ∧ numWords ≤ wordsForBits maxSigners ∧ agg.nbits ≤ numWords * 64 ∧
      agg.bitmask = .ofNat 2048 (leValue words) ∧ n = sigSz + 8 + 8 + 8 * numWords ∧
      input.take n = agg.sig.bytes ++ (leBytes 8 agg.nbits ++ (leBytes 8 numWords ++ words)) := by
  obtain ⟨⟨sig, _⟩, front, accepted⟩ := bind_eq_some_iff.mp accepted
  obtain ⟨⟨numBits, _⟩, bits, accepted⟩ := bind_eq_some_iff.mp accepted
  obtain ⟨⟨numWords, _⟩, count, accepted⟩ := bind_eq_some_iff.mp accepted
  rw [ite_none_left_eq_some, not_or, not_lt, not_lt] at accepted
  obtain ⟨⟨few, covered⟩, accepted⟩ := accepted
  obtain ⟨⟨words, _⟩, last, same⟩ := bind_eq_some_iff.mp accepted
  obtain ⟨sized, whole⟩ := takeBytes_split last
  cases same
  refine ⟨numWords, words, sized, few, covered, rfl, rfl, ?_⟩
  rw [takeOctets_split front, takeWord_split bits, takeWord_split count, whole]
  simp only [← append_assoc]
  refine take_left' ?_
  simp only [length_append, Octets.length_bytes, length_leBytes, sized]

/-- What is accepted is written back as it was, and its ones are the signers,
exactly if it has no more words than its bits need and no bit above them. -/
theorem aggregate_encoding_iff (input : List UInt8) (agg : WireAggregate) (n room : Nat) :
    (deserialize input = some (agg, n) →
      ((∀ room, serializedSz agg.nbits ≤ room → agg.serialize room = some (input.take n)) ∧
        agg.signerCnt = (range agg.nbits).countP agg.isSigner ↔ n = serializedSz agg.nbits ∧ Tidy agg)) ∧
    (Built agg → serializedSz agg.nbits ≤ room →
      (agg.serialize room).bind deserialize = some (agg, serializedSz agg.nbits)) := by
  refine ⟨fun accepted => ?_, fun built enough => built.tidy.deserialize_serialize enough⟩
  obtain ⟨numWords, words, sized, few, covered, mask, rfl, whole⟩ := deserialize_spec accepted
  have most : wordsForBits maxSigners = 32 := rfl
  have bounded : agg.nbits ≤ maxSigners := covered.trans (by rw [maxSigners]; omega)
  rw [signerCnt_eq_iff bounded, whole]
  refine and_congr_left fun tidy => ⟨fun same => ?_, fun same room enough => ?_⟩
  · have written := same _ le_rfl
    rw [serialize, if_neg (lt_irrefl _), Option.some.injEq] at written
    have sizes := congrArg length written
    simp only [length_append, Octets.length_bytes, length_leBytes, sized] at sizes
    rw [serializedSz]
    omega
  · have sameWords : wordsForBits agg.nbits = numWords := by
      rw [serializedSz] at same
      omega
    have exact_ := toNat_ofNat_leValue sized (show 64 * numWords ≤ 2048 by omega)
    rw [serialize, if_neg (not_lt.mpr enough), mask, sameWords, ← sized, exact_, leBytes_leValue]

/-- One word for no bits, with a one in it: a second encoding of an aggregate
without signers, which counts one. -/
theorem stray_bit_accepted :
    ∃ agg, deserialize (replicate sigSz 0 ++ (leBytes 8 0 ++ (leBytes 8 1 ++ leBytes 8 1))) = some (agg, 216) ∧
      agg.serialize 216 = some (replicate sigSz 0 ++ replicate 16 0) ∧
      agg.signerCnt = 1 ∧ (range agg.nbits).countP agg.isSigner = 0 := by
  refine ⟨⟨⟨0, 1⟩, .filled sigSz 0⟩, ?_, ?_, ?_, rfl⟩
  · decide +kernel
  · decide +kernel
  · decide +kernel

end WireAggregate

end Karstflow.Alpenglow
