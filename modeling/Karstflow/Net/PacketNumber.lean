import Karstflow.Data.Bytes

namespace Karstflow.Net

open Data List

/-! QUIC packet numbers, cut short by the sender and recovered by the receiver. -/

def encodingLength (pn largestAcked : Nat) : Nat :=
  let numUnacked := pn - largestAcked
  if numUnacked < 2 ^ 7 then 1 else if numUnacked < 2 ^ 15 then 2 else if numUnacked < 2 ^ 23 then 3 else 4

def truncate (pn len : Nat) : Nat := (pn &&& 2 ^ (len * 8) - 1) % 2 ^ 32

/-- Every arm of the source's match reads the bytes highest first. -/
def decodePktNum (buf : List UInt8) (offset len : Nat) : Option Nat :=
  if buf.length < offset + len then none
  else if 1 ≤ len ∧ len ≤ 4 then some (leValue (buf.extract offset (offset + len)).reverse)
  else none

/-- The buffer after the write, and the size written. -/
def encodePktNum (buf : List UInt8) (offset value len : Nat) : Option (List UInt8 × Nat) :=
  if buf.length < offset + len then none
  else if 1 ≤ len ∧ len ≤ 4 then some (writeAt buf (leBytes len value).reverse offset, len)
  else none

def recoverPktNum (largestAcked truncated pnLen : Nat) : Nat :=
  let pnWin := 2 ^ (pnLen * 8)
  let pnHwin := pnWin / 2
  let expected := (largestAcked + 1) % 2 ^ 64
  -- `expected & !pn_mask` clears the low bits
  let candidatePn := pnWin * (expected / pnWin) ||| truncated
  if (candidatePn + pnHwin) % 2 ^ 64 ≤ expected ∧ candidatePn < 2 ^ 62 - pnWin then candidatePn + pnWin
  else if (expected + pnHwin) % 2 ^ 64 < candidatePn ∧ pnWin ≤ candidatePn then candidatePn - pnWin
  else candidatePn

theorem truncate_eq_mod (short : len ≤ 4) : truncate pn len = pn % 2 ^ (len * 8) := by
  have small : pn % 2 ^ (len * 8) < 2 ^ 32 :=
    (Nat.mod_lt _ (Nat.two_pow_pos _)).trans_le (Nat.pow_le_pow_right (by decide) (by omega))
  rw [truncate, Nat.and_two_pow_sub_one_eq_mod, Nat.mod_eq_of_lt small]

/-- The window of the encoding is more than twice as wide as the numbers in flight. -/
theorem encodingLength_spec (near : pn - largestAcked < 2 ^ 31) :
    1 ≤ encodingLength pn largestAcked ∧ encodingLength pn largestAcked ≤ 4 ∧
      pn - largestAcked < 2 ^ (encodingLength pn largestAcked * 8) / 2 := by
  rw [encodingLength]
  split_ifs <;> omega

theorem decodePktNum_encodePktNum (room : offset + len ≤ buf.length) (some : 1 ≤ len) (short : len ≤ 4)
    (fits : value < 256 ^ len) : ((encodePktNum buf offset value len).bind fun written =>
      decodePktNum written.1 offset len) = .some value := by
  obtain ⟨front, back, rfl, rfl⟩ : ∃ front back, buf = front ++ back ∧ front.length = offset :=
    ⟨buf.take offset, buf.drop offset, (take_append_drop offset buf).symm, length_take_of_le (by omega)⟩
  rw [length_append] at room
  have width : (leBytes len value).reverse.length = len := by rw [length_reverse, length_leBytes]
  have long : ¬ (front ++ (leBytes len value).reverse ++ back.drop len).length < front.length + len := by
    simp only [length_append, width]
    omega
  have there : (front ++ (leBytes len value).reverse ++ back.drop len).extract front.length (front.length + len) =
      (leBytes len value).reverse := by
    rw [append_assoc, extract_append_skip le_rfl, Nat.sub_self, Nat.add_sub_cancel_left, extract_append_front width]
  rw [encodePktNum, if_neg (by rw [length_append]; omega), if_pos ⟨some, short⟩, writeAt_append, width, Option.bind_some,
    decodePktNum, if_neg long, if_pos ⟨some, short⟩, there, reverse_reverse, leValue_leBytes, Nat.mod_eq_of_lt fits]

theorem recoverPktNum_eq (below : pn < 2 ^ 62) (older : largest < pn) (some : 1 ≤ len) (short : len ≤ 4)
    (near : pn - largest < 2 ^ (len * 8) / 2) : recoverPktNum largest (pn % 2 ^ (len * 8)) len = pn := by
  have joined := Nat.two_pow_add_eq_or_of_lt (Nat.mod_lt pn (Nat.two_pow_pos (len * 8))) ((largest + 1) % 2 ^ 64 / 2 ^ (len * 8))
  rw [recoverPktNum, ← joined]
  obtain rfl | rfl | rfl | rfl : len = 1 ∨ len = 2 ∨ len = 3 ∨ len = 4 := by omega
  all_goals
    split_ifs <;> omega

/-- What the sender writes, relative to the largest number it knows to be
acknowledged, gives any receiver between that one and the packet its number. -/
theorem packet_number_recovered (pn acked received offset : Nat) (buf : List UInt8) (below : pn < 2 ^ 62)
    (near : pn - acked < 2 ^ 31) (known : acked ≤ received) (older : received < pn)
    (room : offset + encodingLength pn acked ≤ buf.length) :
    ((encodePktNum buf offset (truncate pn (encodingLength pn acked)) (encodingLength pn acked)).bind fun written =>
      decodePktNum written.1 offset (encodingLength pn acked)).map
        (recoverPktNum received · (encodingLength pn acked)) = some pn := by
  obtain ⟨some, short, window⟩ := encodingLength_spec near
  have fits : truncate pn (encodingLength pn acked) < 256 ^ encodingLength pn acked := by
    rw [truncate_eq_mod short, mul_comm, pow_mul]
    exact Nat.mod_lt _ (Nat.pow_pos (by decide))
  rw [decodePktNum_encodePktNum room some short fits, Option.map_some, truncate_eq_mod short,
    recoverPktNum_eq below older some short (by omega)]

theorem second_window_recovered : ((encodePktNum [1, 2, 3, 4] 1 (truncate 70000 2) 2).bind fun written =>
      decodePktNum written.1 1 2).map (recoverPktNum 65535 · 2) = some 70000 :=
  packet_number_recovered 70000 65000 65535 1 [1, 2, 3, 4] (by decide) (by decide) (by decide) (by decide) (by decide)

end Karstflow.Net
