import Karstflow.Runtime.Bank

namespace Karstflow.Runtime.EpochSchedule

open Data

/-! # Epochs as a partition of the slots -/

variable (schedule : EpochSchedule)

/-- `get_epoch`, which has its own copy of the branches. -/
def getEpochOnly (slot : Nat) : Nat :=
  if schedule.warmup = false ∨ schedule.firstNormalSlot ≤ slot then
    satAdd schedule.firstNormalEpoch ((slot - schedule.firstNormalSlot) / schedule.slotsPerEpoch)
  else schedule.epochSlow slot (slot + 1) 0 0

def getLastSlotInEpoch (epoch : Nat) : Nat := schedule.firstSlotInEpoch (satAdd epoch 1) - 1

/-- There is no warmup, or it ends where the first normal epoch begins. -/
structure Regular : Prop where
  positive : 1 ≤ schedule.slotsPerEpoch
  shape : schedule.warmup = false ∧ schedule.firstNormalEpoch = 0 ∧ schedule.firstNormalSlot = 0 ∨
    schedule.warmup = true ∧ schedule.firstNormalEpoch ≤ 63 ∧
      schedule.firstNormalSlot = ((List.range schedule.firstNormalEpoch).map fun epoch => 2 ^ epoch).sum

namespace Regular

variable {schedule} {epoch slot : Nat} (regular : schedule.Regular)
include regular

theorem boundary : schedule.firstNormalEpoch ≤ 63 ∧ schedule.firstNormalSlot ≤ u64Max ∧
    (List.range schedule.firstNormalEpoch).foldl (fun slot earlier => satAdd slot (schedule.slotsInEpoch earlier)) 0 =
      schedule.firstNormalSlot := by
  obtain ⟨_, epochs, slots⟩ | ⟨warm, short, slots⟩ := regular.shape
  · rw [epochs, slots]
    exact ⟨by decide, by decide, rfl⟩
  have doubling : ∀ count < 64, ((List.range count).map fun epoch => 2 ^ epoch).sum ≤ u64Max ∧
      (List.range count).foldl (fun slot epoch => satAdd slot (satPow 2 (min epoch 63))) 0 =
        ((List.range count).map fun epoch => 2 ^ epoch).sum := by
    decide +kernel
  obtain ⟨bounded, sum⟩ := doubling _ (Nat.lt_succ_of_le short)
  refine ⟨short, slots ▸ bounded, ?_⟩
  rw [slots, ← sum]
  apply List.foldl_ext
  intro slot epoch member
  rw [slotsInEpoch, if_neg (by simpa [warm] using member)]

theorem first_warmup (early : epoch ≤ schedule.firstNormalEpoch) : schedule.firstSlotInEpoch epoch =
    (List.range epoch).foldl (fun slot earlier => satAdd slot (schedule.slotsInEpoch earlier)) 0 := by
  obtain ⟨_, bounded, ends⟩ := regular.boundary
  rw [firstSlotInEpoch]
  split
  · rename_i normal
    have last : epoch = schedule.firstNormalEpoch := by
      obtain ⟨_, epochs, _⟩ | ⟨warm, _⟩ := regular.shape
      · omega
      · simp only [warm, Bool.true_eq_false, false_or] at normal
        omega
    rw [last, ends, Nat.sub_self, zero_mul, zero_min, satAdd, add_zero, min_eq_left bounded]
  · rfl

theorem first_zero : schedule.firstSlotInEpoch 0 = 0 := regular.first_warmup (Nat.zero_le _)

theorem first_succ : schedule.firstSlotInEpoch (epoch + 1) =
    satAdd (schedule.firstSlotInEpoch epoch) (schedule.slotsInEpoch epoch) := by
  by_cases late : schedule.firstNormalEpoch ≤ epoch
  · rw [firstSlotInEpoch, if_pos (.inr (by omega)), firstSlotInEpoch, if_pos (.inr late), slotsInEpoch,
      if_pos (.inr late), Nat.succ_sub late, Nat.succ_mul]
    simp only [satAdd]
    omega
  · rw [regular.first_warmup (by omega), regular.first_warmup (by omega), List.range_succ, List.foldl_append]
    rfl

theorem first_mono (ordered : epoch ≤ later) : schedule.firstSlotInEpoch epoch ≤ schedule.firstSlotInEpoch later := by
  refine monotone_nat_of_le_succ (fun epoch => ?_) ordered
  have bounded : schedule.firstSlotInEpoch epoch ≤ u64Max := by
    cases epoch with
    | zero =>
      rw [regular.first_zero]
      exact Nat.zero_le _
    | succ epoch =>
      rw [regular.first_succ]
      exact satAdd_le_max _ _
  rw [regular.first_succ, satAdd]
  omega

variable (small : slot < 2 ^ 63)
include small

theorem le_first (reached : schedule.firstSlotInEpoch epoch ≤ slot) : epoch ≤ schedule.firstSlotInEpoch epoch := by
  induction epoch with
  | zero => exact Nat.zero_le _
  | succ epoch ih =>
    have grows : 1 ≤ schedule.slotsInEpoch epoch := by
      rw [slotsInEpoch]
      split
      · exact regular.positive
      · exact Nat.le_min.mpr ⟨Nat.two_pow_pos _, by decide⟩
    rw [regular.first_succ, satAdd, u64Max] at reached ⊢
    omega

theorem epochSlow_spec (fuel : Nat) (reached : schedule.firstSlotInEpoch epoch ≤ slot) (enough : slot < epoch + fuel) :
    ∃ found, schedule.epochSlow slot fuel epoch (schedule.firstSlotInEpoch epoch) = found ∧
      schedule.firstSlotInEpoch found ≤ slot ∧ slot < schedule.firstSlotInEpoch (found + 1) := by
  have passed := regular.le_first small reached
  induction fuel generalizing epoch with
  | zero => omega
  | succ fuel ih =>
    rw [epochSlow, ← regular.first_succ]
    split
    · rename_i further
      rw [satAdd_eq_add (by rw [u64Max]; omega)]
      exact ih further (by omega) (regular.le_first small further)
    · rename_i here
      exact ⟨epoch, rfl, reached, Nat.lt_of_not_le here⟩

theorem located : ∃ epoch, schedule.getEpochAndSlotIndex slot = (epoch, slot - schedule.firstSlotInEpoch epoch) ∧
    schedule.getEpochOnly slot = epoch ∧ schedule.firstSlotInEpoch epoch ≤ slot ∧
    slot < schedule.firstSlotInEpoch (epoch + 1) := by
  by_cases normal : schedule.warmup = false ∨ schedule.firstNormalSlot ≤ slot
  · have after : schedule.firstNormalSlot ≤ slot := by
      obtain ⟨_, _, slots⟩ | ⟨warm, _⟩ := regular.shape
      · omega
      · simpa [warm] using normal
    have short := regular.boundary.1
    have divided := Nat.div_add_mod' (slot - schedule.firstNormalSlot) schedule.slotsPerEpoch
    have rest := Nat.mod_lt (slot - schedule.firstNormalSlot) regular.positive
    have few := Nat.div_le_self (slot - schedule.firstNormalSlot) schedule.slotsPerEpoch
    rw [getEpochAndSlotIndex, if_pos normal, getEpochOnly, if_pos normal]
    dsimp only
    generalize (slot - schedule.firstNormalSlot) / schedule.slotsPerEpoch = passed at divided few ⊢
    have normalEpoch : schedule.firstNormalEpoch ≤ schedule.firstNormalEpoch + passed := Nat.le_add_right _ _
    have first : schedule.firstSlotInEpoch (schedule.firstNormalEpoch + passed) =
        schedule.firstNormalSlot + passed * schedule.slotsPerEpoch := by
      rw [firstSlotInEpoch, if_pos (.inr normalEpoch), Nat.add_sub_cancel_left, satAdd, u64Max]
      omega
    rw [satAdd_eq_add (by rw [u64Max]; omega)]
    refine ⟨_, Prod.ext rfl ?_, rfl, ?_, ?_⟩
    · omega
    · omega
    · rw [regular.first_succ, slotsInEpoch, if_pos (.inr normalEpoch), first, satAdd, u64Max]
      omega
  · have start := @epochSlow_spec schedule 0 slot regular small (slot + 1)
    rw [regular.first_zero] at start
    obtain ⟨epoch, found, inside⟩ := start (Nat.zero_le _) (by omega)
    refine ⟨epoch, ?_, ?_, inside⟩
    · rw [getEpochAndSlotIndex, if_neg normal, found]
    · rw [getEpochOnly, if_neg normal, found]

end Regular

/-- Every slot is at its place in one epoch, and the epochs follow each other
without gap or overlap. -/
theorem epochs_partition (regular : schedule.Regular) (slot : Nat) (small : slot < 2 ^ 63) :
    ∃ epoch index, schedule.getEpochAndSlotIndex slot = (epoch, index) ∧
      schedule.firstSlotInEpoch epoch + index = slot ∧ index < schedule.slotsInEpoch epoch ∧
      schedule.getEpochOnly slot = epoch ∧
      schedule.getLastSlotInEpoch epoch + 1 = schedule.firstSlotInEpoch (epoch + 1) ∧
      ∀ later, slot ≤ later → later < 2 ^ 63 → epoch ≤ schedule.getEpochOnly later := by
  obtain ⟨epoch, both, only, reached, inside⟩ := regular.located small
  have low := regular.le_first small reached
  refine ⟨epoch, _, both, by omega, ?_, only, ?_, fun later ordered laterSmall => ?_⟩
  · rw [regular.first_succ, satAdd] at inside
    omega
  · rw [getLastSlotInEpoch, satAdd_eq_add (by rw [u64Max]; omega)]
    omega
  · obtain ⟨laterEpoch, _, rfl, _, laterInside⟩ := regular.located laterSmall
    by_contra before
    have earlier := regular.first_mono (by omega : schedule.getEpochOnly later + 1 ≤ epoch)
    omega

/-- Three warmup epochs and a slot in the second normal one. -/
theorem warmupSchedule_partition : ∃ epoch index,
    EpochSchedule.getEpochAndSlotIndex ⟨32, 32, true, 3, 7⟩ 40 = (epoch, index) ∧ epoch = 4 ∧ index = 1 := by
  have regular : Regular ⟨32, 32, true, 3, 7⟩ := ⟨by decide, .inr (by decide)⟩
  obtain ⟨epoch, index, located, _⟩ := epochs_partition _ regular 40 (by decide)
  exact ⟨epoch, index, located, by cases located; decide, by cases located; decide⟩

end Karstflow.Runtime.EpochSchedule
