import Karstflow.Alpenglow.Vote
import Karstflow.Data.Quorum
import Mathlib.Logic.Relation

namespace Karstflow.Alpenglow

open Data Committee.Reaches List

/-! # Agreement of the protocol

The protocol as a log of the votes that correct validators cast, in the order
in which they cast them. A certificate is a fact about the log: the correct
validators among its signers have cast their votes, and faulty ones may have
signed everything. A vote is lawful if the facts that its rule asks for hold in
the log before it.

The main result is that no certified block leaves the chain of a finalized
block in an earlier slot.
-/

namespace Protocol

/-- `ancestor` is reached through parents in earlier slots. -/
def Descends (parentOf : BlockId → BlockId) : BlockId → BlockId → Prop :=
  Relation.ReflTransGen fun child parent => parentOf child = parent ∧ parent.slot < child.slot

/-- The chain of `block` has no block in `slot`, but blocks on both sides. -/
def PassesOver (parentOf : BlockId → BlockId) (block : BlockId) (slot : Nat) : Prop :=
  ∃ child, Descends parentOf block child ∧ (parentOf child).slot < slot ∧ slot < child.slot

namespace Descends

theorem slot_le (descends : Descends parentOf block ancestor) : ancestor.slot ≤ block.slot := by
  induction descends with
  | refl => exact le_refl _
  | tail _ step ih => exact le_trans (le_of_lt step.2) ih

theorem trans (first : Descends parentOf block other) (rest : Descends parentOf other ancestor) :
    Descends parentOf block ancestor :=
  Relation.ReflTransGen.trans first rest

theorem parent (below : (parentOf block).slot < block.slot) : Descends parentOf block (parentOf block) :=
  .single ⟨rfl, below⟩

section

variable (descends : Descends parentOf block ancestor)

include descends

theorem eq_of_slot (same : ancestor.slot = block.slot) : ancestor = block := by
  cases descends with
  | refl => rfl
  | tail first step =>
    have above := slot_le first
    omega

theorem linear (line : Descends parentOf block other)
    (below : ancestor.slot ≤ other.slot) : Descends parentOf other ancestor := by
  have unique : Relator.RightUnique fun child parent : BlockId => parentOf child = parent ∧ parent.slot < child.slot :=
    fun _ _ _ first second => first.1.symm.trans second.1
  obtain upward | downward := Relation.ReflTransGen.total_of_right_unique unique descends line
  · have same := slot_le upward
    rw [eq_of_slot upward (by omega)]
    exact .refl
  · exact downward

theorem not_passesOver : ¬ PassesOver parentOf block ancestor.slot := by
  rintro ⟨child, reached, below, above⟩
  have line := descends.linear reached (le_of_lt above)
  obtain same | ⟨next, ⟨rfl, _⟩, rest⟩ := Relation.ReflTransGen.cases_head line
  · rw [same] at above
    exact lt_irrefl _ above
  · have under := slot_le rest
    omega

end

end Descends

section Certificates

variable (committee : Committee Nat) (parentOf : BlockId → BlockId) (log : List Vote)

def Notarized (block : BlockId) : Prop :=
  committee.Reaches 3 fun id => .newNotar block.slot block.hash id ∈ log

def FallbackCertified (block : BlockId) : Prop :=
  committee.Reaches 3 fun id =>
    .newNotar block.slot block.hash id ∈ log ∨ .newNotarFallback block.slot block.hash id ∈ log

def Skipped (slot : Nat) : Prop :=
  committee.Reaches 3 fun id => .newSkip slot id ∈ log ∨ .newSkipFallback slot id ∈ log

def FastFinalized (block : BlockId) : Prop :=
  committee.Reaches 4 fun id => .newNotar block.slot block.hash id ∈ log

def FinalVoted (slot : Nat) : Prop := committee.Reaches 3 fun id => .newFinal slot id ∈ log

/-- Genesis is final from the start. -/
def Finalized (block : BlockId) : Prop :=
  block = .genesis 0 ∨ FastFinalized committee log block ∨
    FinalVoted committee log block.slot ∧ Notarized committee log block

/-- On the chain of a finalized block. -/
def Settled (block : BlockId) : Prop :=
  ∃ final, Finalized committee log final ∧ Descends parentOf final block

def PassedOver (slot : Nat) : Prop :=
  ∃ final, Finalized committee log final ∧ PassesOver parentOf final slot

/-- The votes that make a fallback vote for the block safe. -/
def Supported (block : BlockId) : Prop :=
  committee.Reaches 1 (fun id => .newNotar block.slot block.hash id ∈ log) ∧
    (committee.Reaches 2 (fun id => .newNotar block.slot block.hash id ∈ log) ∨
      committee.Reaches 3 fun id => .newNotar block.slot block.hash id ∈ log ∨ .newSkip block.slot id ∈ log)

/-- Whatever block has the most votes, many have voted otherwise. -/
def Split (slot : Nat) : Prop :=
  ∀ hash, committee.Reaches 2 fun id =>
    .newSkip slot id ∈ log ∨ ∃ other, other ≠ hash ∧ .newNotar slot other id ∈ log

/-- A block that may be built on. -/
def Usable (block : BlockId) : Prop :=
  FallbackCertified committee log block ∨ Settled committee parentOf log block

/-- A slot that may be left out. -/
def Bypassed (slot : Nat) : Prop :=
  Skipped committee log slot ∨ PassedOver committee parentOf log slot

/-- A parent for the first block of a window that starts with `slot`. -/
def Ready (slot : Nat) (block : BlockId) : Prop :=
  block.slot < slot ∧ Usable committee parentOf log block ∧
    ∀ between, block.slot < between → between < slot → Bypassed committee parentOf log between

/-- The rule for a vote that is cast after the votes of the log. -/
def Justified : Vote → Prop
  | .notar vote =>
    0 < vote.slot ∧
      if isStartOfWindow vote.slot then
        Ready committee parentOf log vote.slot (parentOf ⟨vote.slot, vote.blockHash⟩)
      else
        (parentOf ⟨vote.slot, vote.blockHash⟩).slot + 1 = vote.slot ∧
          (parentOf ⟨vote.slot, vote.blockHash⟩ = .genesis 0 ∨
            .newNotar (parentOf ⟨vote.slot, vote.blockHash⟩).slot (parentOf ⟨vote.slot, vote.blockHash⟩).hash
              vote.signer ∈ log)
  | .notarFallback vote =>
    Supported committee log ⟨vote.slot, vote.blockHash⟩ ∧
      FallbackCertified committee log (parentOf ⟨vote.slot, vote.blockHash⟩)
  | .skip _ => True
  | .skipFallback vote => Split committee log vote.slot
  | .final vote =>
    vote.slot = 0 ∨
      ∃ hash, .newNotar vote.slot hash vote.signer ∈ log ∧ Notarized committee log ⟨vote.slot, hash⟩

/-- A vote against the block that the validator may have notarized. -/
def Dissents (slot id : Nat) : Prop :=
  .newSkip slot id ∈ log ∨ .newSkipFallback slot id ∈ log ∨ ∃ hash, .newNotarFallback slot hash id ∈ log

/-- Every correct validator follows the rules. -/
structure Lawful : Prop where
  justified : ∀ earlier vote later, log = earlier ++ vote :: later → committee.correct vote.signer →
    Justified committee parentOf earlier vote
  notarOnce : ∀ {id slot hash hash'}, committee.correct id → .newNotar slot hash id ∈ log →
    .newNotar slot hash' id ∈ log → hash = hash'
  notarOrSkip : ∀ {id slot hash}, committee.correct id → .newNotar slot hash id ∈ log → .newSkip slot id ∉ log
  finalAlone : ∀ {id slot}, committee.correct id → .newFinal slot id ∈ log → ¬ Dissents log slot id

end Certificates

variable {log : List Vote}

section Growth

variable (grows : log ⊆ log')
include grows

theorem Notarized.mono (notarized : Notarized committee log block) : Notarized committee log' block :=
  Committee.Reaches.mono notarized fun _ _ _ cast => grows cast

theorem FallbackCertified.mono (certified : FallbackCertified committee log block) :
    FallbackCertified committee log' block :=
  Committee.Reaches.mono certified fun _ _ _ cast => cast.imp (@grows _) (@grows _)

theorem Skipped.mono (skipped : Skipped committee log slot) : Skipped committee log' slot :=
  Committee.Reaches.mono skipped fun _ _ _ cast => cast.imp (@grows _) (@grows _)

theorem FastFinalized.mono (finalized : FastFinalized committee log block) : FastFinalized committee log' block :=
  Committee.Reaches.mono finalized fun _ _ _ cast => grows cast

theorem FinalVoted.mono (voted : FinalVoted committee log slot) : FinalVoted committee log' slot :=
  Committee.Reaches.mono voted fun _ _ _ cast => grows cast

theorem Finalized.mono (finalized : Finalized committee log block) : Finalized committee log' block := by
  obtain genesis | fast | ⟨final, notarized⟩ := finalized
  · exact .inl genesis
  · exact .inr (.inl (fast.mono grows))
  · exact .inr (.inr ⟨final.mono grows, notarized.mono grows⟩)

theorem Settled.mono (settled : Settled committee parentOf log block) : Settled committee parentOf log' block := by
  obtain ⟨final, finalized, descends⟩ := settled
  exact ⟨final, finalized.mono grows, descends⟩

theorem PassedOver.mono (passed : PassedOver committee parentOf log slot) :
    PassedOver committee parentOf log' slot := by
  obtain ⟨final, finalized, across⟩ := passed
  exact ⟨final, finalized.mono grows, across⟩

theorem Supported.mono (supported : Supported committee log block) : Supported committee log' block := by
  refine ⟨supported.1.mono fun _ _ _ cast => grows cast, supported.2.imp ?_ ?_⟩
  · exact fun weak => weak.mono fun _ _ _ cast => grows cast
  · exact fun both => both.mono fun _ _ _ cast => cast.imp (@grows _) (@grows _)

theorem Split.mono (split : Split committee log slot) : Split committee log' slot := by
  intro hash
  refine (split hash).mono fun _ _ _ cast => cast.imp (@grows _) ?_
  rintro ⟨other, different, cast⟩
  exact ⟨other, different, grows cast⟩

theorem Usable.mono (usable : Usable committee parentOf log block) : Usable committee parentOf log' block :=
  usable.imp (.mono grows) (.mono grows)

theorem Bypassed.mono (bypassed : Bypassed committee parentOf log slot) : Bypassed committee parentOf log' slot :=
  bypassed.imp (.mono grows) (.mono grows)

theorem Dissents.mono {id : Nat} (dissents : Dissents log slot id) : Dissents log' slot id := by
  obtain skip | skipFallback | ⟨hash, fallback⟩ := dissents
  · exact .inl (grows skip)
  · exact .inr (.inl (grows skipFallback))
  · exact .inr (.inr ⟨hash, grows fallback⟩)

theorem Ready.mono (ready : Ready committee parentOf log slot block) : Ready committee parentOf log' slot block :=
  ⟨ready.1, ready.2.1.mono grows, fun between above below => (ready.2.2 between above below).mono grows⟩

end Growth

theorem Ready.past (ready : Ready committee parentOf log slot block)
    (bypassed : Bypassed committee parentOf log slot) : Ready committee parentOf log (slot + 1) block := by
  refine ⟨Nat.lt_succ_of_lt ready.1, ready.2.1, ?_⟩
  intro between above below
  obtain before | rfl := Nat.lt_succ_iff_lt_or_eq.mp below
  · exact ready.2.2 between above before
  · exact bypassed

theorem Usable.ready (usable : Usable committee parentOf log block) :
    Ready committee parentOf log (block.slot + 1) block :=
  ⟨Nat.lt_succ_self _, usable, fun _ above below => absurd below (not_lt.mpr above)⟩

theorem Notarized.fallbackCertified (notarized : Notarized committee log block) :
    FallbackCertified committee log block :=
  Committee.Reaches.mono notarized fun _ _ _ => .inl

theorem Finalized.notarized (finalized : Finalized committee log block) :
    block = .genesis 0 ∨ Notarized committee log block := by
  obtain genesis | fast | ⟨_, notarized⟩ := finalized
  · exact .inl genesis
  · exact .inr (fewer fast (by decide))
  · exact .inr notarized

namespace Lawful

variable (lawful : Lawful committee parentOf log)
include lawful

theorem of_mem (cast : vote ∈ log) (correct : committee.correct vote.signer) :
    ∃ earlier, earlier ⊆ log ∧ Justified committee parentOf earlier vote := by
  obtain ⟨earlier, later, rfl⟩ := append_of_mem cast
  exact ⟨earlier, subset_append_left _ _, lawful.justified earlier vote later rfl correct⟩

theorem take (inside : earlier <+: log) : Lawful committee parentOf earlier := by
  have part := inside.subset
  obtain ⟨rest, rfl⟩ := inside
  refine ⟨?_, ?_, ?_, ?_⟩
  · intro before vote later split
    refine lawful.justified before vote (later ++ rest) ?_
    rw [split, append_assoc]
    rfl
  · exact fun correct cast other => lawful.notarOnce correct (part cast) (part other)
  · exact fun correct cast skipped => lawful.notarOrSkip correct (part cast) (part skipped)
  · exact fun correct cast dissents => lawful.finalAlone correct (part cast) (dissents.mono part)

theorem notarized_unique (first : Notarized committee log block)
    (second : Notarized committee log other) (same : block.slot = other.slot) : block.hash = other.hash := by
  obtain ⟨id, _, correct, cast, cast'⟩ := overlap first second (by decide)
  rw [same] at cast
  exact lawful.notarOnce correct cast cast'

theorem exists_notar (certified : FallbackCertified committee log block) :
    ∃ id, committee.correct id ∧ .newNotar block.slot block.hash id ∈ log := by
  rcases (fewer certified (by decide : 1 ≤ 3)).exists_correct with
    ⟨id, _, correct, notar | fallback⟩
  · exact ⟨id, correct, notar⟩
  · obtain ⟨earlier, part, ⟨support, _⟩, _⟩ := lawful.of_mem fallback correct
    obtain ⟨voter, _, correct, notar⟩ := support.exists_correct
    exact ⟨voter, correct, part notar⟩

theorem slot_pos (certified : FallbackCertified committee log block) : 0 < block.slot := by
  obtain ⟨id, correct, cast⟩ := lawful.exists_notar certified
  obtain ⟨_, _, positive, _⟩ := lawful.of_mem cast correct
  exact positive

theorem eq_genesis (finalized : Finalized committee log block) (first : block.slot = 0) : block = .genesis 0 := by
  obtain genesis | notarized := finalized.notarized
  · exact genesis
  · exact absurd first (ne_of_gt (lawful.slot_pos notarized.fallbackCertified))

theorem notar_of_final (notarized : Notarized committee log block) {id : Nat} (correct : committee.correct id)
    (cast : .newFinal block.slot id ∈ log) : .newNotar block.slot block.hash id ∈ log := by
  have positive := lawful.slot_pos notarized.fallbackCertified
  obtain ⟨earlier, part, first | ⟨hash, voted, seen⟩⟩ := lawful.of_mem cast correct
  · exact absurd first (ne_of_gt positive)
  · have same : hash = block.hash := lawful.notarized_unique (seen.mono part) notarized rfl
    rw [← same]
    exact part voted

theorem not_skipped (finalized : Finalized committee log block) (later : 0 < block.slot) :
    ¬ Skipped committee log block.slot := by
  intro skipped
  obtain rfl | fast | ⟨final, notarized⟩ := finalized
  · exact lt_irrefl 0 later
  · obtain ⟨id, _, correct, notar, skip | fallback⟩ := overlap fast skipped (by decide)
    · exact lawful.notarOrSkip correct notar skip
    -- the votes that make a skip-fallback vote safe are missing
    obtain ⟨earlier, part, split⟩ := lawful.of_mem fallback correct
    rcases overlap fast (split block.hash) (by decide) with
      ⟨voter, _, correct, notar, skip | ⟨other, different, notar'⟩⟩
    · exact lawful.notarOrSkip correct notar (part skip)
    · exact different (lawful.notarOnce correct (part notar') notar)
  · obtain ⟨id, _, correct, cast, skip | fallback⟩ := overlap final skipped (by decide)
    · exact lawful.finalAlone correct cast (.inl skip)
    · exact lawful.finalAlone correct cast (.inr (.inl fallback))

theorem certified_unique {hash : BlockHash} (finalized : Finalized committee log block)
    (certified : FallbackCertified committee log ⟨block.slot, hash⟩) : hash = block.hash := by
  obtain rfl | fast | ⟨final, notarized⟩ := finalized
  · exact absurd (lawful.slot_pos certified) (lt_irrefl 0)
  · obtain ⟨id, _, correct, notar, notar' | fallback⟩ := overlap fast certified (by decide)
    · exact lawful.notarOnce correct notar' notar
    obtain ⟨earlier, part, ⟨_, weak | both⟩, _⟩ := lawful.of_mem fallback correct
    · obtain ⟨voter, _, correct, notar, notar'⟩ := overlap fast weak (by decide)
      exact lawful.notarOnce correct (part notar') notar
    · obtain ⟨voter, _, correct, notar, notar' | skip⟩ := overlap fast both (by decide)
      · exact lawful.notarOnce correct (part notar') notar
      · exact absurd (part skip) (lawful.notarOrSkip correct notar)
  · obtain ⟨id, _, correct, cast, notar | fallback⟩ := overlap final certified (by decide)
    · exact lawful.notarOnce correct notar (lawful.notar_of_final notarized correct cast)
    · exact absurd (.inr (.inr ⟨hash, fallback⟩)) (lawful.finalAlone correct cast)

theorem parent_certified (certified : FallbackCertified committee log block)
    (inside : isStartOfWindow block.slot = false) : (parentOf block).slot + 1 = block.slot ∧
      (parentOf block = .genesis 0 ∨ FallbackCertified committee log (parentOf block)) := by
  have step : ∀ {id : Nat}, committee.correct id → .newNotar block.slot block.hash id ∈ log →
      (parentOf block).slot + 1 = block.slot ∧ (parentOf block = .genesis 0 ∨
        .newNotar (parentOf block).slot (parentOf block).hash id ∈ log) := by
    intro id correct cast
    obtain ⟨earlier, part, _, rule⟩ := lawful.of_mem cast correct
    simp only [inside, Bool.false_eq_true, if_false] at rule
    exact ⟨rule.1, rule.2.imp_right (@part _)⟩
  obtain ⟨voter, correctVoter, voted⟩ := lawful.exists_notar certified
  refine ⟨(step correctVoter voted).1, or_iff_not_imp_left.mpr fun later => ?_⟩
  by_cases fallback : ∃ id, committee.correct id ∧ .newNotarFallback block.slot block.hash id ∈ log
  · obtain ⟨id, correct, cast⟩ := fallback
    obtain ⟨earlier, part, _, parent⟩ := lawful.of_mem cast correct
    exact .mono part parent
  -- all of them have notarized the parent too
  refine mono certified fun id _ correct cast => .inl ?_
  obtain notar | cast := cast
  · exact (step correct notar).2.resolve_left later
  · exact absurd ⟨id, correct, cast⟩ fallback

theorem descends_in_window (finalized : Finalized committee log final)
    (certified : FallbackCertified committee log block) (above : final.slot ≤ block.slot)
    (window : firstSlotInWindow block.slot ≤ final.slot) : Descends parentOf block final := by
  -- the induction is on the distance of the two slots
  obtain ⟨distance, apart⟩ : ∃ distance, block.slot = final.slot + distance := ⟨block.slot - final.slot, by omega⟩
  induction distance generalizing block with
  | zero =>
    have same : block.slot = final.slot := apart
    have certified : FallbackCertified committee log ⟨final.slot, block.hash⟩ := same ▸ certified
    have hashes := lawful.certified_unique finalized certified
    have equal : block = final := by
      cases block
      simp_all
    rw [equal]
    exact .refl
  | succ distance ih =>
    have inside : isStartOfWindow block.slot = false := by
      apply Bool.eq_false_iff.mpr
      exact not_isStartOfWindow (lt_of_le_of_lt window (by omega)) (le_refl _)
    obtain ⟨before, parent⟩ := lawful.parent_certified certified inside
    have below : (parentOf block).slot < block.slot := by omega
    refine (Descends.parent below).trans ?_
    have sameWindow : firstSlotInWindow (parentOf block).slot ≤ final.slot := by
      simp only [firstSlotInWindow, slotsPerWindow] at window ⊢
      omega
    obtain genesis | parent := parent
    · -- only genesis can be final in its slot
      obtain rfl | notarized := finalized.notarized
      · rw [genesis]
        exact .refl
      · have positive := lawful.slot_pos notarized.fallbackCertified
        have zero : (parentOf block).slot = 0 := by rw [genesis]; rfl
        omega
    · exact ih parent (by omega) sameWindow (by omega)

/-- A correct validator that notarizes a block has notarized its chain down to
the start of the window. -/
theorem notar_window_start {id : Nat} (correct : committee.correct id)
    (cast : .newNotar block.slot block.hash id ∈ log) (later : 0 < firstSlotInWindow block.slot) :
    ∃ hash, .newNotar (firstSlotInWindow block.slot) hash id ∈ log ∧
      Descends parentOf block ⟨firstSlotInWindow block.slot, hash⟩ := by
  have low := firstSlotInWindow_le block.slot
  obtain ⟨distance, apart⟩ : ∃ distance, block.slot = firstSlotInWindow block.slot + distance :=
    ⟨block.slot - firstSlotInWindow block.slot, by omega⟩
  induction distance generalizing block with
  | zero =>
    have same : block.slot = firstSlotInWindow block.slot := apart
    refine ⟨block.hash, same ▸ cast, ?_⟩
    rw [← same]
    exact .refl
  | succ distance ih =>
    have inside : isStartOfWindow block.slot = false := by
      apply Bool.eq_false_iff.mpr
      exact not_isStartOfWindow (show firstSlotInWindow block.slot < block.slot by omega) (le_refl _)
    obtain ⟨earlier, part, _, rule⟩ := lawful.of_mem cast correct
    simp only [inside, Bool.false_eq_true, if_false] at rule
    have before : (parentOf block).slot + 1 = block.slot := rule.1
    have sameWindow : firstSlotInWindow (parentOf block).slot = firstSlotInWindow block.slot := by
      simp only [firstSlotInWindow, slotsPerWindow] at apart ⊢
      omega
    obtain first | voted := rule.2
    · have first : (parentOf block).slot = 0 := congrArg BlockId.slot first
      omega
    have window := sameWindow
    obtain ⟨hash, start, descends⟩ := @ih (parentOf block) (part voted) (by omega) (firstSlotInWindow_le _) (by omega)
    rw [sameWindow] at start descends
    exact ⟨hash, start, (Descends.parent (by omega)).trans descends⟩

/-- No certified block leaves the chain of a finalized block in an earlier slot. -/
theorem certified_descends (finalized : Finalized committee log final)
    (everCertified : FallbackCertified committee log block) (above : final.slot ≤ block.slot) :
    Descends parentOf block final := by
  -- by induction on the log up to which the block is certified: the parent of
  -- a window start was ready before
  obtain ⟨earlier, inside, certified⟩ : ∃ earlier, earlier <+: log ∧ FallbackCertified committee earlier block :=
    ⟨log, prefix_refl _, everCertified⟩
  clear everCertified
  induction size : earlier.length using Nat.strong_induction_on generalizing earlier block with
  | _ bound ih =>
    by_cases window : firstSlotInWindow block.slot ≤ final.slot
    · exact lawful.descends_in_window finalized (certified.mono inside.subset) above window
    have before := lawful.take inside
    obtain ⟨id, correct, cast⟩ := before.exists_notar certified
    obtain ⟨hash, start, descends⟩ := before.notar_window_start correct cast (by omega)
    refine descends.trans ?_
    obtain ⟨first, later, rfl⟩ := append_of_mem start
    have firstInside : first <+: log := (prefix_append _ _).trans inside
    have shorter : first.length < bound := by
      rw [← size, length_append, length_cons]
      omega
    have earlierBlocks : ∀ {block}, FallbackCertified committee first block → final.slot ≤ block.slot →
        Descends parentOf block final :=
      fun certified above => ih first.length shorter above first firstInside certified rfl
    have finals : ∀ {other}, Finalized committee first other → final.slot ≤ other.slot →
        Descends parentOf other final := by
      intro other otherFinal above
      obtain rfl | notarized := otherFinal.notarized
      · rw [lawful.eq_genesis finalized (Nat.le_zero.mp above)]
        exact .refl
      · exact earlierBlocks notarized.fallbackCertified above
    obtain ⟨_, rule⟩ := before.justified first _ later rfl correct
    have starts := isStartOfWindow_first block.slot
    simp only [Vote.newNotar] at rule
    rw [if_pos starts] at rule
    obtain ⟨below, certifiedParent, gap⟩ := rule
    refine (Descends.parent below).trans ?_
    by_cases reaches : final.slot ≤ (parentOf ⟨firstSlotInWindow block.slot, hash⟩).slot
    · obtain parent | ⟨other, otherFinal, line⟩ := certifiedParent
      · exact earlierBlocks parent reaches
      · exact (finals otherFinal (le_trans reaches line.slot_le)).linear line reaches
    -- the finalized slot lies in the gap
    obtain skipped | ⟨other, otherFinal, across⟩ := gap final.slot (by omega) (by omega)
    · exact absurd (skipped.mono firstInside.subset) (lawful.not_skipped finalized (by omega))
    have upper : final.slot ≤ other.slot := by
      obtain ⟨child, line, _, below⟩ := across
      have := line.slot_le
      omega
    exact absurd across (finals otherFinal upper).not_passesOver

/-- Finalized blocks lie on one chain. -/
theorem finalized_descends (finalized : Finalized committee log final)
    (otherFinal : Finalized committee log other) (above : final.slot ≤ other.slot) : Descends parentOf other final := by
  obtain rfl | notarized := otherFinal.notarized
  · rw [lawful.eq_genesis finalized (Nat.le_zero.mp above)]
    exact .refl
  · exact lawful.certified_descends finalized notarized.fallbackCertified above

theorem settled_unique (first : Settled committee parentOf log block)
    (second : Settled committee parentOf log other) (same : block.slot = other.slot) : block = other := by
  obtain ⟨final, finalized, line⟩ := first
  obtain ⟨final', finalized', line'⟩ := second
  obtain above | above := le_total final.slot final'.slot
  · have whole := (lawful.finalized_descends finalized finalized' above).trans line
    exact (whole.linear line' (by omega)).eq_of_slot same
  · have whole := (lawful.finalized_descends finalized' finalized above).trans line'
    exact ((whole.linear line (by omega)).eq_of_slot same.symm).symm

theorem settled_not_passedOver (settled : Settled committee parentOf log block) :
    ¬ PassedOver committee parentOf log block.slot := by
  obtain ⟨final, finalized, line⟩ := settled
  rintro ⟨other, otherFinal, across⟩
  obtain above | above := le_total final.slot other.slot
  · exact ((lawful.finalized_descends finalized otherFinal above).trans line).not_passesOver across
  · obtain ⟨child, descends, gap⟩ := across
    exact line.not_passesOver ⟨child, (lawful.finalized_descends otherFinal finalized above).trans descends, gap⟩

end Lawful

end Protocol

end Karstflow.Alpenglow
