import Karstflow.Alpenglow.FinalityWalk
import Karstflow.Data.Steps

namespace Karstflow.Alpenglow

open Data FinalityTracker List

/-! # Finality over whole runs -/

inductive FinalityCall where
  | addParent (block parent : BlockId)
  | markNotarized (block : BlockId)
  | markFastFinalized (block : BlockId)
  | markFinalized (slot : Nat)
deriving Repr, DecidableEq

namespace FinalityCall

def apply (tracker : FinalityTracker) : FinalityCall → Except Panic (FinalityTracker × FinalizationEvent)
  | addParent block parent => tracker.addParent block parent
  | markNotarized block => tracker.markNotarized block
  | markFastFinalized block => tracker.markFastFinalized block
  | markFinalized slot => tracker.markFinalized slot

/-- `block` is finalized by `call`, given the status its slot has. -/
def Finalizes (call : FinalityCall) (block : BlockId) : Option (FinStatus × BlockHash) → Prop
  | some (.finalPendingNotar, _) => call = markFastFinalized block ∨ call = markNotarized block
  | some (.notarized, hash) =>
    hash = block.hash ∧ (call = markFastFinalized block ∨ call = markFinalized block.slot)
  | none => call = markFastFinalized block
  | some _ => False

inductive Effect (before : FinalityTracker) : FinalityCall → FinalityTracker → FinalizationEvent → Prop
  | ignored (call : FinalityCall) : Effect before call before .default
  | linked {block parent : BlockId} (below : parent.slot < block.slot)
      (tracked : before.firstUnprunedSlot ≤ block.slot) :
      Effect before (addParent block parent)
        { before with parents := before.parents.insert block parent } .default
  | notarized {block : BlockId} (tracked : before.firstUnprunedSlot ≤ block.slot)
      (known : ∀ status hash, before.status.get block.slot = some (status, hash) →
        hash = block.hash ∨ status = .implicitlySkipped) :
      Effect before (markNotarized block) (before.statusInsert block.slot .notarized block.hash) .default
  | pending {slot : Nat} (tracked : before.firstUnprunedSlot ≤ slot)
      (known : ∀ status hash, before.status.get slot = some (status, hash) →
        status ≠ .notarized ∧ status ≠ .implicitlySkipped) :
      Effect before (markFinalized slot)
        (before.statusInsert slot .finalPendingNotar genesisBlockHash) .default
  | again {block : BlockId} (tracked : before.firstUnprunedSlot ≤ block.slot)
      (known : before.verdictAt block.slot = some (.finalized block.hash)) :
      Effect before (markFastFinalized block) (before.statusInsert block.slot .finalized block.hash) .default
  | finalized {call : FinalityCall} {block : BlockId} {walked after : FinalityTracker}
      {event : FinalizationEvent} (tracked : before.firstUnprunedSlot ≤ block.slot)
      (because : call.Finalizes block (before.status.get block.slot))
      (walk : Walk
        { before.statusInsert block.slot .finalized block.hash with
          highestFinalizedSlot := max before.highestFinalizedSlot block.slot }
        (block.slot + 1) block { FinalizationEvent.default with finalized := some block } walked event)
      (pruned : Pruned walked after) : Effect before call after event
  | extended {block parent : BlockId} {walked after : FinalityTracker} {event : FinalizationEvent}
      (below : parent.slot < block.slot) (tracked : before.firstUnprunedSlot ≤ block.slot)
      (known : before.verdictAt block.slot = some (.finalized block.hash))
      (walk : Walk { before with parents := before.parents.insert block parent }
        (block.slot + 1) block .default walked event)
      (pruned : Pruned walked after) : Effect before (addParent block parent) after event

variable {after : FinalityTracker}

theorem addParent_effect (ran : before.addParent block parent = .ok (after, event)) :
    Effect before (addParent block parent) after event := by
  obtain ⟨_, asserted, ran⟩ := bind_eq_ok.mp ran
  have below := of_decide_eq_true (assert_eq_ok.mp asserted)
  split at ran
  · cases ran
    exact .ignored _
  rename_i inside
  have tracked := not_lt.mp inside
  cases known : before.parents.get block with
  | some existing =>
    simp only [known] at ran
    obtain ⟨_, _, done⟩ := bind_eq_ok.mp ran
    cases done
    exact .ignored _
  | none =>
    simp only [known] at ran
    cases found : before.status.get block.slot with
    | none =>
      simp only [found] at ran
      cases ran
      exact .linked below tracked
    | some entry =>
      obtain ⟨status, hash⟩ := entry
      have held := verdictAt_of_status found
      cases status with
      | finalized | implicitlyFinalized =>
        simp only [found] at ran
        split at ran
        · rename_i same
          obtain ⟨⟨walked, event₁⟩, walk, ran⟩ := bind_eq_ok.mp ran
          obtain ⟨pruned, prune, done⟩ := bind_eq_ok.mp ran
          cases done
          have link : (before.parents.insert block parent).get block = some parent :=
            Table.get_insert_self _ _ _
          exact .extended below tracked (same ▸ held)
            ((handleImplicitlyFinalized_walk walk).ofParent (Nat.lt_succ_self _) link)
            (prune_pruned prune)
        · cases ran
          exact .linked below tracked
      | notarized | finalPendingNotar | implicitlySkipped =>
        simp only [found] at ran
        cases ran
        exact .linked below tracked

theorem finalized_effect {block : BlockId} (tracked : before.firstUnprunedSlot ≤ block.slot)
    (because : call.Finalizes block (before.status.get block.slot))
    (ran : (before.statusInsert block.slot .finalized block.hash).handleFinalizedBlock block .default =
      .ok (after, event)) : Effect before call after event := by
  obtain ⟨walked, walk, pruned⟩ := handleFinalizedBlock_walk ran
  exact .finalized tracked because walk pruned

theorem markFastFinalized_effect (ran : before.markFastFinalized block = .ok (after, event)) :
    Effect before (markFastFinalized block) after event := by
  rw [FinalityTracker.markFastFinalized] at ran
  split at ran
  · cases ran
    exact .ignored _
  rename_i inside
  have tracked := not_lt.mp inside
  cases found : before.status.get block.slot with
  | none =>
    simp only [found] at ran
    exact finalized_effect tracked (by rw [found]; rfl) ran
  | some entry =>
    obtain ⟨status, hash⟩ := entry
    have held := verdictAt_of_status found
    cases status with
    | finalized | implicitlyFinalized =>
      simp only [found] at ran
      split at ran
      · rename_i same
        cases ran
        exact .again tracked (same ▸ held)
      · cases ran
    | notarized =>
      simp only [found] at ran
      split at ran
      · rename_i same
        refine finalized_effect tracked ?_ ran
        rw [found]
        exact ⟨same, .inl rfl⟩
      · cases ran
    | finalPendingNotar =>
      simp only [found] at ran
      refine finalized_effect tracked ?_ ran
      rw [found]
      exact .inl rfl
    | implicitlySkipped => simp [found] at ran

theorem markNotarized_effect (ran : before.markNotarized block = .ok (after, event)) :
    Effect before (markNotarized block) after event := by
  rw [FinalityTracker.markNotarized] at ran
  split at ran
  · cases ran
    exact .ignored _
  rename_i inside
  have tracked := not_lt.mp inside
  cases found : before.status.get block.slot with
  | none =>
    simp only [found] at ran
    cases ran
    exact .notarized tracked (by simp [found])
  | some entry =>
    obtain ⟨status, hash⟩ := entry
    cases status with
    | notarized | finalized | implicitlyFinalized =>
      simp only [found] at ran
      split at ran
      · rename_i same
        cases ran
        exact .notarized tracked (by simp [found, same])
      · cases ran
    | implicitlySkipped =>
      simp only [found] at ran
      cases ran
      exact .notarized tracked (by simp [found])
    | finalPendingNotar =>
      simp only [found, statusInsert_statusInsert] at ran
      refine finalized_effect tracked ?_ ran
      rw [found]
      exact .inr rfl

theorem markFinalized_effect (ran : before.markFinalized slot = .ok (after, event)) :
    Effect before (markFinalized slot) after event := by
  rw [FinalityTracker.markFinalized] at ran
  split at ran
  · cases ran
    exact .ignored _
  rename_i inside
  have tracked := not_lt.mp inside
  cases found : before.status.get slot with
  | none =>
    simp only [found] at ran
    cases ran
    exact .pending tracked (by simp [found])
  | some entry =>
    obtain ⟨status, hash⟩ := entry
    cases status with
    | finalPendingNotar | finalized | implicitlyFinalized =>
      simp only [found] at ran
      cases ran
      exact .pending tracked (by simp [found])
    | notarized =>
      simp only [found, statusInsert_statusInsert] at ran
      refine @finalized_effect _ _ _ _ ⟨slot, hash⟩ tracked ?_ ran
      rw [found]
      exact ⟨rfl, .inr rfl⟩
    | implicitlySkipped => simp [found] at ran

theorem apply_effect (ran : call.apply before = .ok (after, event)) : Effect before call after event := by
  cases call with
  | addParent block parent => exact addParent_effect ran
  | markNotarized block => exact markNotarized_effect ran
  | markFastFinalized block => exact markFastFinalized_effect ran
  | markFinalized slot => exact markFinalized_effect ran

/-- The call takes a verdict back: it overwrites the status and does not
restore it. A notarization of another block than the finalized one aborts. -/
def Reopens (tracker : FinalityTracker) : FinalityCall → Prop
  | addParent _ _ | markFastFinalized _ => False
  | markNotarized block => tracker.firstUnprunedSlot ≤ block.slot ∧
      (tracker.verdictAt block.slot = some (.finalized block.hash) ∨
        tracker.verdictAt block.slot = some .skipped)
  | markFinalized slot => tracker.firstUnprunedSlot ≤ slot ∧
      ∃ hash, tracker.verdictAt slot = some (.finalized hash)

end FinalityCall

def FinalizationEvent.reported (event : FinalizationEvent) : List BlockId :=
  event.finalized.toList ++ event.implicitlyFinalized

namespace FinalityTracker

variable {after : FinalityTracker}

structure Bounded (tracker : FinalityTracker) : Prop where
  first : tracker.firstUnprunedSlot ≤ tracker.highestFinalizedSlot
  decided : ∀ slot verdict, tracker.verdictAt slot = some verdict → slot ≤ tracker.highestFinalizedSlot

theorem Pruned.verdictAt (pruned : Pruned before after) (tracked : after.firstUnprunedSlot ≤ slot) :
    after.verdictAt slot = before.verdictAt slot := by
  rw [FinalityTracker.verdictAt, pruned.status, if_pos tracked]
  rfl

theorem Pruned.bounded (pruned : Pruned before after) (bounded : Bounded before) : Bounded after := by
  refine ⟨?_, ?_⟩
  · rw [pruned.highest]
    by_cases moved : before.firstUnprunedSlot < after.firstUnprunedSlot
    · obtain ⟨verdict, held⟩ := pruned.passed _ moved (le_refl _)
      exact bounded.decided _ verdict held
    · have kept := bounded.first
      omega
  · intro slot verdict held
    rw [pruned.highest]
    by_cases tracked : after.firstUnprunedSlot ≤ slot
    · rw [pruned.verdictAt tracked] at held
      exact bounded.decided slot verdict held
    · rw [FinalityTracker.verdictAt, pruned.status, if_neg tracked] at held
      cases held

theorem Walk.bounded (walk : Walk before source cur event after event') (low : source ≤ before.highestFinalizedSlot + 1)
    (bounded : Bounded before) : Bounded after := by
  refine ⟨?_, ?_⟩
  · rw [walk.first, walk.highest]
    exact bounded.first
  · intro slot verdict held
    rw [walk.highest]
    obtain same | ⟨below, _⟩ := walk.changed slot
    · rw [verdictAt, same] at held
      exact bounded.decided slot verdict held
    · omega

theorem Bounded.statusInsert {status : FinStatus} {hash : BlockHash} (bounded : Bounded tracker)
    (low : ∀ verdict, FinStatus.verdict (status, hash) = some verdict → slot ≤ tracker.highestFinalizedSlot) :
    Bounded (tracker.statusInsert slot status hash) := by
  refine ⟨bounded.first, ?_⟩
  intro other verdict held
  rw [verdictAt_statusInsert] at held
  split at held
  · rename_i same
    rw [same]
    exact low verdict held
  · exact bounded.decided other verdict held

theorem Bounded.default : Bounded default := by
  refine ⟨le_refl _, ?_⟩
  intro slot verdict held
  simp only [verdictAt, FinalityTracker.default, Table.get_insert, Table.get_empty] at held
  split at held <;> cases held

/-- What a call does that takes no verdict back: before pruning all verdicts
are kept, and what it reports is the verdict of its slot. -/
structure Settles (before after : FinalityTracker) (event : FinalizationEvent)
    (settled : Nat → Option Verdict) : Prop where
  first : before.firstUnprunedSlot ≤ after.firstUnprunedSlot
  keeps : ∀ slot verdict, before.verdictAt slot = some verdict → settled slot = some verdict
  reported : ∀ block ∈ event.reported,
    before.firstUnprunedSlot ≤ block.slot ∧ settled block.slot = some (.finalized block.hash)
  tracked : ∀ slot, after.firstUnprunedSlot ≤ slot → after.verdictAt slot = settled slot

theorem Settles.quiet (first : after.firstUnprunedSlot = before.firstUnprunedSlot)
    (same : ∀ slot, after.verdictAt slot = before.verdictAt slot) :
    Settles before after .default before.verdictAt where
  first := le_of_eq first.symm
  keeps _ _ held := held
  reported _ member := by cases member
  tracked slot _ := same slot

theorem Settles.statusInsert {status : FinStatus} {hash : BlockHash}
    (same : FinStatus.verdict (status, hash) = before.verdictAt slot) :
    Settles before (before.statusInsert slot status hash) .default before.verdictAt := by
  refine .quiet rfl ?_
  intro other
  rw [verdictAt_statusInsert]
  split
  · next here => rw [same, here]
  · rfl

end FinalityTracker

namespace FinalityCall

variable {before after : FinalityTracker} {call : FinalityCall}

theorem Finalizes.undecided (because : call.Finalizes block (before.status.get block.slot)) :
    before.verdictAt block.slot = none := by
  cases found : before.status.get block.slot with
  | none => exact verdictAt_of_status found
  | some entry =>
    obtain ⟨status, hash⟩ := entry
    rw [found] at because
    rw [verdictAt_of_status found]
    cases status with
    | notarized | finalPendingNotar => rfl
    | finalized | implicitlyFinalized | implicitlySkipped => exact because.elim

section

variable (effect : Effect before call after event)

include effect

theorem Effect.first_le : before.firstUnprunedSlot ≤ after.firstUnprunedSlot := by
  cases effect with
  | finalized _ _ walk pruned | extended _ _ _ walk pruned => exact walk.first ▸ pruned.first
  | _ => exact le_refl _

theorem Effect.bounded (bounded : before.Bounded) :
    after.Bounded ∧ before.firstUnprunedSlot ≤ after.firstUnprunedSlot := by
  cases effect with
  | ignored => exact ⟨bounded, le_refl _⟩
  | linked => exact ⟨⟨bounded.first, bounded.decided⟩, le_refl _⟩
  | notarized | pending => exact ⟨bounded.statusInsert (by simp [FinStatus.verdict]), le_refl _⟩
  | again tracked known =>
    exact ⟨bounded.statusInsert fun _ _ => bounded.decided _ _ known, le_refl _⟩
  | @finalized call block walked _ _ tracked because walk pruned =>
    have raised : Bounded
        { before.statusInsert block.slot .finalized block.hash with
          highestFinalizedSlot := max before.highestFinalizedSlot block.slot } := by
      refine ⟨le_trans bounded.first (le_max_left _ _), ?_⟩
      intro slot verdict held
      have held : (before.statusInsert block.slot .finalized block.hash).verdictAt slot = some verdict := held
      rw [verdictAt_statusInsert] at held
      split at held
      · rename_i here
        rw [here]
        exact le_max_right _ _
      · exact le_trans (bounded.decided slot verdict held) (le_max_left _ _)
    have walkedBounded := walk.bounded (Nat.succ_le_succ (le_max_right _ _)) raised
    exact ⟨pruned.bounded walkedBounded, walk.first ▸ pruned.first⟩
  | @extended block parent walked _ _ below tracked known walk pruned =>
    have walkedBounded := walk.bounded (Nat.succ_le_succ (bounded.decided _ _ known))
      ⟨bounded.first, bounded.decided⟩
    exact ⟨pruned.bounded walkedBounded, walk.first ▸ pruned.first⟩

theorem Effect.settles (keeps : ¬ call.Reopens before) : ∃ settled, before.Settles after event settled := by
  cases effect with
  | ignored | linked => exact ⟨_, .quiet rfl fun _ => rfl⟩
  | @notarized block tracked known =>
    refine ⟨_, .statusInsert ?_⟩
    cases held : before.verdictAt block.slot with
    | none => rfl
    | some verdict =>
      cases verdict with
      | skipped => exact absurd ⟨tracked, .inr held⟩ keeps
      | finalized hash =>
        obtain ⟨status, found, final⟩ := verdictAt_eq_finalized.mp held
        obtain same | skipped := known status hash found
        · exact absurd ⟨tracked, .inl (same ▸ held)⟩ keeps
        · rw [skipped] at final
          simp at final
  | @pending slot tracked known =>
    refine ⟨_, .statusInsert ?_⟩
    cases held : before.verdictAt slot with
    | none => rfl
    | some verdict =>
      cases verdict with
      | finalized hash => exact absurd ⟨tracked, hash, held⟩ keeps
      | skipped =>
        obtain ⟨hash, found⟩ := verdictAt_eq_skipped.mp held
        exact absurd rfl (known _ hash found).2
  | again tracked known => exact ⟨_, .statusInsert known.symm⟩
  | @finalized call block walked _ _ tracked because walk pruned =>
    have written : (before.statusInsert block.slot .finalized block.hash).verdictAt block.slot =
        some (.finalized block.hash) := by
      rw [verdictAt_statusInsert, if_pos rfl]
      rfl
    refine ⟨walked.verdictAt, walk.first ▸ pruned.first, ?_, ?_, fun slot low => pruned.verdictAt low⟩
    · intro slot verdict held
      apply walk.keeps
      have marks : before.Keeps (before.statusInsert block.slot .finalized block.hash) :=
        keeps_statusInsert (by simp [because.undecided])
      exact marks slot verdict held
    · intro other member
      obtain direct | implied := mem_append.mp member
      · rw [walk.finalized] at direct
        have same : other = block := by simpa using direct
        subst same
        exact ⟨tracked, walk.keeps _ _ written⟩
      · obtain none | ⟨low, _, held⟩ := walk.implicit other implied
        · cases none
        · exact ⟨low, held⟩
  | @extended block parent walked _ _ below tracked known walk pruned =>
    refine ⟨walked.verdictAt, walk.first ▸ pruned.first, ?_, ?_, fun slot low => pruned.verdictAt low⟩
    · intro slot verdict held
      exact walk.keeps slot verdict held
    · intro other member
      obtain direct | implied := mem_append.mp member
      · rw [walk.finalized] at direct
        cases direct
      · obtain none | ⟨low, _, held⟩ := walk.implicit other implied
        · cases none
        · exact ⟨low, held⟩

end

/-- The calls in order on a fresh tracker, with the events they return. -/
def run (calls : List FinalityCall) : Except Panic (FinalityTracker × List FinalizationEvent) :=
  runSteps (fun tracker call => call.apply tracker) .default calls

/-- While a slot is tracked, a finalized status keeps its hash and stays
finalized, and a skipped one does not become notarized. -/
structure Lasting (before after : FinalityTracker) : Prop where
  finalized : ∀ slot status hash, after.firstUnprunedSlot ≤ slot →
    before.status.get slot = some (status, hash) →
    status = .finalized ∨ status = .implicitlyFinalized →
    ∃ status', after.status.get slot = some (status', hash) ∧
      (status' = .finalized ∨ status' = .implicitlyFinalized)
  skipped : ∀ slot hash hash', after.firstUnprunedSlot ≤ slot →
    before.status.get slot = some (.implicitlySkipped, hash) →
    after.status.get slot ≠ some (.notarized, hash')

theorem lasting_of_verdicts
    (keeps : ∀ slot verdict, after.firstUnprunedSlot ≤ slot → before.verdictAt slot = some verdict →
      after.verdictAt slot = some verdict) : Lasting before after := by
  refine ⟨?_, ?_⟩
  · intro slot status hash tracked found final
    exact verdictAt_eq_finalized.mp (keeps slot _ tracked (verdictAt_eq_finalized.mpr ⟨status, found, final⟩))
  · intro slot hash hash' tracked found reopened
    have kept := keeps slot .skipped tracked (verdictAt_of_status found)
    rw [verdictAt_of_status reopened] at kept
    cases kept

theorem Lasting.overwritten {status : FinStatus} {hash other : BlockHash}
    (lasting : Lasting before (before.statusInsert slot status hash)) (tracked : before.firstUnprunedSlot ≤ slot)
    (held : before.verdictAt slot = some (.finalized other)) : status = .finalized ∨ status = .implicitlyFinalized := by
  obtain ⟨old, found, final⟩ := verdictAt_eq_finalized.mp held
  obtain ⟨now, kept, still⟩ := lasting.finalized slot old other tracked found final
  simp only [status_statusInsert, if_true, Option.some.injEq, Prod.mk.injEq] at kept
  rw [kept.1]
  exact still

theorem not_lasting_of_reopens (reopens : call.Reopens before) :
    ∃ after event, call.apply before = .ok (after, event) ∧ ¬ Lasting before after := by
  cases call with
  | addParent | markFastFinalized => exact reopens.elim
  | markNotarized block =>
    obtain ⟨tracked, held⟩ := reopens
    have inside := not_lt.mpr tracked
    refine ⟨before.statusInsert block.slot .notarized block.hash, .default, ?_, ?_⟩
    · simp only [apply, FinalityTracker.markNotarized, if_neg inside]
      obtain finalized | skipped := held
      · obtain ⟨status, found, rfl | rfl⟩ := verdictAt_eq_finalized.mp finalized <;> simp [found]
      · obtain ⟨hash, found⟩ := verdictAt_eq_skipped.mp skipped
        simp [found]
    · intro lasting
      obtain finalized | skipped := held
      · exact absurd (lasting.overwritten tracked finalized) (by simp)
      · obtain ⟨hash, found⟩ := verdictAt_eq_skipped.mp skipped
        exact lasting.skipped block.slot hash block.hash tracked found (by simp)
  | markFinalized slot =>
    obtain ⟨tracked, hash, held⟩ := reopens
    have inside := not_lt.mpr tracked
    refine ⟨before.statusInsert slot .finalPendingNotar genesisBlockHash, .default, ?_, ?_⟩
    · simp only [apply, FinalityTracker.markFinalized, if_neg inside]
      obtain ⟨status, found, rfl | rfl⟩ := verdictAt_eq_finalized.mp held <;> simp [found]
    · exact fun lasting => absurd (lasting.overwritten tracked held) (by simp)

/-- The finality that a run reports is single-valued and irrevocable. -/
structure Irrevocable (calls : List FinalityCall) : Prop where
  single : ∀ {tracker events}, run calls = .ok (tracker, events) →
    ∀ block ∈ events.flatMap FinalizationEvent.reported,
    ∀ other ∈ events.flatMap FinalizationEvent.reported, block.slot = other.slot → block.hash = other.hash
  lasting : ∀ {earlier before after}, earlier <+: calls → run earlier = .ok before →
    run calls = .ok after → Lasting before.1 after.1
  watermark : ∀ {earlier before after}, earlier <+: calls → run earlier = .ok before →
    run calls = .ok after → before.1.firstUnprunedSlot ≤ after.1.firstUnprunedSlot ∧
      after.1.firstUnprunedSlot ≤ after.1.highestFinalizedSlot

/-- What holds after a run that took no verdict back. -/
structure Ledger (calls : List FinalityCall) : Prop where
  bounded : ∀ {tracker events}, run calls = .ok (tracker, events) → tracker.Bounded
  held : ∀ {tracker events}, run calls = .ok (tracker, events) →
    ∀ block ∈ events.flatMap FinalizationEvent.reported, tracker.firstUnprunedSlot ≤ block.slot →
      tracker.verdictAt block.slot = some (.finalized block.hash)
  single : ∀ {tracker events}, run calls = .ok (tracker, events) →
    ∀ block ∈ events.flatMap FinalizationEvent.reported,
    ∀ other ∈ events.flatMap FinalizationEvent.reported, block.slot = other.slot → block.hash = other.hash
  first : ∀ {earlier before after}, earlier <+: calls → run earlier = .ok before →
    run calls = .ok after → before.1.firstUnprunedSlot ≤ after.1.firstUnprunedSlot
  keeps : ∀ {earlier before after}, earlier <+: calls → run earlier = .ok before →
    run calls = .ok after → ∀ slot verdict, after.1.firstUnprunedSlot ≤ slot →
      before.1.verdictAt slot = some verdict → after.1.verdictAt slot = some verdict

theorem Ledger.irrevocable (ledger : Ledger calls) : Irrevocable calls where
  single := ledger.single
  lasting inside ranBefore ran := lasting_of_verdicts (ledger.keeps inside ranBefore ran)
  watermark inside ranBefore ran := ⟨ledger.first inside ranBefore ran, (ledger.bounded ran).first⟩

theorem Ledger.start : Ledger [] where
  bounded ran := by
    cases ran
    exact Bounded.default
  held ran := by
    cases ran
    simp
  single ran := by
    cases ran
    simp
  first inside ranBefore ran := by
    cases prefix_nil.mp inside
    rw [ranBefore] at ran
    cases ran
    exact le_refl _
  keeps inside ranBefore ran slot verdict _ held := by
    cases prefix_nil.mp inside
    rw [ranBefore] at ran
    cases ran
    exact held

theorem Ledger.step (ledger : Ledger calls)
    (allowed : ∀ tracker events, run calls = .ok (tracker, events) → ¬ call.Reopens tracker) :
    Ledger (calls ++ [call]) := by
  refine ⟨?_, ?_, ?_, ?_, ?_⟩
  · intro tracker events ran
    obtain ⟨before, earlier, event, ranBefore, applied, _⟩ := runSteps_append_eq_ok.mp ran
    exact ((apply_effect applied).bounded (ledger.bounded ranBefore)).1
  · intro tracker events ran block member tracked
    obtain ⟨before, earlier, event, ranBefore, applied, rfl⟩ := runSteps_append_eq_ok.mp ran
    obtain ⟨settled, settles⟩ := (apply_effect applied).settles (allowed _ _ ranBefore)
    rw [settles.tracked _ tracked]
    rw [flatMap_append, mem_append] at member
    obtain old | new := member
    · exact settles.keeps _ _ (ledger.held ranBefore block old (le_trans settles.first tracked))
    · exact (settles.reported block (by simpa using new)).2
  · intro tracker events ran
    obtain ⟨before, earlier, event, ranBefore, applied, rfl⟩ := runSteps_append_eq_ok.mp ran
    obtain ⟨settled, settles⟩ := (apply_effect applied).settles (allowed _ _ ranBefore)
    -- whatever is reported now agrees with every report so far
    have agree : ∀ block ∈ event.reported, ∀ other ∈ (earlier ++ [event]).flatMap FinalizationEvent.reported,
        block.slot = other.slot → block.hash = other.hash := by
      intro block new other member same
      obtain ⟨tracked, held⟩ := settles.reported block new
      have otherHeld : settled other.slot = some (.finalized other.hash) := by
        rw [flatMap_append, mem_append] at member
        obtain old | here := member
        · exact settles.keeps _ _ (ledger.held ranBefore other old (same ▸ tracked))
        · exact (settles.reported other (by simpa using here)).2
      rw [← same, held] at otherHeld
      simpa using otherHeld
    intro block member other member' same
    rw [flatMap_append, mem_append] at member
    obtain old | new := member
    · rw [flatMap_append, mem_append] at member'
      obtain old' | new' := member'
      · exact ledger.single ranBefore block old other old' same
      · refine (agree other (by simpa using new') block ?_ same.symm).symm
        rw [flatMap_append, mem_append]
        exact .inl old
    · exact agree block (by simpa using new) other member' same
  · intro earlier before after inside ranBefore ran
    obtain whole | within := prefix_concat_iff.mp inside
    · rw [whole, ran] at ranBefore
      cases ranBefore
      exact le_refl _
    · obtain ⟨middle, events, event, ranMiddle, applied, _⟩ := runSteps_append_eq_ok.mp ran
      exact le_trans (ledger.first within ranBefore ranMiddle)
        ((apply_effect applied).bounded (ledger.bounded ranMiddle)).2
  · intro earlier before after inside ranBefore ran slot verdict tracked held
    obtain whole | within := prefix_concat_iff.mp inside
    · rw [whole, ran] at ranBefore
      cases ranBefore
      exact held
    obtain ⟨middle, events, event, ranMiddle, applied, _⟩ := runSteps_append_eq_ok.mp ran
    obtain ⟨settled, settles⟩ := (apply_effect applied).settles (allowed _ _ ranMiddle)
    rw [settles.tracked _ tracked]
    exact settles.keeps _ _
      (ledger.keeps within ranBefore ranMiddle slot verdict (le_trans settles.first tracked) held)

/-- Finality is irrevocable in every state of a run exactly when no call takes
a verdict back. -/
theorem finality_irrevocable_iff (calls : List FinalityCall) : (∀ taken, taken <+: calls → Irrevocable taken) ↔
      ∀ earlier call, earlier ++ [call] <+: calls →
        ∀ tracker events, run earlier = .ok (tracker, events) → ¬ call.Reopens tracker := by
  apply @good_iff_allowed _ calls Ledger
  · exact .start
  · intro earlier call _ ledger allowed
    exact ledger.step allowed
  · intro taken _ ledger
    exact ledger.irrevocable
  · intro earlier call _ _ irrevocable tracker events ran reopens
    obtain ⟨after, event, applied, lost⟩ := not_lasting_of_reopens reopens
    have ran' := runSteps_append_eq_ok.mpr ⟨tracker, events, event, ran, applied, rfl⟩
    exact lost (irrevocable.lasting (prefix_append earlier [call]) ran ran')

/-- A slot that was fast-finalized with one hash is finalized with another,
after the final certificate has dropped the first. -/
theorem slot_finalized_twice : (∃ tracker, run [markFastFinalized ⟨1, 1⟩, markFinalized 1, markNotarized ⟨1, 2⟩] =
      .ok (tracker, [{ FinalizationEvent.default with finalized := some ⟨1, 1⟩ }, .default,
        { FinalizationEvent.default with finalized := some ⟨1, 2⟩ }])) ∧
    ¬ Irrevocable [markFastFinalized ⟨1, 1⟩, markFinalized 1, markNotarized ⟨1, 2⟩] := by
  refine ⟨⟨_, rfl⟩, ?_⟩
  intro irrevocable
  have same := irrevocable.single rfl ⟨1, 1⟩ (by decide) ⟨1, 2⟩ (by decide) rfl
  exact absurd same (by decide)

end FinalityCall

end Karstflow.Alpenglow
