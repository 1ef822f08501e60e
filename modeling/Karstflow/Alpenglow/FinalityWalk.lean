import Karstflow.Alpenglow.FinalityTracker
import Mathlib.Logic.Relation

namespace Karstflow.Alpenglow

open Data

/-! # What the finality tracker decides

A slot's verdict is a finalized block or a skip. The tracker is meant as a
ledger in which every verdict is written once: the walk through the ancestors
and pruning keep what is there, and every block they report is the verdict of
its slot.
-/

inductive Verdict where
  | finalized (hash : BlockHash)
  | skipped
deriving Repr, DecidableEq

def FinStatus.verdict : FinStatus × BlockHash → Option Verdict
  | (finalized, hash) | (implicitlyFinalized, hash) => some (.finalized hash)
  | (implicitlySkipped, _) => some .skipped
  | (notarized, _) | (finalPendingNotar, _) => none

theorem FinStatus.decided_iff {hash : BlockHash} :
    status.decided = true ↔ ∃ verdict, FinStatus.verdict (status, hash) = some verdict := by
  cases status <;> simp [decided, verdict]

namespace FinalityTracker

variable {tracker : FinalityTracker}

def verdictAt (tracker : FinalityTracker) (slot : Nat) : Option Verdict :=
  (tracker.status.get slot).bind FinStatus.verdict

@[simp] theorem status_statusInsert (status : FinStatus)
    (hash : BlockHash) : (tracker.statusInsert slot status hash).status.get other =
      if other = slot then some (status, hash) else tracker.status.get other :=
  Table.get_insert tracker.status slot other (status, hash)

theorem verdictAt_statusInsert (status : FinStatus)
    (hash : BlockHash) : (tracker.statusInsert slot status hash).verdictAt other =
      if other = slot then FinStatus.verdict (status, hash) else tracker.verdictAt other := by
  rw [verdictAt, status_statusInsert]
  split <;> rfl

def Keeps (before after : FinalityTracker) : Prop :=
  ∀ slot verdict, before.verdictAt slot = some verdict → after.verdictAt slot = some verdict

theorem Keeps.trans (first : Keeps before middle) (second : Keeps middle after) : Keeps before after :=
  fun slot verdict held => second slot verdict (first slot verdict held)

theorem keeps_statusInsert {status : FinStatus} {hash : BlockHash}
    (agrees : ∀ verdict, tracker.verdictAt slot = some verdict → FinStatus.verdict (status, hash) = some verdict) :
    Keeps tracker (tracker.statusInsert slot status hash) := by
  intro other verdict held
  rw [verdictAt_statusInsert]
  by_cases same : other = slot
  · rw [if_pos same]
    exact agrees verdict (same ▸ held)
  · rw [if_neg same]
    exact held

/-- `ancestor` is reached from `block` through recorded parents. -/
def Line (tracker : FinalityTracker) : BlockId → BlockId → Prop :=
  Relation.ReflTransGen fun child parent => tracker.parents.get child = some parent

/-- `slot` is passed over by a block of the line, or between `source` and `cur`. -/
def PassedOver (tracker : FinalityTracker) (source : Nat) (cur : BlockId) (slot : Nat) : Prop :=
  (cur.slot < slot ∧ slot < source) ∨
    ∃ child parent, tracker.Line cur child ∧ tracker.parents.get child = some parent ∧
      parent.slot < slot ∧ slot < child.slot

/-- What the line below `source` implies about a slot. -/
def Implied (tracker : FinalityTracker) (source : Nat) (cur : BlockId) (slot : Nat) : Verdict → Prop
  | .finalized hash => tracker.Line cur ⟨slot, hash⟩
  | .skipped => tracker.PassedOver source cur slot

/-- The effect of the walk from `cur`, the parent of a block in slot `source`. -/
structure Walk (before : FinalityTracker) (source : Nat) (cur : BlockId) (event : FinalizationEvent)
    (after : FinalityTracker) (event' : FinalizationEvent) : Prop where
  parents : after.parents = before.parents
  highest : after.highestFinalizedSlot = before.highestFinalizedSlot
  first : after.firstUnprunedSlot = before.firstUnprunedSlot
  keeps : Keeps before after
  changed : ∀ slot, after.status.get slot = before.status.get slot ∨
    (slot < source ∧ ∃ verdict, after.verdictAt slot = some verdict ∧
      before.Implied source cur slot verdict)
  finalized : event'.finalized = event.finalized
  implicit : ∀ block ∈ event'.implicitlyFinalized, block ∈ event.implicitlyFinalized ∨
    (before.firstUnprunedSlot ≤ block.slot ∧ before.Line cur block ∧
      after.verdictAt block.slot = some (.finalized block.hash))
  skipped : ∀ slot ∈ event'.implicitlySkipped, slot ∈ event.implicitlySkipped ∨
    (before.firstUnprunedSlot ≤ slot ∧ before.PassedOver source cur slot ∧
      after.verdictAt slot = some .skipped)

theorem Walk.stay : Walk before source cur event before event where
  parents := rfl
  highest := rfl
  first := rfl
  keeps := fun _ _ held => held
  changed := fun _ => .inl rfl
  finalized := rfl
  implicit := fun _ member => .inl member
  skipped := fun _ member => .inl member

theorem Walk.trans (earlier : Walk before source cur event middle event₁)
    (later : Walk middle source cur event₁ after event') : Walk before source cur event after event' := by
  have line : middle.Line = before.Line := by
    simp only [Line, earlier.parents]
  have passed : middle.PassedOver = before.PassedOver := by
    funext source cur slot
    simp only [PassedOver, line, earlier.parents]
  have implied : middle.Implied = before.Implied := by
    funext source cur slot verdict
    cases verdict <;> simp only [Implied, line, passed]
  refine ⟨later.parents.trans earlier.parents, later.highest.trans earlier.highest,
    later.first.trans earlier.first, earlier.keeps.trans later.keeps, ?_,
    later.finalized.trans earlier.finalized, ?_, ?_⟩
  · intro slot
    obtain same | ⟨below, verdict, held, because⟩ := later.changed slot
    · obtain same' | ⟨below, verdict, held, because⟩ := earlier.changed slot
      · exact .inl (same.trans same')
      · exact .inr ⟨below, verdict, later.keeps slot verdict held, because⟩
    · exact .inr ⟨below, verdict, held, implied ▸ because⟩
  · intro block member
    obtain old | ⟨low, onLine, held⟩ := later.implicit block member
    · obtain older | ⟨low, onLine, held⟩ := earlier.implicit block old
      · exact .inl older
      · exact .inr ⟨low, onLine, later.keeps _ _ held⟩
    · exact .inr ⟨earlier.first ▸ low, line ▸ onLine, held⟩
  · intro slot member
    obtain old | ⟨low, across, held⟩ := later.skipped slot member
    · obtain older | ⟨low, across, held⟩ := earlier.skipped slot old
      · exact .inl older
      · exact .inr ⟨low, across, later.keeps _ _ held⟩
    · exact .inr ⟨earlier.first ▸ low, passed ▸ across, held⟩

theorem Walk.ofParent (below : cur.slot < source) (link : before.parents.get cur = some parent)
    (walk : Walk before cur.slot parent event after event') : Walk before source cur event after event' := by
  have line : ∀ {block}, before.Line parent block → before.Line cur block := fun onLine => .head link onLine
  have passed : ∀ {slot}, before.PassedOver cur.slot parent slot → before.PassedOver source cur slot := by
    intro slot across
    obtain ⟨low, high⟩ | ⟨child, above, onLine, step, low, high⟩ := across
    · exact .inr ⟨cur, parent, .refl, link, low, high⟩
    · exact .inr ⟨child, above, line onLine, step, low, high⟩
  refine { walk with changed := ?_, implicit := ?_, skipped := ?_ }
  · intro slot
    obtain same | ⟨low, verdict, held, because⟩ := walk.changed slot
    · exact .inl same
    · refine .inr ⟨by omega, verdict, held, ?_⟩
      cases verdict with
      | finalized hash => exact line because
      | skipped => exact passed because
  · intro block member
    obtain old | ⟨low, onLine, held⟩ := walk.implicit block member
    · exact .inl old
    · exact .inr ⟨low, line onLine, held⟩
  · intro slot member
    obtain old | ⟨low, across, held⟩ := walk.skipped slot member
    · exact .inl old
    · exact .inr ⟨low, passed across, held⟩

theorem Walk.write {source slot : Nat} {status : FinStatus} {hash : BlockHash}
    {verdict : Verdict} (low : tracker.firstUnprunedSlot ≤ slot) (below : slot < source)
    (means : FinStatus.verdict (status, hash) = some verdict)
    (agrees : ∀ old, tracker.verdictAt slot = some old → old = verdict)
    (because : tracker.Implied source cur slot verdict) (finalized : event'.finalized = event.finalized)
    (implicit : ∀ block ∈ event'.implicitlyFinalized, block ∈ event.implicitlyFinalized ∨
      (block.slot = slot ∧ verdict = .finalized block.hash))
    (skipped : ∀ other ∈ event'.implicitlySkipped, other ∈ event.implicitlySkipped ∨
      (other = slot ∧ verdict = .skipped)) :
    Walk tracker source cur event (tracker.statusInsert slot status hash) event' := by
  have written : (tracker.statusInsert slot status hash).verdictAt slot = some verdict := by
    rw [verdictAt_statusInsert, if_pos rfl, means]
  refine ⟨rfl, rfl, rfl, ?_, ?_, finalized, ?_, ?_⟩
  · apply keeps_statusInsert
    intro old held
    rw [means, agrees old held]
  · intro other
    by_cases same : other = slot
    · rw [same]
      exact .inr ⟨below, verdict, written, because⟩
    · rw [status_statusInsert, if_neg same]
      exact .inl rfl
  · intro block member
    obtain old | ⟨here, is⟩ := implicit block member
    · exact .inl old
    · rw [is] at because written
      subst here
      exact .inr ⟨low, because, written⟩
  · intro other member
    obtain old | ⟨here, is⟩ := skipped other member
    · exact .inl old
    · rw [is] at because written
      subst here
      exact .inr ⟨low, because, written⟩

theorem verdictAt_of_status
    (found : tracker.status.get slot = held) : tracker.verdictAt slot = held.bind FinStatus.verdict := by
  rw [verdictAt, found]

theorem verdictAt_eq_finalized {hash : BlockHash} : tracker.verdictAt slot = some (.finalized hash) ↔
    ∃ status, tracker.status.get slot = some (status, hash) ∧
      (status = .finalized ∨ status = .implicitlyFinalized) := by
  cases found : tracker.status.get slot with
  | none => simp [verdictAt_of_status found]
  | some entry =>
    obtain ⟨status, other⟩ := entry
    cases status <;> simp [verdictAt_of_status found, FinStatus.verdict]

theorem verdictAt_eq_skipped : tracker.verdictAt slot = some .skipped ↔
    ∃ hash, tracker.status.get slot = some (.implicitlySkipped, hash) := by
  cases found : tracker.status.get slot with
  | none => simp [verdictAt_of_status found]
  | some entry =>
    obtain ⟨status, other⟩ := entry
    cases status <;> simp [verdictAt_of_status found, FinStatus.verdict]

theorem skipBetween_walk (low : tracker.firstUnprunedSlot ≤ cur.slot)
    (inside : ∀ slot ∈ slots, cur.slot < slot ∧ slot < source)
    (ran : skipBetween slots tracker event = .ok (after, event', known)) :
    Walk tracker source cur event after event' := by
  induction slots generalizing tracker event with
  | nil =>
    cases ran
    exact .stay
  | cons slot rest ih =>
    obtain ⟨above, below⟩ := inside slot List.mem_cons_self
    have write : ∀ skips, (∀ old, tracker.verdictAt slot = some old → old = .skipped) →
        (∀ other ∈ skips, other ∈ event.implicitlySkipped ∨ other = slot) →
        Walk tracker source cur event
          (tracker.statusInsert slot .implicitlySkipped genesisBlockHash)
          { event with implicitlySkipped := skips } := by
      intro skips agrees skipped
      refine .write (by omega) below rfl agrees (.inl ⟨above, below⟩) rfl
        (fun _ member => .inl member) ?_
      intro other member
      exact (skipped other member).imp_right fun here => ⟨here, rfl⟩
    have next : ∀ (agrees : ∀ old, tracker.verdictAt slot = some old → old = .skipped)
        (_ : skipBetween rest (tracker.statusInsert slot .implicitlySkipped genesisBlockHash)
          { event with implicitlySkipped := event.implicitlySkipped ++ [slot] } =
            .ok (after, event', known)), Walk tracker source cur event after event' := by
      intro agrees ran
      have still : (tracker.statusInsert slot .implicitlySkipped genesisBlockHash).firstUnprunedSlot ≤
          cur.slot := low
      have rest := ih still (fun other member => inside other (List.mem_cons_of_mem slot member)) ran
      refine (write _ agrees ?_).trans rest
      intro other member
      simpa using member
    rw [skipBetween] at ran
    cases found : tracker.status.get slot with
    | none =>
      simp only [found] at ran
      exact next (by simp [verdictAt_of_status found]) ran
    | some old =>
      obtain ⟨status, hash⟩ := old
      cases status with
      | notarized =>
        simp only [found] at ran
        exact next (by simp [verdictAt_of_status found, FinStatus.verdict]) ran
      | implicitlySkipped =>
        simp only [found] at ran
        cases ran
        apply write event'.implicitlySkipped
        · simp [verdictAt_of_status found, FinStatus.verdict]
        · exact fun other member => .inl member
      | finalPendingNotar | finalized | implicitlyFinalized => simp [found] at ran

theorem finalizeAncestor_walk (low : tracker.firstUnprunedSlot ≤ cur.slot) (below : cur.slot < source)
    (ran : finalizeAncestor tracker cur event = .ok (after, event', more)) :
    Walk tracker source cur event after event' := by
  have write : (∀ old, tracker.verdictAt cur.slot = some old → old = .finalized cur.hash) →
      Walk tracker source cur event (tracker.statusInsert cur.slot .implicitlyFinalized cur.hash)
        { event with implicitlyFinalized := event.implicitlyFinalized ++ [cur] } := by
    intro agrees
    refine .write low below rfl agrees .refl rfl ?_ (fun _ member => .inl member)
    intro block member
    obtain old | new := List.mem_append.mp member
    · exact .inl old
    · rw [List.mem_singleton.mp new]
      exact .inr ⟨rfl, rfl⟩
  -- the old status is put back, and nothing is reported
  have restore : ∀ {status}, FinStatus.verdict (status, cur.hash) = some (.finalized cur.hash) →
      (∀ old, tracker.verdictAt cur.slot = some old → old = .finalized cur.hash) →
      Walk tracker source cur event
        ((tracker.statusInsert cur.slot .implicitlyFinalized cur.hash).statusInsert
          cur.slot status cur.hash) event := by
    intro status means agrees
    have marked : Walk tracker source cur event
        (tracker.statusInsert cur.slot .implicitlyFinalized cur.hash) event :=
      .write low below rfl agrees .refl rfl (fun _ member => .inl member) (fun _ member => .inl member)
    refine marked.trans (.write low below means ?_ .refl rfl
      (fun _ member => .inl member) (fun _ member => .inl member))
    intro old held
    rw [verdictAt_statusInsert, if_pos rfl] at held
    exact (Option.some.inj held).symm
  rw [finalizeAncestor] at ran
  cases found : tracker.status.get cur.slot with
  | none =>
    simp only [found] at ran
    cases ran
    exact write (by simp [verdictAt_of_status found])
  | some old =>
    obtain ⟨status, hash⟩ := old
    cases status with
    | notarized =>
      simp only [found] at ran
      split at ran
      · cases ran
        exact write (by simp [verdictAt_of_status found, FinStatus.verdict])
      · cases ran
    | finalPendingNotar =>
      simp only [found] at ran
      cases ran
      exact write (by simp [verdictAt_of_status found, FinStatus.verdict])
    | finalized | implicitlyFinalized =>
      simp only [found] at ran
      split at ran
      · rename_i same
        cases ran
        subst same
        exact restore rfl (by simp [verdictAt_of_status found, FinStatus.verdict])
      · cases ran
    | implicitlySkipped => simp [found] at ran

theorem handleImplicitlyFinalized_walk
    (ran : handleImplicitlyFinalized bound tracker source cur event = .ok (after, event')) :
    Walk tracker source cur event after event' := by
  induction bound generalizing tracker source cur event with
  | zero => cases ran
  | succ bound ih =>
    rw [handleImplicitlyFinalized] at ran
    obtain ⟨_, asserted, ran⟩ := bind_eq_ok.mp ran
    have below : cur.slot < source := of_decide_eq_true (assert_eq_ok.mp asserted)
    split at ran
    · cases ran
      exact .stay
    rename_i inside
    have low := not_lt.mp inside
    obtain ⟨⟨middle, event₁, known⟩, passed, ran⟩ := bind_eq_ok.mp ran
    have inBetween : ∀ slot ∈ List.range' (cur.slot + 1) (source - (cur.slot + 1)),
        cur.slot < slot ∧ slot < source := by
      intro slot member
      rw [List.mem_range'_1] at member
      omega
    have first := skipBetween_walk low inBetween passed
    simp only at ran
    split at ran
    · cases ran
      exact first
    obtain ⟨⟨marked, event₂, more⟩, ancestor, ran⟩ := bind_eq_ok.mp ran
    have second := first.trans (finalizeAncestor_walk (first.first ▸ low) below ancestor)
    split at ran
    · cases link : marked.parents.get cur with
      | none =>
        rw [link] at ran
        cases ran
        exact second
      | some parent =>
        rw [link] at ran
        exact second.trans ((ih ran).ofParent below link)
    · cases ran
      exact second

@[simp] theorem statusInsert_statusInsert (hash hash' : BlockHash) :
    (tracker.statusInsert slot first hash).statusInsert slot second hash' = tracker.statusInsert slot second hash' := by
  simp only [statusInsert, Table.insert_insert]

/-- The effect of pruning: the root moves over decided slots, and what is
below it is forgotten. -/
structure Pruned (before after : FinalityTracker) : Prop where
  highest : after.highestFinalizedSlot = before.highestFinalizedSlot
  first : before.firstUnprunedSlot ≤ after.firstUnprunedSlot
  passed : ∀ slot, before.firstUnprunedSlot < slot → slot ≤ after.firstUnprunedSlot →
    ∃ verdict, before.verdictAt slot = some verdict
  status : ∀ slot, after.status.get slot =
    if after.firstUnprunedSlot ≤ slot then before.status.get slot else none
  parents : ∀ block, after.parents.get block =
    if after.firstUnprunedSlot ≤ block.slot then before.parents.get block else none

theorem firstUndecided_spec (ran : firstUndecided tracker.status remaining first = .ok root) :
    first ≤ root ∧ ∀ slot, first < slot → slot ≤ root → ∃ verdict, tracker.verdictAt slot = some verdict := by
  induction remaining generalizing first with
  | zero => cases ran
  | succ remaining ih =>
    have stop : ∀ {root}, first = root →
        first ≤ root ∧ ∀ slot, first < slot → slot ≤ root → ∃ verdict, tracker.verdictAt slot = some verdict := by
      intro root same
      exact ⟨le_of_eq same, fun slot low high => absurd high (by omega)⟩
    rw [firstUndecided] at ran
    cases found : tracker.status.get (first + 1) with
    | none =>
      rw [found] at ran
      exact stop (Except.ok.inj ran)
    | some entry =>
      simp only [found] at ran
      split at ran
      · rename_i decided
        obtain ⟨further, between⟩ := ih ran
        refine ⟨by omega, ?_⟩
        intro slot low high
        by_cases here : slot = first + 1
        · rw [here, verdictAt_of_status found]
          exact FinStatus.decided_iff.mp decided
        · exact between slot (by omega) high
      · exact stop (Except.ok.inj ran)

theorem prune_pruned (ran : tracker.prune = .ok after) : Pruned tracker after := by
  obtain ⟨root, found, done⟩ := bind_eq_ok.mp ran
  cases done
  obtain ⟨moved, passed⟩ := firstUndecided_spec found
  refine ⟨rfl, moved, passed, ?_, ?_⟩
  · intro slot
    simp [Table.get_retain_key]
  · intro block
    simp [Table.get_retain_key]

theorem handleFinalizedBlock_walk (ran : tracker.handleFinalizedBlock block event = .ok (after, event')) :
    ∃ walked, Walk { tracker with highestFinalizedSlot := max tracker.highestFinalizedSlot block.slot }
        (block.slot + 1) block { event with finalized := some block } walked event' ∧
      Pruned walked after := by
  rw [handleFinalizedBlock] at ran
  cases link : tracker.parents.get block with
  | none =>
    simp only [link] at ran
    obtain ⟨⟨walked, event₁⟩, stayed, ran⟩ := bind_eq_ok.mp ran
    cases stayed
    obtain ⟨pruned, prune, done⟩ := bind_eq_ok.mp ran
    cases done
    exact ⟨_, .stay, prune_pruned prune⟩
  | some parent =>
    simp only [link] at ran
    obtain ⟨⟨walked, event₁⟩, walk, ran⟩ := bind_eq_ok.mp ran
    obtain ⟨pruned, prune, done⟩ := bind_eq_ok.mp ran
    cases done
    exact ⟨walked, (handleImplicitlyFinalized_walk walk).ofParent (Nat.lt_succ_self _) link, prune_pruned prune⟩

end FinalityTracker

end Karstflow.Alpenglow
