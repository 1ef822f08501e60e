import Karstflow.Data.Crc32
import Karstflow.Storage.StoreRecovery
import Mathlib.Data.List.Dedup

namespace Karstflow.Storage

open Data List Option Function

/-! Batches are atomic as long as none of them meets another call or an entry
that was left in the log. -/

variable {crc : List UInt8 → Octets 4} {takes : List UInt8 → Nat} {batch : WriteBatch} {base view : View} {wal : List UInt8}

theorem applyAll_untouched
    (untouched : ∀ operation ∈ operations, operation.key ≠ key) : applyAll contents operations key = contents key := by
  induction operations generalizing contents with
  | nil => rfl
  | cons operation rest ih =>
    obtain ⟨first, others⟩ := forall_mem_cons.mp untouched
    exact (ih others).trans (update_of_ne first.symm _ _)

theorem applyAll_congr (agree : ∀ key, (∀ operation ∈ operations, operation.key ≠ key) → first key = second key) :
    applyAll first operations = applyAll second operations := by
  induction operations generalizing first second with
  | nil =>
    funext key
    exact agree key fun operation member => absurd member not_mem_nil
  | cons operation rest ih =>
    apply ih
    intro key untouched
    change update first operation.key operation.outcome key =
      update second operation.key operation.outcome key
    rw [update_apply, update_apply]
    by_cases same : key = operation.key
    · rw [if_pos same, if_pos same]
    · rw [if_neg same, if_neg same]
      exact agree key (forall_mem_cons.mpr ⟨symm same, untouched⟩)

/-- A batch that was applied in part may be applied from its beginning. -/
theorem applyAll_again : applyAll (applyAll contents front) (front ++ back) = applyAll contents (front ++ back) := by
  apply applyAll_congr
  intro key untouched
  exact applyAll_untouched fun operation member => untouched operation (mem_append_left back member)

def Move.onView : Move → View → View
  | .file (.apply family operation), view => operationEffect family operation view
  | _, view => view

def Move.onWal : Move → List UInt8 → List UInt8
  | .file .truncateWal, _ => []
  | .file (.writeWal entry), wal => writeAt wal entry 0
  | _, wal => wal

/-- The move writes to families that are open at a replay, and its write is whole. -/
def Move.isStandard (crc : List UInt8 → Octets 4) (takes : List UInt8 → Nat) : Move → Prop
  | .file (.apply family operation) => family ∈ standardColumnFamilies ∧ operation.whole crc takes = true
  | .file (.writeWal entry) => entry.length ≤ takes entry
  | _ => True

/-- What is read after a crash. -/
def promised (batch : WriteBatch) (base : View) (committed : Bool) : View :=
  if committed = true then batchEffect batch base else base

/-- Along the moves, a crash shows all of the batch or nothing of it, and the
batch stays once it has been there. -/
def Safe (crc : List UInt8 → Octets 4) (takes : List UInt8 → Nat) (batch : WriteBatch) (base : View) :
    Bool → View → List UInt8 → List Move → Prop
  | committed, view, wal, [] => committed = true ∧ parseWalEntry crc wal = none ∧ view = batchEffect batch base
  | committed, view, wal, move :: rest =>
    Recovers crc takes view wal (promised batch base committed) ∧ move.isStandard crc takes ∧
      (Safe crc takes batch base committed (move.onView view) (move.onWal wal) rest ∨
        committed = false ∧ Safe crc takes batch base true (move.onView view) (move.onWal wal) rest)

theorem Safe.recovers (safe : Safe crc takes batch base committed view wal moves) :
    Recovers crc takes view wal (promised batch base committed) := by
  cases moves with
  | nil =>
    obtain ⟨rfl, nothing, rfl⟩ := safe
    exact .clean nothing
  | cons move rest => exact safe.1

theorem safe_cons (recovers : Recovers crc takes view wal (promised batch base committed)) (standard : move.isStandard crc takes)
    (safe : Safe crc takes batch base committed (move.onView view) (move.onWal wal) rest) :
    Safe crc takes batch base committed view wal (move :: rest) :=
  ⟨recovers, standard, .inl safe⟩

section

variable (standard : batch.isStandard crc takes)

include standard

/-- With the entry in the log, a crash shows the batch wherever each family has
got to. -/
theorem recovers_entry
    (reached : ∀ family, ∃ front back, batch.on family = front ++ back ∧ view family = applyAll (base family) front) :
    Recovers crc takes view (encodeWalEntry crc batch) (promised batch base true) := by
  have same : promised batch base true = batchEffect batch view := by
    funext family
    obtain ⟨front, back, split, applied⟩ := reached family
    change applyAll (base family) (batch.on family) = applyAll (view family) (batch.on family)
    rw [applied, split, applyAll_again]
  rw [same]
  exact .replayed batch standard (parseWalEntry_batch standard)

theorem safe_clearMoves : Safe crc takes batch base true (batchEffect batch base) (encodeWalEntry crc batch) clearMoves := by
  have pending : Recovers crc takes (batchEffect batch base) (encodeWalEntry crc batch) (promised batch base true) :=
    recovers_entry standard fun family => ⟨batch.on family, [], (append_nil _).symm, rfl⟩
  have cleared : Recovers crc takes (batchEffect batch base) [] (promised batch base true) := .clean rfl
  exact safe_cons pending trivial (safe_cons pending trivial (safe_cons cleared trivial
    (safe_cons cleared trivial ⟨rfl, rfl, rfl⟩)))

theorem safe_operations (known : family ∈ standardColumnFamilies)
    (whole : ∀ operation ∈ batch.on family, operation.whole crc takes = true)
    {front back : List Operation} {more : List Move} (split : batch.on family = front ++ back)
    (applied : view family = applyAll (base family) front)
    (others : ∀ other ≠ family, ∃ front back, batch.on other = front ++ back ∧ view other = applyAll (base other) front)
    (rest : Safe crc takes batch base true (update view family (applyAll (base family) (batch.on family)))
      (encodeWalEntry crc batch) more) : Safe crc takes batch base true view (encodeWalEntry crc batch)
      ((back.map fun operation => Move.file (.apply family operation)) ++ more) := by
  induction back generalizing view front with
  | nil =>
    rw [split, append_nil, ← applied, update_eq_self] at rest
    exact rest
  | cons operation back ih =>
    have pending : Recovers crc takes view (encodeWalEntry crc batch) (promised batch base true) := by
      apply recovers_entry standard
      intro other
      by_cases same : other = family
      · rw [same]
        exact ⟨front, operation :: back, split, applied⟩
      · exact others other same
    have here : operation ∈ batch.on family := split ▸ mem_append_right front mem_cons_self
    refine safe_cons pending ⟨known, whole operation here⟩ ?_
    apply @ih (operationEffect family operation view) (front ++ [operation])
    · rw [split, append_assoc]
      rfl
    · rw [operationEffect, update_self, applied, applyAll_append]
      rfl
    · intro other different
      rw [operationEffect, update_of_ne different]
      exact others other different
    · rw [operationEffect, update_idem]
      exact rest

theorem whole_on : ∀ operation ∈ batch.on family, operation.whole crc takes = true := by
  intro operation member
  obtain ⟨op, listed, rfl⟩ := mem_map.mp member
  exact (WriteOp.isStandard_iff.mp (standard op (mem_filter.mp listed).1)).2

theorem safe_families {order : List FamilyName} (distinct : order.Nodup)
    (known : ∀ family ∈ order, family ∈ standardColumnFamilies)
    (untouched : ∀ family ∈ order, view family = base family)
    (applied : ∀ family ∉ order, view family = applyAll (base family) (batch.on family)) :
    Safe crc takes batch base true view (encodeWalEntry crc batch) (order.flatMap (applyMoves batch) ++ clearMoves) := by
  induction order generalizing view with
  | nil =>
    have all : view = batchEffect batch base := funext fun family => applied family not_mem_nil
    rw [all]
    exact safe_clearMoves standard
  | cons family order ih =>
    obtain ⟨fresh, distinctRest⟩ := nodup_cons.mp distinct
    have reached : ∀ other, ∃ front back, batch.on other = front ++ back ∧
        view other = applyAll (base other) front := by
      intro other
      by_cases coming : other ∈ family :: order
      · exact ⟨[], batch.on other, rfl, untouched other coming⟩
      · exact ⟨batch.on other, [], (append_nil _).symm, applied other coming⟩
    let done := update view family (applyAll (base family) (batch.on family))
    have doneApplied : ∀ other ∉ order, done other = applyAll (base other) (batch.on other) := by
      intro other past
      by_cases same : other = family
      · rw [same]
        exact update_self family _ view
      · exact (update_of_ne same _ view).trans
          (applied other (fun member => (mem_cons.mp member).elim same past))
    have doneUntouched : ∀ other ∈ order, done other = base other := by
      intro other coming
      have different : other ≠ family := fun same => fresh (same ▸ coming)
      exact (update_of_ne different _ view).trans (untouched other (mem_cons_of_mem _ coming))
    have pendingDone : Recovers crc takes done (encodeWalEntry crc batch) (promised batch base true) := by
      apply recovers_entry standard
      intro other
      by_cases coming : other ∈ order
      · exact ⟨[], batch.on other, rfl, doneUntouched other coming⟩
      · exact ⟨batch.on other, [], (append_nil _).symm, doneApplied other coming⟩
    have later := ih distinctRest (fun other member => known other (mem_cons_of_mem _ member))
      doneUntouched doneApplied
    rw [flatMap_cons, applyMoves, append_assoc, append_assoc, cons_append]
    refine safe_cons (recovers_entry standard reached) trivial ?_
    refine @safe_operations crc takes batch base view standard family (known family mem_cons_self)
      (whole_on standard) [] _ _ rfl (untouched family mem_cons_self) (fun other _ => reached other) ?_
    exact safe_cons pendingDone trivial (safe_cons pendingDone trivial later)

end

theorem on_eq_nil (absent : family ∉ batch.families) : batch.on family = [] := by
  rw [WriteBatch.families, mem_dedup] at absent
  rw [WriteBatch.on, map_eq_nil_iff, filter_eq_nil_iff]
  intro op member same
  exact absent (mem_map.mpr ⟨op, member, of_decide_eq_true same⟩)

/-- A call that begins with nothing in the log. An empty batch has taken its
effect before it does anything. -/
theorem safe_writeBatchMoves (standard : batch.isStandard crc takes)
    (entire : (encodeWalEntry crc batch).length ≤ takes (encodeWalEntry crc batch)) {order : List FamilyName}
    (permuted : order.Perm batch.families) (nothing : parseWalEntry crc wal = none) :
    Safe crc takes batch base (batch.ops = []) base wal (writeBatchMoves crc batch order) := by
  have known : ∀ family ∈ order, family ∈ standardColumnFamilies := by
    intro family member
    obtain ⟨op, opMember, rfl⟩ := mem_map.mp (mem_dedup.mp (permuted.mem_iff.mp member))
    exact (WriteOp.isStandard_iff.mp (standard op opMember)).1
  by_cases empty : batch.ops = []
  · have same : batchEffect batch base = base := by
      funext family
      rw [batchEffect, WriteBatch.on, empty]
      rfl
    rw [decide_eq_true empty, writeBatchMoves, if_pos empty]
    exact ⟨rfl, nothing, same.symm⟩
  · have announced := @safe_families crc takes batch base base standard order (permuted.nodup_iff.mpr (nodup_dedup _))
      known (fun family _ => rfl) (by
        intro family absent
        rw [on_eq_nil (fun member => absent (permuted.mem_iff.mpr member))]
        rfl)
    have pending : Recovers crc takes base (encodeWalEntry crc batch) (promised batch base true) :=
      recovers_entry standard fun family => ⟨[], batch.on family, rfl, rfl⟩
    have truncated : Recovers crc takes base [] (promised batch base false) := .clean rfl
    have entry : writeAt [] (encodeWalEntry crc batch) 0 = encodeWalEntry crc batch := by
      rw [writeAt, resizeBytes_nil, replicate_zero, nil_append, drop_nil, append_nil]
    rw [decide_eq_false empty, writeBatchMoves, if_neg empty]
    refine safe_cons (.clean nothing) trivial (safe_cons (.clean nothing) trivial ⟨truncated, entire, .inr ⟨rfl, ?_⟩⟩)
    change Safe crc takes batch base true base (writeAt [] (encodeWalEntry crc batch) 0) _
    rw [entry]
    exact safe_cons pending trivial (safe_cons pending trivial announced)

/-- A put, a delete or a batch comes up when no batch is being written and
nothing is left in the log, a batch keeps to the standard families, and every
record and every entry of the log is taken by one write call. -/
def Machine.orderly (crc : List UInt8 → Octets 4) (takes : List UInt8 → Nat) : Machine → Event → Bool
  | .up store calls, .perform _ operation =>
    calls.entries.isEmpty && (parseWalEntry crc store.wal).isNone && operation.whole crc takes
  | .up store calls, .begin _ batch _ =>
    calls.entries.isEmpty && (parseWalEntry crc store.wal).isNone && batch.ops.all (WriteOp.isStandard crc takes) &&
      (encodeWalEntry crc batch).length ≤ takes (encodeWalEntry crc batch)
  | _, _ => true

def Machine.orderlyRun (crc : List UInt8 → Octets 4) (takes : List UInt8 → Nat) : Machine → List Event → Bool
  | _, [] => true
  | machine, event :: rest =>
    machine.orderly crc takes event &&
      match machine.step crc takes event with
      | some (next, _) => orderlyRun crc takes next rest
      | none => true

/-- One call is being written. -/
def underway (batch : WriteBatch) (base : View) (committed : Bool) (call : Nat) : Atomic.State View Nat :=
  { contents := promised batch base committed
    calls := update (fun _ => none) call
      (some (if committed = true then .done else .pending (batchEffect batch))) }

theorem finish_underway : (underway batch base committed call).finish call = .idle (promised batch base committed) := by
  rw [Atomic.State.finish, underway, update_idem, update_eq_self]
  rfl

theorem calls_underway : (underway batch base committed call).calls call =
      some (if committed = true then .done else .pending (batchEffect batch)) := by
  simp only [underway, update_self]

theorem admits_underway (admits : Atomic.Admits (underway batch base true call) labels) :
    Atomic.Admits (underway batch base false call) labels := by
  refine .commit calls_underway ?_
  rw [Atomic.State.commit, underway, update_idem]
  exact admits

/-- The machine against the atomic store: at most one call is under way. -/
inductive Simulates (crc : List UInt8 → Octets 4) (takes : List UInt8 → Nat) : Machine → Atomic.State View Nat → Prop where
  | down {files : FamilyName → List UInt8} {wal : List UInt8} {view shown : View}
      (whole : ∀ family, FileHolds crc (files family) (view family)) (recovers : Recovers crc takes view wal shown) :
      Simulates crc takes (.down files wal) (.idle shown)
  | idle {store : FileDurableStore} {calls : Table Nat Call} {view shown : View}
      (noCall : ∀ call, calls.get call = none) (holds : StoreHolds crc store view)
      (recovers : Recovers crc takes view store.wal shown) : Simulates crc takes (.up store calls) (.idle shown)
  | busy {store : FileDurableStore} {calls : Table Nat Call} {call : Nat} {running : Call} {batch : WriteBatch}
      {base view : View} {committed : Bool}
      (one : ∀ other, calls.get other = if other = call then some running else none)
      (holds : StoreHolds crc store view) (safe : Safe crc takes batch base committed view store.wal running.todo) :
      Simulates crc takes (.up store calls) (underway batch base committed call)

/-- The atomic store can follow: it shows what was seen and comes to a state
that the machine is simulated by. -/
def Follows (crc : List UInt8 → Octets 4) (takes : List UInt8 → Nat) (state : Atomic.State View Nat) (next : Machine) (seen : List Seen) : Prop :=
  ∃ after, (∀ labels, Atomic.Admits after labels → Atomic.Admits state (seen ++ labels)) ∧ Simulates crc takes next after

section

variable {calls : Table Nat Call} {next : Machine}

theorem get_eq_none_of_isEmpty (quiet : calls.entries.isEmpty = true) (call : Nat) : calls.get call = none := by
  cases found : calls.get call with
  | none => rfl
  | some running =>
    have member := Table.get_eq_some_iff_mem.mp found
    rw [isEmpty_iff.mp quiet] at member
    cases member

theorem Recovers.eq_of_isNone (recovers : Recovers crc takes view wal shown)
    (nothing : (parseWalEntry crc wal).isNone = true) : shown = view := by
  rw [isNone_iff_eq_none] at nothing
  cases recovers with
  | clean _ => rfl
  | replayed batch standard entry =>
    rw [nothing] at entry
    cases entry

theorem StoreHolds.carryOut (holds : StoreHolds crc store view) (standard : (Move.file op).isStandard crc takes) :
    StoreHolds crc (store.carryOut crc takes op) ((Move.file op).onView view) ∧
      (store.carryOut crc takes op).wal = (Move.file op).onWal store.wal := by
  cases op with
  | truncateWal => exact ⟨holds.withWal [], rfl⟩
  | writeWal entry =>
      refine ⟨holds.withWal _, ?_⟩
      rw [FileDurableStore.carryOut, writeAtChecked, take_of_length_le standard]
      rfl
  | syncWal | syncFamily family => exact ⟨holds, rfl⟩
  | apply family operation => exact ⟨holds.perform (holds.standard family standard.1) standard.2, rfl⟩

theorem follows_move {committed : Bool} {move : Move} {after : FileDurableStore}
    (one : ∀ other, calls.get other = if other = call then some running else none)
    (holds : StoreHolds crc after (move.onView view)) (log : after.wal = move.onWal wal)
    (safe : Safe crc takes batch base committed view wal (move :: later.todo)) :
    Follows crc takes (underway batch base committed call) (.up after (calls.insert call later)) [] := by
  have oneLater : ∀ other, (calls.insert call later).get other = if other = call then some later else none := by
    intro other
    rw [Table.get_insert, one]
    by_cases same : other = call
    · rw [if_pos same, if_pos same]
    · rw [if_neg same, if_neg same, if_neg same]
  obtain ⟨-, -, stays | ⟨rfl, commits⟩⟩ := safe
  · rw [← log] at stays
    exact ⟨_, fun labels admits => admits, .busy oneLater holds stays⟩
  · rw [← log] at commits
    exact ⟨_, fun labels admits => admits_underway admits, .busy oneLater holds commits⟩

theorem follows_down
    (whole : ∀ family, FileHolds crc (files family) (view family)) (recovers : Recovers crc takes view wal shown)
    (stepped : (Machine.down files wal).step crc takes event = some (next, seen)) : Follows crc takes (.idle shown) next seen := by
  cases event with
  | start =>
    obtain ⟨store, opened, holds, cleared⟩ := openStore_holds whole recovers
    rw [Machine.step, opened] at stepped
    cases stepped
    refine ⟨_, ?_, .idle (fun call => rfl) holds (.clean cleared)⟩
    intro labels admits
    rw [holds.view_eq]
    exact .observed admits
  | openTree _ | perform _ _ | begin _ _ _ | advance _ | fail _ | finish _ | crash => cases stepped

theorem follows_idle (noCall : ∀ call, calls.get call = none) (holds : StoreHolds crc store view)
    (recovers : Recovers crc takes view store.wal shown) (orderly : (Machine.up store calls).orderly crc takes event = true)
    (stepped : (Machine.up store calls).step crc takes event = some (next, seen)) : Follows crc takes (.idle shown) next seen := by
  cases event with
  | start => cases stepped
  | openTree family =>
    rw [Machine.step] at stepped
    cases opened : store.openTree crc family with
    | error error =>
      rw [opened] at stepped
      cases stepped
    | ok opener =>
      rw [opened] at stepped
      cases stepped
      obtain ⟨after, log⟩ := holds.openTree opened
      exact ⟨_, fun labels admits => admits, .idle noCall after (log ▸ recovers)⟩
  | perform family operation =>
    rw [Machine.orderly, Bool.and_eq_true, Bool.and_eq_true] at orderly
    obtain ⟨⟨-, nothing⟩, whole⟩ := orderly
    rw [Machine.step] at stepped
    split at stepped
    · rename_i possible
      cases stepped
      have same := recovers.eq_of_isNone nothing
      refine ⟨_, ?_, .idle noCall (holds.perform possible.1 whole) (.clean (isNone_iff_eq_none.mp nothing))⟩
      intro labels admits
      rw [same]
      exact .immediate admits
    · cases stepped
  | begin call batch order =>
    rw [Machine.orderly, Bool.and_eq_true, Bool.and_eq_true, Bool.and_eq_true] at orderly
    obtain ⟨⟨⟨-, nothing⟩, standard⟩, entire⟩ := orderly
    have same := recovers.eq_of_isNone nothing
    rw [Machine.step] at stepped
    split at stepped
    · cases stepped
    rename_i possible
    have permuted := not_not.mp (not_or.mp possible).2
    split at stepped
    · cases stepped
      have safe := @safe_writeBatchMoves crc takes batch view store.wal (all_eq_true.mp standard)
        (of_decide_eq_true entire) order permuted (isNone_iff_eq_none.mp nothing)
      let running : Call := { todo := writeBatchMoves crc batch order, held := none }
      have one : ∀ other, (calls.insert call running).get other = if other = call then some running else none := by
        intro other
        rw [Table.get_insert, noCall]
      refine ⟨_, ?_, .busy one holds safe⟩
      intro labels admits
      rw [same]
      refine .began rfl ?_
      by_cases empty : batch.ops = []
      · rw [decide_eq_true empty] at admits
        exact admits_underway admits
      · rw [decide_eq_false empty] at admits
        exact admits
    · cases stepped
      exact ⟨_, fun labels admits => admits, .idle noCall holds recovers⟩
  | advance call | fail call | finish call =>
    rw [Machine.step, noCall] at stepped
    cases stepped
  | crash =>
    cases stepped
    exact ⟨_, fun labels admits => .crashed admits, .down holds.file recovers⟩

theorem follows_moveOn (one : ∀ other, calls.get other = if other = call then some running else none)
    (holds : StoreHolds crc store view) (safe : Safe crc takes batch base committed view store.wal moves)
    (moved : moveOn crc takes store calls call held moves = some next) :
    Follows crc takes (underway batch base committed call) next [] := by
  cases moves with
  | nil => cases moved
  | cons move rest =>
    cases move with
    | acquire lock =>
      rw [moveOn] at moved
      split at moved
      · cases moved
        exact @follows_move crc takes batch base view store.wal calls call running { todo := rest, held := some lock }
          committed (.acquire lock) store one holds rfl safe
      · cases moved
    | file op =>
      cases moved
      obtain ⟨after, log⟩ := holds.carryOut safe.2.1
      exact @follows_move crc takes batch base view store.wal calls call running { todo := rest, held } committed _ _ one
        after log safe
    | release =>
      cases moved
      exact @follows_move crc takes batch base view store.wal calls call running { todo := rest, held := none } committed
        .release store one holds rfl safe

theorem follows_busy (one : ∀ other, calls.get other = if other = call then some running else none)
    (holds : StoreHolds crc store view) (safe : Safe crc takes batch base committed view store.wal running.todo)
    (orderly : (Machine.up store calls).orderly crc takes event = true)
    (stepped : (Machine.up store calls).step crc takes event = some (next, seen)) :
    Follows crc takes (underway batch base committed call) next seen := by
  have here : calls.get call = some running := by rw [one, if_pos rfl]
  have notQuiet : calls.entries.isEmpty ≠ true := by
    intro quiet
    rw [get_eq_none_of_isEmpty quiet] at here
    cases here
  have gone : ∀ other, (calls.erase call).get other = none := by
    intro other
    rw [Table.get_erase, one]
    by_cases same : other = call
    · rw [if_pos same]
    · rw [if_neg same, if_neg same]
  cases event with
  | start => cases stepped
  | openTree family =>
    rw [Machine.step] at stepped
    cases opened : store.openTree crc family with
    | error error =>
      rw [opened] at stepped
      cases stepped
    | ok opener =>
      rw [opened] at stepped
      cases stepped
      obtain ⟨after, log⟩ := holds.openTree opened
      exact ⟨_, fun labels admits => admits, .busy one after (log ▸ safe)⟩
  | perform family operation =>
    rw [Machine.orderly, Bool.and_eq_true, Bool.and_eq_true] at orderly
    exact absurd orderly.1.1 notQuiet
  | begin other batch order =>
    rw [Machine.orderly, Bool.and_eq_true, Bool.and_eq_true, Bool.and_eq_true] at orderly
    exact absurd orderly.1.1.1 notQuiet
  | advance other =>
    rw [Machine.step, one] at stepped
    by_cases same : other = call
    · rw [if_pos same] at stepped
      subst same
      obtain ⟨moved, ran, shown⟩ := map_eq_some_iff.mp stepped
      cases shown
      exact follows_moveOn one holds safe ran
    · rw [if_neg same] at stepped
      cases stepped
  | fail other =>
    rw [Machine.step, one] at stepped
    by_cases same : other = call
    · subst same
      split at stepped
      · cases stepped
        refine ⟨.idle (promised batch base committed), ?_, .idle gone holds safe.recovers⟩
        intro labels admits
        refine .failed calls_underway ?_
        rw [finish_underway]
        exact admits
      · cases stepped
    · rw [if_neg same] at stepped
      cases stepped
  | finish other =>
    rw [Machine.step, one] at stepped
    by_cases same : other = call
    · rw [if_pos same, map_some] at stepped
      subst same
      split at stepped
      · rename_i finished
        cases stepped
        rw [some.inj finished] at safe
        have recovers := safe.recovers
        obtain ⟨rfl, -, -⟩ := safe
        refine ⟨.idle (promised batch base true), ?_, .idle gone holds recovers⟩
        intro labels admits
        refine .succeeded calls_underway ?_
        rw [finish_underway]
        exact admits
      · cases stepped
    · rw [if_neg same] at stepped
      cases stepped
  | crash =>
    cases stepped
    exact ⟨_, fun labels admits => .crashed admits, .down holds.file safe.recovers⟩

theorem Simulates.step (simulates : Simulates crc takes machine state)
    (orderly : machine.orderly crc takes event = true) (stepped : machine.step crc takes event = some (next, seen)) :
    Follows crc takes state next seen := by
  cases simulates with
  | down whole recovers => exact follows_down whole recovers stepped
  | idle noCall holds recovers => exact follows_idle noCall holds recovers orderly stepped
  | busy one holds safe => exact follows_busy one holds safe orderly stepped

theorem Simulates.run (simulates : Simulates crc takes machine state)
    (ran : machine.run crc takes events = some (final, labels)) (orderly : machine.orderlyRun crc takes events = true) :
    Atomic.Admits state labels := by
  induction events generalizing machine state labels with
  | nil =>
    cases ran
    exact .nothing state
  | cons event rest ih =>
    rw [Machine.run] at ran
    rw [Machine.orderlyRun, Bool.and_eq_true] at orderly
    cases stepped : machine.step crc takes event with
    | none =>
      rw [stepped] at ran
      cases ran
    | some result =>
      rw [stepped] at ran orderly
      simp only [bind_eq_bind, bind_some] at ran
      obtain ⟨⟨last, later⟩, ranRest, shown⟩ := bind_eq_some_iff.mp ran
      cases shown
      obtain ⟨after, follows, simulatesNext⟩ := simulates.step orderly.1 stepped
      exact follows later (ih simulatesNext ranRest orderly.2)

end

/-- In every run in which batches meet neither each other, nor other writes,
nor an entry left in the log, nor families that are not open at a replay, nor a
write call that takes less than its buffer, the store is atomic: each batch takes effect as a whole between its beginning and
its return, or not at all if it failed or was cut off, and what is read after
a crash is what all that succeeded has left. -/
theorem orderly_run_atomic {final : Machine} {events : List Event} {labels : List Seen}
    (ran : Machine.fresh.run crc takes events = some (final, labels))
    (orderly : Machine.fresh.orderlyRun crc takes events = true) : Atomic.Admits (.idle fun _ _ => none) labels := by
  have whole : ∀ family : FamilyName, FileHolds crc [] ((fun _ _ => none : View) family) :=
    fun family => .inl ⟨rfl, rfl⟩
  have nothing : parseWalEntry crc [] = none := rfl
  exact (Simulates.down whole (.clean nothing)).run ran orderly

def bytePut (family : String) (key value : UInt8) : WriteOp :=
  { family := familyName family
    operation := .put ⟨[key], by rw [length_singleton]; decide⟩ ⟨[value], by rw [length_singleton]; decide⟩ }

def accountsBatch : WriteBatch := ⟨[bytePut "accounts" 1 10], by decide⟩

def spanningBatch : WriteBatch := ⟨[bytePut "accounts" 1 10, bytePut "roots" 2 20], by decide⟩

def rootsBatch : WriteBatch := ⟨[bytePut "roots" 3 30], by decide⟩

def customBatch : WriteBatch := ⟨[bytePut "accounts" 1 10, bytePut "custom" 2 20], by decide⟩

def accountsFirst : List FamilyName := [familyName "accounts", familyName "roots"]

def readAfter (events : List Event) (family : String) (key : UInt8) : Option (List UInt8) := do
  let (machine, _) ← Machine.fresh.run crc32Bytes length events
  match machine with
  | .up store _ => store.view crc32Bytes (familyName family) [key]
  | .down _ _ => none

/-- A batch is cut off between its two families. -/
def cutOffRun : List Event :=
  [.start, .begin 0 spanningBatch accountsFirst] ++ replicate 8 (.advance 0) ++ [.crash, .start]

theorem cutOffRun_atomic : ∃ final labels, Machine.fresh.run crc32Bytes length cutOffRun = some (final, labels) ∧
      Atomic.Admits (.idle fun _ _ => none) labels := by
  obtain ⟨⟨final, labels⟩, ran⟩ := isSome_iff_exists.mp
    (show (Machine.fresh.run crc32Bytes length cutOffRun).isSome = true by decide +kernel)
  exact ⟨final, labels, ran, orderly_run_atomic ran (by decide +kernel)⟩

/-- The sync of the log fails, the batch returns an error, and a later put succeeds. -/
def failedSyncRun : List Event :=
  [.start, .begin 0 accountsBatch [familyName "accounts"]] ++ replicate 3 (.advance 0) ++
    [.fail 0, .perform (familyName "accounts") (bytePut "accounts" 1 99).operation, .crash, .start]

/-- A second batch truncates the log while the first is between its families. -/
def overlappingRun : List Event :=
  [.start, .begin 0 spanningBatch accountsFirst] ++ replicate 8 (.advance 0) ++
    [.begin 1 rootsBatch [familyName "roots"], .advance 1, .advance 1, .crash, .start]

/-- A batch on a family that is opened later than the log is replayed. -/
def customRun : List Event :=
  [.start, .openTree (familyName "custom"), .begin 0 customBatch [familyName "accounts", familyName "custom"]] ++
    replicate 4 (.advance 0) ++ [.crash, .start, .openTree (familyName "custom")]

/-- The put that succeeded is overwritten by the entry of the batch that
failed before it. The other two runs leave one half of a batch. -/
theorem batches_not_atomic : readAfter failedSyncRun "accounts" 1 = some [10] ∧
    (readAfter overlappingRun "accounts" 1 = some [10] ∧ readAfter overlappingRun "roots" 2 = none) ∧
    (readAfter customRun "accounts" 1 = some [10] ∧ readAfter customRun "custom" 2 = none) := by
  decide +kernel

end Karstflow.Storage
