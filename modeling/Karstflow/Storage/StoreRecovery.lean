import Karstflow.Storage.FileDurableStore

namespace Karstflow.Storage

open Data List Table

/-! A store whose files hold whole records, and what is read after such files
have been opened again. -/

variable
  {view : View}

/-- A file that was never cut: it does not exist yet, or it holds records to its end. -/
def FileHolds (crc : List UInt8 → Octets 4) (file : List UInt8) (contents : Contents) : Prop :=
  (file = [] ∧ contents = fun _ => none) ∨
    ∃ records, file = fileHeader ++ encodeAll crc records ∧ contents = contentsOf records

def FamilyHolds (crc : List UInt8 → Octets 4) (state : CfState) (contents : Contents) : Prop :=
  ∃ records, state.Stores (fileHeader ++ encodeAll crc records) [] contents ∧ contents = contentsOf records

namespace FamilyHolds

section

variable (holds : FamilyHolds crc state contents)

include holds

theorem file : FileHolds crc state.file contents := by
  obtain ⟨records, stores, same⟩ := holds
  exact .inr ⟨records, by rw [stores.file, append_nil], same⟩

theorem get_eq : state.get = contents := by
  obtain ⟨records, stores, -⟩ := holds
  exact funext fun _ => stores.get_eq

theorem perform (whole : operation.whole crc takes = true) :
    FamilyHolds crc (state.perform crc takes operation) (operation.apply contents) := by
  obtain ⟨records, stores, same⟩ := holds
  rw [stores.perform_eq]
  by_cases writes : operation.writes contents = true
  · rw [if_pos writes]
    have appended := stores.appendRecord whole
    rw [drop_nil, append_assoc] at appended
    refine ⟨records ++ [operation], ?_, ?_⟩
    · rw [encodeAll_append, encodeAll_cons, encodeAll_nil, append_nil]
      exact appended
    · rw [contentsOf_append, ← same]
      rfl
  · rw [if_neg writes, operation.apply_of_not_writes (Bool.eq_false_iff.mpr writes)]
    exact ⟨records, stores, same⟩

end

end FamilyHolds

theorem FileHolds.openCf (holds : FileHolds crc file contents) :
    ∃ state, openCf crc file = .ok state ∧ FamilyHolds crc state contents := by
  obtain ⟨rfl, rfl⟩ | ⟨records, rfl, rfl⟩ := holds
  · exact ⟨.new, rfl, [], by rw [encodeAll_nil, append_nil]; exact CfState.Stores.new, rfl⟩
  · have nothing : intact crc [] = false := rfl
    obtain ⟨state, opened, shown, located, fileEnd⟩ := openCf_encodeAll records nothing
    rw [append_nil] at opened shown fileEnd
    exact ⟨state, opened, records, ⟨by rw [shown, append_nil], fileEnd, located⟩, rfl⟩

/-- The store reads `view`, in open families and in those that are not. -/
structure StoreHolds (crc : List UInt8 → Octets 4) (store : FileDurableStore) (view : View) : Prop where
  opened : ∀ family state, store.families.get family = some state → FamilyHolds crc state (view family)
  closed : ∀ family, store.families.get family = none → FileHolds crc (store.closed family) (view family)
  standard : ∀ family ∈ standardColumnFamilies, store.families.contains family = true

namespace StoreHolds

section

variable (holds : StoreHolds crc store view)

include holds

theorem file (family : FamilyName) : FileHolds crc (store.file family) (view family) := by
  rw [FileDurableStore.file]
  cases found : store.families.get family with
  | some state => exact (holds.opened family state found).file
  | none => exact holds.closed family found

theorem view_eq : store.view crc = view := by
  funext family
  rw [FileDurableStore.view]
  cases found : store.families.get family with
  | some state => exact (holds.opened family state found).get_eq
  | none =>
      obtain ⟨state, opened, stored⟩ := (holds.closed family found).openCf
      rw [opened]
      exact stored.get_eq

theorem withWal (wal : List UInt8) : StoreHolds crc { store with wal } view :=
  ⟨holds.opened, holds.closed, holds.standard⟩

theorem perform (isOpen : store.families.contains family = true) (whole : operation.whole crc takes = true) :
    StoreHolds crc (store.perform crc takes family operation) (operationEffect family operation view) := by
  obtain ⟨state, found⟩ := contains_iff.mp isOpen
  have lookup : ∀ other, (store.perform crc takes family operation).families.get other =
      if other = family then some (state.perform crc takes operation) else store.families.get other := by
    intro other
    rw [FileDurableStore.perform, get_modify, found]
    rfl
  refine ⟨?_, ?_, ?_⟩
  · intro other after got
    rw [lookup] at got
    rw [operationEffect, Function.update_apply]
    by_cases same : other = family
    · rw [if_pos same, Option.some.injEq] at got
      rw [if_pos same, ← got]
      exact (holds.opened family state found).perform whole
    · rw [if_neg same] at got
      rw [if_neg same]
      exact holds.opened other after got
  · intro other got
    rw [lookup] at got
    rw [operationEffect, Function.update_apply]
    by_cases same : other = family
    · rw [if_pos same] at got
      cases got
    · rw [if_neg same] at got
      rw [if_neg same]
      exact holds.closed other got
  · intro other member
    rw [Table.contains, lookup]
    by_cases same : other = family
    · rw [if_pos same]
      rfl
    · rw [if_neg same]
      exact holds.standard other member

theorem openTree {next : FileDurableStore} (opened : store.openTree crc family = .ok next) :
    StoreHolds crc next view ∧ next.wal = store.wal := by
  by_cases already : store.families.contains family = true
  · rw [FileDurableStore.openTree, if_pos already] at opened
    cases opened
    exact ⟨holds, rfl⟩
  have absent : store.families.get family = none := by
    rw [Table.contains, Option.not_isSome_iff_eq_none] at already
    exact already
  obtain ⟨state, read, stored⟩ := (holds.closed family absent).openCf
  rw [FileDurableStore.openTree, if_neg already, read] at opened
  cases opened
  refine ⟨⟨?_, ?_, ?_⟩, rfl⟩
  · intro other after got
    rw [get_insert] at got
    by_cases same : other = family
    · rw [if_pos same, Option.some.injEq] at got
      rw [same, ← got]
      exact stored
    · rw [if_neg same] at got
      exact holds.opened other after got
  · intro other got
    rw [get_insert] at got
    by_cases same : other = family
    · rw [if_pos same] at got
      cases got
    · rw [if_neg same] at got
      exact holds.closed other got
  · intro other member
    rw [Table.contains, get_insert]
    by_cases same : other = family
    · rw [if_pos same]
      rfl
    · rw [if_neg same]
      exact holds.standard other member

end

end StoreHolds

theorem openFamilies_holds (whole : ∀ family, FileHolds crc (files family) (view family))
    (names : List FamilyName) : ∃ families, openFamilies crc files names = .ok families ∧
      (∀ family state, families.get family = some state → FamilyHolds crc state (view family)) ∧
      ∀ family ∈ names, families.contains family = true := by
  induction names with
  | nil =>
      refine ⟨empty, rfl, ?_, ?_⟩
      · intro family state got
        cases got
      · intro family member
        cases member
  | cons name names ih =>
      obtain ⟨families, opened, hold, present⟩ := ih
      obtain ⟨state, read, stored⟩ := (whole name).openCf
      refine ⟨families.insert name state, ?_, ?_, ?_⟩
      · rw [openFamilies, read, opened]
        rfl
      · intro family after got
        rw [get_insert] at got
        by_cases same : family = name
        · rw [if_pos same, Option.some.injEq] at got
          rw [same, ← got]
          exact stored
        · rw [if_neg same] at got
          exact hold family after got
      · intro family member
        rw [Table.contains, get_insert]
        by_cases same : family = name
        · rw [if_pos same]
          rfl
        · rw [if_neg same]
          exact present family ((mem_cons.mp member).resolve_left same)

/-- The family is open whenever a log is replayed, and the record is whole. -/
def WriteOp.isStandard (crc : List UInt8 → Octets 4) (takes : List UInt8 → Nat) (op : WriteOp) : Bool :=
  op.family ∈ standardColumnFamilies && op.operation.whole crc takes

def WriteBatch.isStandard (crc : List UInt8 → Octets 4) (takes : List UInt8 → Nat) (batch : WriteBatch) : Prop :=
  ∀ op ∈ batch.ops, op.isStandard crc takes = true

theorem WriteOp.isStandard_iff {op : WriteOp} : op.isStandard crc takes = true ↔
    op.family ∈ standardColumnFamilies ∧ op.operation.whole crc takes = true := by
  rw [isStandard, Bool.and_eq_true, decide_eq_true_eq]

theorem length_standard : ∀ family ∈ standardColumnFamilies, family.length < 256 ^ 2 := by decide +kernel

theorem parseWalEntry_batch (standard : batch.isStandard crc takes) :
    parseWalEntry crc (encodeWalEntry crc batch) = some (batch.ops.map WriteOp.toWal) := by
  rw [← append_nil (encodeWalEntry crc batch)]
  exact parseWalEntry_encode crc fun op member =>
    length_standard op.family (WriteOp.isStandard_iff.mp (standard op member)).1

theorem replayWalOp_toWal (op : WriteOp) : replayWalOp crc takes families op.toWal =
      families.modify op.family fun state => state.perform crc takes op.operation := by
  obtain ⟨family, operation⟩ := op
  cases operation with
  | put key value => rfl
  | delete key => rfl

theorem foldl_operationEffect (ops : List WriteOp) :
    ops.foldl (fun view op => operationEffect op.family op.operation view) view =
      fun family => applyAll (view family) ((ops.filter fun op => op.family = family).map WriteOp.operation) := by
  induction ops generalizing view with
  | nil => rfl
  | cons op ops ih =>
      funext family
      rw [foldl_cons, ih]
      change applyAll (Function.update view op.family _ family) _ = _
      rw [Function.update_apply]
      by_cases same : family = op.family
      · rw [if_pos same, filter_cons_of_pos (by simpa using same.symm), map_cons, same]
        rfl
      · rw [if_neg same, filter_cons_of_neg (by simpa using Ne.symm same)]

theorem StoreHolds.replay (holds : StoreHolds crc store view) {ops : List WriteOp}
    (standard : ∀ op ∈ ops, op.isStandard crc takes = true) :
    StoreHolds crc { store with families := (ops.map WriteOp.toWal).foldl (replayWalOp crc takes) store.families }
      (ops.foldl (fun view op => operationEffect op.family op.operation view) view) := by
  induction ops generalizing store view with
  | nil => exact holds
  | cons op ops ih =>
      obtain ⟨known, whole⟩ := WriteOp.isStandard_iff.mp (standard op mem_cons_self)
      have after := ih (holds.perform (holds.standard op.family known) whole) fun other member =>
        standard other (mem_cons_of_mem _ member)
      rw [map_cons, foldl_cons, replayWalOp_toWal]
      exact after

/-- What is read after the files have been opened again: what they hold, with
the batch in the log applied once more. -/
inductive Recovers (crc : List UInt8 → Octets 4) (takes : List UInt8 → Nat) (view : View) (wal : List UInt8) :
    View → Prop where
  | clean (nothing : parseWalEntry crc wal = none) : Recovers crc takes view wal view
  | replayed (batch : WriteBatch) (standard : batch.isStandard crc takes)
      (entry : parseWalEntry crc wal = some (batch.ops.map WriteOp.toWal)) :
      Recovers crc takes view wal (batchEffect batch view)

theorem openStore_holds (whole : ∀ family, FileHolds crc (files family) (view family))
    (recovers : Recovers crc takes view wal shown) :
    ∃ store, FileDurableStore.openStore crc takes files wal = .ok store ∧ StoreHolds crc store shown ∧
      parseWalEntry crc store.wal = none := by
  obtain ⟨families, opened, hold, present⟩ := openFamilies_holds whole standardColumnFamilies
  have before : StoreHolds crc { families, closed := files, wal } view :=
    ⟨hold, fun family _ => whole family, present⟩
  cases recovers with
  | clean nothing =>
      refine ⟨{ families, closed := files, wal }, ?_, before, nothing⟩
      rw [FileDurableStore.openStore, opened]
      simp only [nothing]
      rfl
  | replayed batch standard entry =>
      have after := (before.replay standard).withWal []
      rw [foldl_operationEffect] at after
      refine ⟨_, ?_, after, rfl⟩
      rw [FileDurableStore.openStore, opened]
      simp only [entry]
      rfl

end Karstflow.Storage
