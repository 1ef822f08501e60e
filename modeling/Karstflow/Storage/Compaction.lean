import Karstflow.Data.Crc32
import Karstflow.Storage.StoreRecovery

namespace Karstflow.Storage

open Data List

/-! A column family behind the read cache, which is written to, read,
compacted and opened again in any order. -/

/-- The file and index of a family, and those of its values that are cached. -/
structure CachedCf where
  state : CfState
  cached : Table (List UInt8) (List UInt8)

inductive CfStep where
  | perform (operation : Operation)
  | read (key : List UInt8)
  | evict (key : List UInt8)
  | compact (deadBytes : Nat)
  | reopen

def CfStep.operation? : CfStep → Option Operation
  | perform operation => some operation
  | _ => none

/-- There is something to compact. -/
def CfState.compacts (state : CfState) (deadBytes : Nat) : Bool :=
  !(state.index.entries.isEmpty && state.fileEnd ≤ cfFileHeaderSize) && deadBytes ≠ 0

namespace CachedCf

section

variable (crc : List UInt8 → Octets 4) (takes : List UInt8 → Nat) (maxBytes : Nat) (cf : FamilyName)
  (family : CachedCf)

/-- A value that takes more than half of the cache is not cached, and what was
there under its key stays. -/
def cache (key value : List UInt8) : Table (List UInt8) (List UInt8) :=
  if maxBytes / 2 < cf.length + key.length + value.length then family.cached else family.cached.insert key value

def get (key : List UInt8) : Option (List UInt8) := (family.cached.get key).or (family.state.get key)

def perform (operation : Operation) : CachedCf :=
  { state := family.state.perform crc takes operation
    cached :=
      match operation with
      | .put key value => family.cache maxBytes cf key.bytes value.bytes
      | .delete key =>
        if family.state.index.contains key.bytes = true then family.cached.erase key.bytes else family.cached }

/-- A value that is not cached is put into the cache. -/
def read (key : List UInt8) : CachedCf :=
  match family.cached.get key, family.state.get key with
  | none, some value => { family with cached := family.cache maxBytes cf key value }
  | _, _ => family

/-- The live records, by key, become the records of a new file. -/
def compactCf (deadBytes : Nat) : CachedCf :=
  if family.state.compacts deadBytes = true then
    { state := (family.state.index.entries.mergeSort fun left right => left.1 ≤ right.1).foldl
        (fun fresh entry => fresh.put crc takes entry.1 (readValue family.state.file entry.2)) .new
      cached := .empty }
  else family

/-- One step. The cache may drop an entry at any time to make room for others. -/
def step (family : CachedCf) : CfStep → Except OpenError CachedCf
  | .perform operation => .ok (family.perform crc takes maxBytes cf operation)
  | .read key => .ok (family.read maxBytes cf key)
  | .evict key => .ok { family with cached := family.cached.erase key }
  | .compact deadBytes => .ok (family.compactCf crc takes deadBytes)
  | .reopen => do
    let state ← openCf crc family.state.file
    return { state, cached := .empty }

/-- The file holds the contents, the cache holds nothing else, and a value that
is read can be written again. -/
structure Holds (contents : Contents) : Prop where
  stored : FamilyHolds crc family.state contents
  cached : ∀ {key value}, family.cached.get key = some value → contents key = some value
  live : ∀ {key value}, contents key = some value → ∃ blob stored : Blob,
    blob.bytes = key ∧ stored.bytes = value ∧ (Operation.put blob stored).whole crc takes = true

end

end CachedCf

/-- The record is whole, and the cache has room for the value. -/
def Operation.cacheable (crc : List UInt8 → Octets 4) (takes : List UInt8 → Nat) (maxBytes : Nat) (cf : FamilyName)
    (operation : Operation) : Bool :=
  operation.whole crc takes && cf.length + operation.key.length + operation.value.length ≤ maxBytes / 2

theorem FamilyHolds.puts {file : List UInt8} {entries : List (List UInt8 × RecordLoc)}
    (holds : FamilyHolds crc state contents)
    (live : ∀ entry ∈ entries, ∃ blob stored : Blob, blob.bytes = entry.1 ∧ stored.bytes = readValue file entry.2 ∧
      (Operation.put blob stored).whole crc takes = true) :
    FamilyHolds crc (entries.foldl (fun fresh entry => fresh.put crc takes entry.1 (readValue file entry.2)) state)
      (entries.foldl (fun contents entry => Function.update contents entry.1 (some (readValue file entry.2)))
        contents) := by
  induction entries generalizing state contents with
  | nil => exact holds
  | cons entry rest ih =>
      obtain ⟨⟨blob, stored, key, value, whole⟩, others⟩ := forall_mem_cons.mp live
      have put := holds.perform whole
      rw [CfState.perform, Operation.apply, Operation.key, Operation.outcome, key, value] at put
      exact ih put others

namespace CachedCf.Holds

variable {family : CachedCf} (holds : family.Holds crc takes contents)

include holds

theorem get_eq (key : List UInt8) : family.get key = contents key := by
  rw [get, holds.stored.get_eq]
  cases found : family.cached.get key with
  | none => exact Option.none_or
  | some value => exact (holds.cached found).symm

theorem withCache {cached : Table (List UInt8) (List UInt8)}
    (same : ∀ {key value}, cached.get key = some value → contents key = some value) :
    Holds crc takes { family with cached } contents :=
  ⟨holds.stored, same, holds.live⟩

theorem performed (cacheable : operation.cacheable crc takes maxBytes cf = true)
    (found : (family.perform crc takes maxBytes cf operation).cached.get key = some value) :
    operation.apply contents key = some value := by
  rw [Operation.cacheable, Bool.and_eq_true, decide_eq_true_eq] at cacheable
  rw [Operation.apply, Function.update_apply]
  cases operation with
  | put blob stored =>
      have small : cf.length + blob.bytes.length + stored.bytes.length ≤ maxBytes / 2 := cacheable.2
      simp only [perform, cache, if_neg (not_lt.mpr small), Table.get_insert] at found
      split at found
      · rename_i same
        exact (if_pos same).trans found
      · rename_i other
        exact (if_neg other).trans (holds.cached found)
  | delete blob =>
      -- a key that is not in the index is not cached either
      obtain ⟨records, stores, -⟩ := holds.stored
      simp only [perform] at found
      by_cases present : family.state.index.contains blob.bytes = true
      · rw [if_pos present, Table.get_erase] at found
        split at found
        · cases found
        · rename_i other
          exact (if_neg other).trans (holds.cached found)
      · rw [if_neg present] at found
        have before := holds.cached found
        rw [stores.locates.contains_eq] at present
        refine (if_neg ?_).trans before
        intro same
        rw [same] at before
        exact present (Option.isSome_iff_exists.mpr ⟨value, before⟩)

theorem perform (cacheable : operation.cacheable crc takes maxBytes cf = true) :
    (family.perform crc takes maxBytes cf operation).Holds crc takes (operation.apply contents) := by
  have whole := (Bool.and_eq_true _ _ ▸ cacheable).1
  refine ⟨holds.stored.perform whole, holds.performed cacheable, ?_⟩
  intro key value found
  rw [Operation.apply, Function.update_apply] at found
  split at found
  · rename_i same
    cases operation with
    | put blob stored => exact ⟨blob, stored, same.symm, Option.some.inj found, whole⟩
    | delete blob => cases found
  · exact holds.live found

theorem read (key : List UInt8) : (family.read maxBytes cf key).Holds crc takes contents := by
  rw [CachedCf.read]
  split
  · rename_i value _ found
    apply holds.withCache
    intro other kept inside
    rw [cache] at inside
    split at inside
    · exact holds.cached inside
    · rw [Table.get_insert] at inside
      split at inside
      · rename_i same
        rw [same, ← inside, ← found, holds.stored.get_eq]
      · exact holds.cached inside
  · exact holds

theorem compactCf (deadBytes : Nat) : (family.compactCf crc takes deadBytes).Holds crc takes contents := by
  rw [CachedCf.compactCf]
  split
  · obtain ⟨records, stores, -⟩ := id holds.stored
    -- sorting only matters for the layout of the file
    have sorted := mergeSort_perm family.state.index.entries fun left right => left.1 ≤ right.1
    generalize mergeSort _ _ = entries at sorted ⊢
    have live : ∀ {key loc}, (key, loc) ∈ entries ↔ family.state.index.get key = some loc :=
      sorted.mem_iff.trans Table.get_eq_some_iff_mem.symm
    have new : FamilyHolds crc .new fun _ => none := ⟨[], by simpa using CfState.Stores.new, rfl⟩
    have rewritten := @FamilyHolds.puts crc .new (fun _ => none) takes family.state.file entries new ?_
    · refine ⟨?_, by simp, holds.live⟩
      convert rewritten using 1
      funext key
      have distinct := sorted.symm.pairwise family.state.index.entries_pairwise fun different => different.symm
      obtain ⟨kept, written⟩ := @Table.view_foldl _ _ _ Contents _ id
        (fun contents entry => Function.update contents entry.1 (some (readValue family.state.file entry.2)))
        (fun _ loc _ => some (readValue family.state.file loc)) entries distinct (fun _ _ _ => Function.update_apply ..)
        (fun _ => none) key
      rw [← stores.get_eq, CfState.get]
      cases found : family.state.index.get key with
      | none => exact (kept fun loc member => by cases found.symm.trans (live.mp member)).symm
      | some loc => exact (written loc (live.mpr found)).symm
    · intro entry member
      apply holds.live
      rw [← stores.get_eq, CfState.get, live.mp member]
      rfl
  · exact holds

theorem step {step : CfStep}
    (cacheable : ∀ operation, step.operation? = some operation → operation.cacheable crc takes maxBytes cf = true) :
    ∃ after, family.step crc takes maxBytes cf step = .ok after ∧
      after.Holds crc takes (applyAll contents step.operation?.toList) := by
  cases step with
  | perform operation => exact ⟨_, rfl, holds.perform (cacheable operation rfl)⟩
  | read key => exact ⟨_, rfl, holds.read key⟩
  | evict key =>
      refine ⟨_, rfl, holds.withCache ?_⟩
      intro other value found
      rw [Table.get_erase] at found
      split at found
      · cases found
      · exact holds.cached found
  | compact deadBytes => exact ⟨_, rfl, holds.compactCf deadBytes⟩
  | reopen =>
      obtain ⟨opened, read, stored⟩ := holds.stored.file.openCf
      refine ⟨{ state := opened, cached := .empty }, ?_, stored, by simp, holds.live⟩
      rw [CachedCf.step, read]
      rfl

theorem run {steps : List CfStep}
    (cacheable : ∀ operation ∈ steps.filterMap CfStep.operation?, operation.cacheable crc takes maxBytes cf = true) :
    ∃ last, steps.foldlM (CachedCf.step crc takes maxBytes cf) family = .ok last ∧
      last.Holds crc takes (applyAll contents (steps.filterMap CfStep.operation?)) := by
  induction steps generalizing family contents with
  | nil => exact ⟨family, rfl, holds⟩
  | cons step rest ih =>
      have split : (step :: rest).filterMap CfStep.operation? =
          step.operation?.toList ++ rest.filterMap CfStep.operation? := by
        cases found : step.operation? <;> simp [found]
      rw [split] at cacheable ⊢
      have first : ∀ operation, step.operation? = some operation →
          operation.cacheable crc takes maxBytes cf = true := by
        intro operation found
        exact cacheable operation (mem_append_left _ (by simp [found]))
      obtain ⟨after, stepped, next⟩ := holds.step first
      obtain ⟨last, reached, kept⟩ := ih next fun operation member => cacheable operation (mem_append_right _ member)
      rw [applyAll_append]
      refine ⟨last, ?_, kept⟩
      rw [foldlM_cons, stepped]
      exact reached

end CachedCf.Holds

/-- Whatever is read, dropped from the cache, compacted and opened again in
between, all operations are read back. -/
theorem steps_read_history {steps : List CfStep}
    (cacheable : ∀ operation ∈ steps.filterMap CfStep.operation?, operation.cacheable crc takes maxBytes cf = true) :
    ∃ last, steps.foldlM (CachedCf.step crc takes maxBytes cf) { state := .new, cached := .empty } = .ok last ∧
      ∀ key, last.get key = contentsOf (steps.filterMap CfStep.operation?) key := by
  have new : CachedCf.Holds crc takes { state := .new, cached := .empty } fun _ => none :=
    ⟨⟨[], by simpa using CfState.Stores.new, rfl⟩, by simp, by simp⟩
  obtain ⟨last, reached, holds⟩ := new.run cacheable
  exact ⟨last, reached, holds.get_eq⟩

/-- A value is overwritten and read, and the file compacted and opened again. -/
def overwriting : List CfStep :=
  [.perform (.put ⟨[3], by decide⟩ ⟨[4], by decide⟩), .read [3], .perform (.put ⟨[3], by decide⟩ ⟨[5], by decide⟩),
    .compact 15, .read [3], .reopen]

theorem overwriting_read_back : ∃ last, overwriting.foldlM (CachedCf.step crc32Bytes length 16 [])
      { state := .new, cached := .empty } = .ok last ∧ last.get [3] = some [5] := by
  obtain ⟨last, reached, reads⟩ := @steps_read_history crc32Bytes length 16 [] overwriting (by decide +kernel)
  exact ⟨last, reached, reads [3]⟩

end Karstflow.Storage
