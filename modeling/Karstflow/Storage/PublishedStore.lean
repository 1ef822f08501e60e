import Karstflow.Storage.WriteAheadLog
import Karstflow.Types.Account

namespace Karstflow.Storage

open Data Karstflow.Types Table Option List

/-! The published accounts: a bounded cache in front of the durable store, if
there is one. -/

/-- The cache holds the entry used last first. -/
structure PublishedStore where
  cache : Table Pubkey Account
  maxEntries : Nat
  store : Option (Table Pubkey Account)

namespace PublishedStore

def new (maxEntries : Nat) (store : Option (Table Pubkey Account)) : PublishedStore :=
  { cache := empty, maxEntries, store }

variable (published : PublishedStore)

def loadFromDisk (key : Pubkey) : Option Account := published.store.bind fun disk => disk.get key

/-- Make room, and insert in front. -/
def insertIntoCache (key : Pubkey) (account : Account) : PublishedStore :=
  { published with
    cache := ((published.cache.erase key).keepFirst (published.maxEntries - 1)).insert key account }

/-- An account from the cache, in which it moves to the front, or from disk. -/
def get (key : Pubkey) : PublishedStore × Option Account :=
  match published.cache.get key with
  | some account => ({ published with cache := published.cache.insert key account }, some account)
  | none =>
    match published.loadFromDisk key with
    | some account => (published.insertIntoCache key account, some account)
    | none => (published, none)

def lookUp (entries : List (Pubkey × Account)) : PublishedStore :=
  entries.foldl (fun published entry => (published.get entry.1).1) published

def insertAllIntoCache (entries : List (Pubkey × Account)) : PublishedStore :=
  entries.foldl (fun published entry => published.insertIntoCache entry.1 entry.2) published

/-- An account takes two operations of a batch, for its data and its summary. -/
def maxPersisted : Nat := maxWriteBatchSize / 2

/-- Accounts past the limit of a batch are left out, and so are those after
the first `taken`, where the write fails. Neither is reported. -/
def persist (accounts : Table Pubkey Account) (taken : Nat) : PublishedStore :=
  { published with
    store := published.store.map fun disk => disk.overlay (accounts.keepFirst (min taken maxPersisted)) }

def insertBatch (accounts : Table Pubkey Account) (taken : Nat) : PublishedStore :=
  if accounts.entries = [] then published else (published.persist accounts taken).insertAllIntoCache accounts.entries

/-- The cache holds an entry even if it may hold none. -/
def capacity : Nat := max published.maxEntries 1

/-- Nothing is evicted for good when the batch is inserted: there is a disk, or room. -/
def fits (accounts : Table Pubkey Account) : Bool :=
  published.store.isSome || (published.cache.overlay accounts).size ≤ published.capacity

/-- All accounts of the batch get to the disk, if there is one. -/
def persists (accounts : Table Pubkey Account) (taken : Nat) : Bool :=
  published.store.isNone || accounts.size ≤ min taken maxPersisted

/-- All published accounts, as far as they are there. -/
def iterAll : Table Pubkey Account := published.store.getD published.cache

structure Holds (content : Pubkey → Option Account) : Prop where
  agrees : ∀ {key account}, published.cache.get key = some account → content key = some account
  missing : ∀ {key}, published.cache.get key = none → published.loadFromDisk key = content key
  backed : ∀ {disk}, published.store = some disk → ∀ key, disk.get key = content key
  room : published.store = none → published.cache.size ≤ published.capacity

end PublishedStore

/-- What is done to the published accounts: an account is looked up, or some
are written, of which the disk takes so many. -/
inductive PublishedCall where
  | read (key : Pubkey)
  | write (accounts : Table Pubkey Account) (taken : Nat)

def PublishedCall.writeTo (table : Table Pubkey Account) : PublishedCall → Table Pubkey Account
  | read _ => table
  | write accounts _ => table.overlay accounts

namespace PublishedStore

def serve (published : PublishedStore) : PublishedCall → PublishedStore
  | .read key => (published.get key).1
  | .write accounts taken => published.insertBatch accounts taken

def keeps (published : PublishedStore) : PublishedCall → Bool
  | .read _ => true
  | .write accounts taken => published.fits accounts && published.persists accounts taken

def keepsAll : PublishedStore → List PublishedCall → Bool
  | _, [] => true
  | published, call :: rest => published.keeps call && keepsAll (published.serve call) rest

/-- The store shows the accounts that are there before the calls. The calls
write what makes them those after, and the store keeps all of it: there is
room, or a disk to which everything gets. -/
structure Serves (published : PublishedStore) (calls : List PublishedCall) (before after : Table Pubkey Account) :
    Prop where
  shows : published.Holds before.get
  writes : after = calls.foldl PublishedCall.writeTo before
  keeps : published.keepsAll calls = true

end PublishedStore

section

variable {published : PublishedStore}

namespace PublishedStore

theorem Holds.new (maxEntries : Nat) (store : Option (Table Pubkey Account)) :
    (new maxEntries store).Holds fun key => store.bind fun disk => disk.get key := by
  refine ⟨?_, ?_, ?_, ?_⟩
  · intro key account impossible
    cases impossible
  · intro key missed
    rfl
  · intro disk stored key
    have same : store = some disk := stored
    rw [same, bind_some]
  · intro unbacked
    exact Nat.zero_le _

theorem loadFromDisk_none (unbacked : published.store = none) : published.loadFromDisk key = none := by
  rw [loadFromDisk, unbacked, bind_none]

theorem get_insertIntoCache (found : (published.insertIntoCache key account).cache.get other = some value) :
    other = key ∧ value = account ∨ other ≠ key ∧ published.cache.get other = some value := by
  rw [insertIntoCache, get_insert] at found
  by_cases same : other = key
  · rw [if_pos same] at found
    exact .inl ⟨same, (some.inj found).symm⟩
  · rw [if_neg same] at found
    have earlier := get_keepFirst found
    rw [get_erase_ne same] at earlier
    exact .inr ⟨same, earlier⟩

/-- In front of a disk the cache only has to agree with it. -/
theorem Holds.of_backed (backed : published.store = some disk) (shows : ∀ key, disk.get key = content key)
    (agrees : ∀ {key account}, published.cache.get key = some account → content key = some account) :
    published.Holds content := by
  refine ⟨agrees, ?_, ?_, ?_⟩
  · intro key missed
    rw [loadFromDisk, backed, bind_some, shows]
  · intro other stored key
    rw [backed] at stored
    cases stored
    exact shows key
  · intro unbacked
    rw [backed] at unbacked
    cases unbacked

theorem Holds.of_unbacked (unbacked : published.store = none) (shows : ∀ key, published.cache.get key = content key)
    (room : published.cache.size ≤ published.capacity) : published.Holds content := by
  refine ⟨?_, ?_, ?_, fun _ => room⟩
  · intro key account found
    rw [← shows, found]
  · intro key missed
    rw [loadFromDisk_none unbacked, ← shows, missed]
  · intro disk stored
    rw [unbacked] at stored
    cases stored

theorem Holds.cache_eq (holds : published.Holds content) (unbacked : published.store = none) :
    published.cache.get key = content key := by
  cases found : published.cache.get key with
  | some account => exact (holds.agrees found).symm
  | none => rw [← holds.missing found, loadFromDisk_none unbacked]

theorem Holds.get (holds : published.Holds content) (key : Pubkey) :
    (published.get key).2 = content key ∧ (published.get key).1.Holds content := by
  cases found : published.cache.get key with
  | some account =>
    have same : ∀ other, (published.cache.insert key account).get other = published.cache.get other := by
      intro other
      rw [get_insert]
      split
      · rename_i here
        rw [here, found]
      · rfl
    simp only [PublishedStore.get, found]
    refine ⟨(holds.agrees found).symm, ?_, ?_, holds.backed, ?_⟩
    · intro other value stored
      rw [same] at stored
      exact holds.agrees stored
    · intro other missed
      rw [same] at missed
      exact holds.missing missed
    · intro unbacked
      refine le_trans (size_le fun other present => ?_) (holds.room unbacked)
      rw [same] at present
      exact present
  | none =>
    have shown := holds.missing found
    cases loaded : published.loadFromDisk key with
    | none =>
      simp only [PublishedStore.get, found, loaded]
      exact ⟨loaded.symm.trans shown, holds⟩
    | some account =>
      simp only [PublishedStore.get, found, loaded]
      refine ⟨loaded.symm.trans shown, ?_⟩
      cases stored : published.store with
      | none =>
        rw [loadFromDisk_none stored] at loaded
        cases loaded
      | some disk =>
        apply @Holds.of_backed (published.insertIntoCache key account) _ _ stored (holds.backed stored)
        intro other value inside
        obtain here | there := get_insertIntoCache inside
        · rw [here.1, here.2, ← shown, loaded]
        · exact holds.agrees there.2

theorem get_frame (published : PublishedStore) (key : Pubkey) :
    (published.get key).1.store = published.store ∧ (published.get key).1.maxEntries = published.maxEntries := by
  rw [get]
  split
  · exact ⟨rfl, rfl⟩
  · split
    · exact ⟨rfl, rfl⟩
    · exact ⟨rfl, rfl⟩

theorem lookUp_frame (published : PublishedStore) (entries : List (Pubkey × Account)) :
    (published.lookUp entries).store = published.store ∧
      (published.lookUp entries).maxEntries = published.maxEntries := by
  induction entries generalizing published with
  | nil => exact ⟨rfl, rfl⟩
  | cons entry rest ih =>
    obtain ⟨store, maxEntries⟩ := ih (published.get entry.1).1
    obtain ⟨sameStore, sameMax⟩ := get_frame published entry.1
    exact ⟨store.trans sameStore, maxEntries.trans sameMax⟩

theorem Holds.lookUp (holds : published.Holds content) (entries : List (Pubkey × Account)) :
    (published.lookUp entries).Holds content := by
  induction entries generalizing published with
  | nil => exact holds
  | cons entry rest ih => exact ih (holds.get entry.1).2

theorem Holds.fits_lookUp (holds : published.Holds content) (entries : List (Pubkey × Account)) :
    (published.lookUp entries).fits accounts = published.fits accounts := by
  obtain ⟨store, maxEntries⟩ := lookUp_frame published entries
  rw [fits, fits, store, capacity, capacity, maxEntries]
  cases stored : published.store with
  | some disk => rfl
  | none =>
    have same : ∀ key, (published.lookUp entries).cache.get key = published.cache.get key := by
      intro key
      rw [(holds.lookUp entries).cache_eq (store.trans stored), holds.cache_eq stored]
    have sizes : ((published.lookUp entries).cache.overlay accounts).size = (published.cache.overlay accounts).size := by
      apply le_antisymm
      · apply size_le
        intro key
        rw [get_overlay, get_overlay, same]
        exact id
      · apply size_le
        intro key
        rw [get_overlay, get_overlay, same]
        exact id
    rw [sizes]

theorem persists_lookUp (published : PublishedStore) (entries : List (Pubkey × Account)) :
    (published.lookUp entries).persists accounts taken = published.persists accounts taken := by
  rw [persists, persists, (lookUp_frame published entries).1]

theorem insertAllIntoCache_frame (published : PublishedStore) (entries : List (Pubkey × Account)) :
    (published.insertAllIntoCache entries).store = published.store ∧
      (published.insertAllIntoCache entries).maxEntries = published.maxEntries := by
  induction entries generalizing published with
  | nil => exact ⟨rfl, rfl⟩
  | cons entry rest ih => exact ih (published.insertIntoCache entry.1 entry.2)

theorem size_insertIntoCache (published : PublishedStore) (key : Pubkey) (account : Account) :
    (published.insertIntoCache key account).cache.size ≤ published.capacity := by
  have shorter := size_keepFirst_le (published.cache.erase key) (published.maxEntries - 1)
  have erased : (((published.cache.erase key).keepFirst (published.maxEntries - 1)).erase key).size ≤
      ((published.cache.erase key).keepFirst (published.maxEntries - 1)).size := by
    apply size_le
    intro other present
    rw [get_erase] at present
    by_cases same : other = key
    · rw [if_pos same] at present
      exact absurd rfl present
    · rw [if_neg same] at present
      exact present
  rw [insertIntoCache, size_insert, capacity]
  omega

theorem size_insertAllIntoCache {entries : List (Pubkey × Account)}
    (bounded : published.cache.size ≤ published.capacity) :
    (published.insertAllIntoCache entries).cache.size ≤ published.capacity := by
  induction entries generalizing published with
  | nil => exact bounded
  | cons entry rest ih =>
    exact @ih (published.insertIntoCache entry.1 entry.2) (size_insertIntoCache published entry.1 entry.2)

/-- What is in the cache after a batch is of the batch, or was there before
and is not in the batch. -/
theorem insertAllIntoCache_agrees {entries : List (Pubkey × Account)} {content : Pubkey → Option Account}
    (written : ∀ entry ∈ entries, content entry.1 = some entry.2)
    (agrees : ∀ {key account}, published.cache.get key = some account → (∀ value, (key, value) ∉ entries) →
      content key = some account)
    (found : (published.insertAllIntoCache entries).cache.get key = some account) : content key = some account := by
  induction entries generalizing published with
  | nil => exact agrees found fun value => not_mem_nil
  | cons entry rest ih =>
    apply ih (fun other member => written other (mem_cons_of_mem _ member)) _ found
    intro other value inside absent
    obtain here | there := get_insertIntoCache inside
    · rw [here.1, here.2]
      exact written entry mem_cons_self
    apply agrees there.2
    intro value member
    obtain same | later := mem_cons.mp member
    · exact there.1 (congrArg Prod.fst same)
    · exact absent value later

theorem insertAllIntoCache_roomy {entries : List (Pubkey × Account)} {final : Table Pubkey Account}
    (bounded : final.size ≤ published.capacity) (inside : ∀ key, published.cache.get key ≠ none → final.get key ≠ none)
    (listed : ∀ entry ∈ entries, final.get entry.1 ≠ none) (key : Pubkey) :
    (published.insertAllIntoCache entries).cache.get key =
      (entries.foldl (fun table entry => table.insert entry.1 entry.2) published.cache).get key := by
  induction entries generalizing published with
  | nil => rfl
  | cons entry rest ih =>
    have covered : ∀ key, (published.cache.insert entry.1 entry.2).get key ≠ none → final.get key ≠ none := by
      intro other present
      rw [get_insert] at present
      by_cases same : other = entry.1
      · rw [same]
        exact listed entry mem_cons_self
      · rw [if_neg same] at present
        exact inside other present
    have small := size_le covered
    rw [size_insert] at small
    have whole : (published.cache.erase entry.1).keepFirst (published.maxEntries - 1) =
        published.cache.erase entry.1 := by
      apply keepFirst_of_size_le
      rw [capacity] at bounded
      omega
    have step : (published.insertIntoCache entry.1 entry.2).cache = published.cache.insert entry.1 entry.2 := by
      rw [insertIntoCache, whole]
      exact insert_erase _ _ _
    have later := @ih (published.insertIntoCache entry.1 entry.2) bounded (by rw [step]; exact covered)
      fun other member => listed other (mem_cons_of_mem _ member)
    rw [step] at later
    exact later

theorem Holds.insertBatch (holds : published.Holds content) (fits : published.fits accounts = true)
    (persists : published.persists accounts taken = true) :
    (published.insertBatch accounts taken).Holds fun key => (accounts.get key).or (content key) := by
  by_cases empty : accounts.entries = []
  · have nothing : ∀ key, accounts.get key = none := by
      intro key
      rw [eq_none_iff_forall_ne_some]
      intro value found
      rw [get_eq_some_iff_mem, empty] at found
      cases found
    rw [PublishedStore.insertBatch, if_pos empty]
    simpa only [nothing, none_or] using holds
  · rw [PublishedStore.insertBatch, if_neg empty]
    cases stored : published.store with
    | some disk =>
      rw [PublishedStore.persists, stored, isNone_some, Bool.false_or, decide_eq_true_eq] at persists
      have written : (published.persist accounts taken).store = some (disk.overlay accounts) := by
        rw [persist, stored, map_some, keepFirst_of_size_le persists]
      apply of_backed ((insertAllIntoCache_frame _ _).1.trans written)
      · intro key
        rw [get_overlay, holds.backed stored]
      · intro key account found
        refine @insertAllIntoCache_agrees _ _ _ accounts.entries (fun key => (accounts.get key).or (content key))
          ?_ ?_ found
        · intro entry member
          rw [get_eq_some_iff_mem.mpr member, some_or]
        · intro other value inside absent
          have unwritten : accounts.get other = none := by
            rw [eq_none_iff_forall_ne_some]
            intro value found
            exact absent value (get_eq_some_iff_mem.mp found)
          rw [unwritten, none_or]
          exact holds.agrees inside
    | none =>
      rw [PublishedStore.fits, stored, isSome_none, Bool.false_or, decide_eq_true_eq] at fits
      have same : published.persist accounts taken = published := by
        cases published with
        | mk cache maxEntries store =>
          cases stored
          rfl
      rw [same]
      have shows : ∀ key, (published.insertAllIntoCache accounts.entries).cache.get key =
          (accounts.get key).or (content key) := by
        intro key
        rw [insertAllIntoCache_roomy fits, ← holds.cache_eq stored, ← get_overlay]
        · rfl
        · intro other present
          rw [get_overlay]
          cases accounts.get other with
          | none => exact present
          | some value => exact some_ne_none _
        · intro entry member
          rw [get_overlay, get_eq_some_iff_mem.mpr member]
          exact some_ne_none _
      have frame := insertAllIntoCache_frame published accounts.entries
      apply of_unbacked (frame.1.trans stored) shows
      rw [capacity, frame.2]
      exact size_insertAllIntoCache (holds.room stored)

theorem Holds.fits_of_insertBatch (holds : published.Holds content)
    (shows : ∀ key, ((published.insertBatch accounts taken).get key).2 = (accounts.get key).or (content key)) :
    published.fits accounts = true := by
  rw [fits, Bool.or_eq_true, decide_eq_true_eq]
  cases stored : published.store with
  | some disk => exact .inl rfl
  | none =>
    apply Or.inr
    have unbacked : (published.insertBatch accounts taken).store = none := by
      rw [PublishedStore.insertBatch]
      split
      · exact stored
      · rw [(insertAllIntoCache_frame _ _).1, persist, stored, map_none]
    have bounded : (published.insertBatch accounts taken).cache.size ≤ published.capacity := by
      rw [PublishedStore.insertBatch]
      split
      · exact holds.room stored
      · exact @size_insertAllIntoCache (published.persist accounts taken) _ (holds.room stored)
    refine le_trans (size_le fun key present => ?_) bounded
    rw [get_overlay, holds.cache_eq stored, ← shows] at present
    intro missed
    apply present
    simp only [PublishedStore.get, missed, loadFromDisk_none unbacked]

theorem Holds.get_iterAll (holds : published.Holds content) (key : Pubkey) : published.iterAll.get key = content key := by
  rw [iterAll]
  cases stored : published.store with
  | some disk => exact holds.backed stored key
  | none => exact holds.cache_eq stored

theorem Holds.serve (holds : published.Holds table.get) (keeps : published.keeps call = true) :
    (published.serve call).Holds (call.writeTo table).get := by
  cases call with
  | read key => exact (holds.get key).2
  | write accounts taken =>
      rw [PublishedStore.keeps, Bool.and_eq_true] at keeps
      have shown := holds.insertBatch keeps.1 keeps.2
      simp only [← get_overlay] at shown
      exact shown

/-- After the calls the store shows what has been written. -/
theorem Serves.holds {after : Table Pubkey Account} (serves : published.Serves calls before after) :
    (calls.foldl serve published).Holds after.get := by
  obtain ⟨shows, rfl, keeps⟩ := serves
  induction calls generalizing published before with
  | nil => exact shows
  | cons call rest ih =>
      rw [keepsAll, Bool.and_eq_true] at keeps
      exact ih (shows.serve keeps.1) keeps.2

end PublishedStore

end

end Karstflow.Storage
