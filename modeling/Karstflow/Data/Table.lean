import Mathlib.Algebra.BigOperators.Group.List.Basic
import Mathlib.Algebra.Order.Ring.Nat
import Mathlib.Data.List.AList
import Mathlib.Data.List.Sort

namespace Karstflow.Data

open List

/-! Finite tables: the neutral model of hash and tree maps.

A table is an association list whose keys are distinct, so a lookup never
depends on the order of its entries. Code that walks a tree map in key order
goes through `ascending`; code that walks a hash map in no particular order
goes through `entries`.
-/

def Table (κ ν : Type) := AList fun _ : κ => ν

namespace Table

variable [DecidableEq κ] {table : Table κ ν} {key other : κ} {value : ν}

def empty : Table κ ν := (∅ : AList fun _ : κ => ν)

instance : Inhabited (Table κ ν) := ⟨empty⟩

def get (table : Table κ ν) (key : κ) : Option ν := AList.lookup key table

def insert (table : Table κ ν) (key : κ) (value : ν) : Table κ ν := AList.insert key value table

def erase (table : Table κ ν) (key : κ) : Table κ ν := AList.erase key table

def retain (table : Table κ ν) (keep : κ → ν → Bool) : Table κ ν :=
  ⟨AList.entries table |>.filter fun entry => keep entry.1 entry.2,
    (AList.nodupKeys table).sublist filter_sublist⟩

/-- The first entries. An insertion puts its entry first, so these are the ones
inserted last. -/
def keepFirst (table : Table κ ν) (count : Nat) : Table κ ν :=
  ⟨(AList.entries table).take count, (AList.nodupKeys table).sublist (take_sublist count _)⟩

def modify (table : Table κ ν) (key : κ) (change : ν → ν) : Table κ ν :=
  match table.get key with
  | some value => table.insert key (change value)
  | none => table

def contains (table : Table κ ν) (key : κ) : Bool := (table.get key).isSome

def entries (table : Table κ ν) : List (κ × ν) :=
  (AList.entries table).map fun entry => (entry.1, entry.2)

def size (table : Table κ ν) : Nat := table.entries.length

def mapValues (table : Table κ ν) (change : ν → ν) : Table κ ν :=
  ⟨(AList.entries table).map fun entry => ⟨entry.1, change entry.2⟩, by
    have keys : ((AList.entries table).map fun entry => (⟨entry.1, change entry.2⟩ : Sigma fun _ : κ => ν)).keys =
        (AList.entries table).keys := by simp [keys]
    rw [NodupKeys, keys]
    exact AList.nodupKeys table⟩

def overlay (table updates : Table κ ν) : Table κ ν :=
  updates.entries.foldl (fun table entry => table.insert entry.1 entry.2) table

/-- The entries by ascending key, the order in which a tree map is walked. -/
def ascending [LinearOrder κ] (table : Table κ ν) : List (κ × ν) :=
  table.entries.insertionSort fun left right => left.1 ≤ right.1

@[simp] theorem get_empty (key : κ) : (empty : Table κ ν).get key = none := rfl

theorem get_insert_ne (different : other ≠ key) : (table.insert key value).get other = table.get other :=
  AList.lookup_insert_ne (β := fun _ : κ => ν) different

theorem get_erase_ne (different : other ≠ key) : (table.erase key).get other = table.get other :=
  AList.lookup_erase_ne (β := fun _ : κ => ν) different

theorem get_eq_some_iff_mem : table.get key = some value ↔ (key, value) ∈ table.entries := by
  have lookup := AList.mem_lookup_iff (β := fun _ : κ => ν) (a := key) (b := value) (s := table)
  refine lookup.trans ?_
  simp only [entries, mem_map, Prod.mk.injEq]
  constructor
  · intro member
    exact ⟨⟨key, value⟩, member, rfl, rfl⟩
  · rintro ⟨⟨entryKey, entryValue⟩, member, rfl, rfl⟩
    exact member

theorem contains_iff : table.contains key = true ↔ ∃ value, table.get key = some value := by
  rw [contains, Option.isSome_iff_exists]

theorem mem_ascending [LinearOrder κ] : (key, value) ∈ table.ascending ↔ table.get key = some value := by
  rw [ascending, mem_insertionSort, get_eq_some_iff_mem]

section

variable (table key other value)

@[simp] theorem get_insert_self : (table.insert key value).get key = some value :=
  AList.lookup_insert (β := fun _ : κ => ν) table

theorem get_insert : (table.insert key value).get other = if other = key then some value else table.get other := by
  by_cases same : other = key
  · subst same
    simp
  · rw [if_neg same, get_insert_ne same]

@[simp] theorem insert_insert (first second : ν) :
    (table.insert key first).insert key second = table.insert key second :=
  AList.insert_insert (β := fun _ : κ => ν) table

theorem insert_erase : (table.erase key).insert key value = table.insert key value := by
  apply AList.ext
  have absent := notMem_keys_kerase key (AList.nodupKeys table)
  exact congrArg (cons ⟨key, value⟩) (kerase_of_notMem_keys absent)

@[simp] theorem get_erase_self : (table.erase key).get key = none :=
  AList.lookup_erase (β := fun _ : κ => ν) key table

theorem get_erase : (table.erase key).get other = if other = key then none else table.get other := by
  by_cases same : other = key
  · rw [if_pos same, same, get_erase_self]
  · rw [if_neg same, get_erase_ne same]

theorem get_foldl_erase (keys : List κ) (key : κ) :
    (keys.foldl erase table).get key = if key ∈ keys then none else table.get key := by
  induction keys generalizing table with
  | nil => simp
  | cons first rest ih =>
    rw [foldl_cons, ih, get_erase]
    by_cases here : key = first
    · simp [here]
    · simp [here]

omit [DecidableEq κ] in
theorem entries_retain : (table.retain keep).entries = table.entries.filter fun entry => keep entry.1 entry.2 := by
  rw [entries, entries, filter_map]
  rfl

theorem get_retain : (table.retain keep).get key = (table.get key).filter (keep key) := by
  apply Option.ext
  intro value
  rw [get_eq_some_iff_mem, entries_retain, mem_filter, ← get_eq_some_iff_mem, Option.filter_eq_some_iff]

omit [DecidableEq κ] in
theorem entries_keepFirst (count : Nat) : (table.keepFirst count).entries = table.entries.take count := map_take

omit [DecidableEq κ] in
theorem size_keepFirst_le (count : Nat) : (table.keepFirst count).size ≤ count := by
  rw [size, entries_keepFirst]
  exact length_take_le _ _

theorem size_insert : (table.insert key value).size = (table.erase key).size + 1 := by
  rfl

theorem get_retain_key (keep : κ → Bool) :
    (table.retain fun other _ => keep other).get key = if keep key then table.get key else none := by
  rw [get_retain]
  cases keep key <;> cases table.get key <;> rfl

theorem get_modify : (table.modify key change).get other =
      if other = key then (table.get key).map change else table.get other := by
  cases found : table.get key with
  | none =>
    simp only [modify, found, Option.map_none]
    by_cases same : other = key
    · rw [if_pos same, same, found]
    · rw [if_neg same]
  | some value => simp only [modify, found, get_insert, Option.map_some]

omit [DecidableEq κ] in
theorem entries_pairwise : table.entries.Pairwise fun left right => left.1 ≠ right.1 := by
  rw [entries, pairwise_map]
  exact nodupKeys_iff_pairwise.mp (AList.nodupKeys table)

omit [DecidableEq κ] in
theorem ascending_pairwise [LinearOrder κ] : table.ascending.Pairwise fun left right => left.1 < right.1 := by
  have total : Std.Total fun left right : κ × ν => left.1 ≤ right.1 := ⟨fun left right => le_total left.1 right.1⟩
  have transitive : IsTrans (κ × ν) fun left right => left.1 ≤ right.1 := ⟨fun _ _ _ => le_trans⟩
  have sorted := pairwise_insertionSort (fun left right : κ × ν => left.1 ≤ right.1) table.entries
  have distinct : table.ascending.Pairwise fun left right => left.1 ≠ right.1 :=
    (perm_insertionSort _ table.entries).symm.pairwise table.entries_pairwise fun apart => apart.symm
  exact (sorted.and distinct).imp fun both => lt_of_le_of_ne both.1 both.2

omit [DecidableEq κ] in
theorem entries_mapValues :
    (table.mapValues change).entries = table.entries.map fun entry => (entry.1, change entry.2) := by
  simp only [entries, mapValues, map_map]
  rfl

theorem get_mapValues : (table.mapValues change).get key = (table.get key).map change := by
  apply Option.ext
  intro value
  rw [get_eq_some_iff_mem, entries_mapValues, mem_map]
  constructor
  · intro member
    obtain ⟨entry, found, same⟩ := member
    cases same
    rw [get_eq_some_iff_mem.mpr found, Option.map_some]
  · intro mapped
    obtain ⟨old, found, changed⟩ := Option.map_eq_some_iff.mp mapped
    exact ⟨(key, old), get_eq_some_iff_mem.mp found, by rw [changed]⟩

end

theorem get_keepFirst {count : Nat} (found : (table.keepFirst count).get key = some value) :
    table.get key = some value := by
  rw [get_eq_some_iff_mem, entries_keepFirst] at found
  exact get_eq_some_iff_mem.mpr (mem_of_mem_take found)

omit [DecidableEq κ] in
theorem keepFirst_of_size_le {count : Nat} (small : table.size ≤ count) : table.keepFirst count = table := by
  have whole : (AList.entries table).take count = AList.entries table := by
    apply take_of_length_le
    simpa only [size, entries, length_map] using small
  exact AList.ext whole

theorem get_foldl_modify {keys : List κ} (distinct : keys.Nodup) (table : Table κ ν)
    (change : ν → ν) (key : κ) : (keys.foldl (fun table other => table.modify other change) table).get key =
      if key ∈ keys then (table.get key).map change else table.get key := by
  induction keys generalizing table with
  | nil => simp
  | cons first rest ih =>
    obtain ⟨fresh, restDistinct⟩ := nodup_cons.mp distinct
    rw [foldl_cons, ih restDistinct, get_modify]
    by_cases here : key = first
    · subst here
      rw [if_neg fresh, if_pos rfl, if_pos mem_cons_self]
    · simp only [mem_cons, here, if_false, false_or]

theorem length_le_size {keys : List κ} (distinct : keys.Nodup) (inside : ∀ key ∈ keys, table.get key ≠ none) :
    keys.length ≤ table.size := by
  have subset : keys ⊆ table.entries.map Prod.fst := by
    intro key member
    obtain ⟨value, found⟩ := Option.ne_none_iff_exists'.mp (inside key member)
    exact mem_map.mpr ⟨(key, value), get_eq_some_iff_mem.mp found, rfl⟩
  have shorter := (subperm_of_subset distinct subset).length_le
  simpa only [size, length_map] using shorter

theorem size_le {larger : Table κ ν} (inside : ∀ key, table.get key ≠ none → larger.get key ≠ none) :
    table.size ≤ larger.size := by
  have distinct := pairwise_map.mpr table.entries_pairwise
  have kept : ∀ key ∈ table.entries.map Prod.fst, larger.get key ≠ none := by
    intro key member
    obtain ⟨entry, stored, same⟩ := mem_map.mp member
    apply inside
    rw [← same, get_eq_some_iff_mem.mpr stored]
    exact Option.some_ne_none _
  simpa only [size, length_map] using length_le_size distinct kept

section Following

variable {σ β : Type} {view : σ → κ → β} {step : σ → κ × ν → σ} {change : κ → ν → β → β}

theorem view_foldl {entries : List (κ × ν)} (distinct : entries.Pairwise fun left right => left.1 ≠ right.1)
    (shows : ∀ state entry key, view (step state entry) key =
      if key = entry.1 then change key entry.2 (view state key) else view state key) (state : σ) (key : κ) :
    ((∀ value, (key, value) ∉ entries) → view (entries.foldl step state) key = view state key) ∧
    ∀ value, (key, value) ∈ entries → view (entries.foldl step state) key = change key value (view state key) := by
  induction entries generalizing state with
  | nil => simp
  | cons first rest ih =>
    obtain ⟨fresh, restDistinct⟩ := pairwise_cons.mp distinct
    obtain ⟨kept, written⟩ := ih restDistinct (step state first)
    rw [foldl_cons]
    constructor
    · intro absent
      have different : key ≠ first.1 := fun same => absent first.2 (by rw [same]; exact mem_cons_self)
      rw [kept fun value member => absent value (mem_cons_of_mem _ member), shows, if_neg different]
    · intro value member
      obtain same | later := mem_cons.mp member
      · subst same
        rw [kept fun other again => fresh _ again rfl, shows, if_pos rfl]
      · have different : key ≠ first.1 := fun same => fresh _ later same.symm
        rw [written value later, shows, if_neg different]

/-- A state that follows the entries, each of which changes what the state
shows under its own key and nothing else. -/
theorem view_foldl_entries (shows : ∀ state entry key, view (step state entry) key =
      if key = entry.1 then change key entry.2 (view state key) else view state key)
    (table : Table κ ν) (state : σ) (key : κ) : view (table.entries.foldl step state) key =
      (table.get key).elim (view state key) fun value => change key value (view state key) := by
  obtain ⟨kept, written⟩ := view_foldl table.entries_pairwise shows state key
  cases found : table.get key with
  | none =>
    apply kept
    intro value member
    rw [get_eq_some_iff_mem.mpr member] at found
    cases found
  | some value => exact written value (get_eq_some_iff_mem.mp found)

theorem get_overlay (table updates : Table κ ν) (key : κ) :
    (table.overlay updates).get key = (updates.get key).or (table.get key) := by
  have shown := @view_foldl_entries κ ν _ _ _ get (fun table entry => table.insert entry.1 entry.2)
    (fun _ value _ => some value) (fun table entry key => get_insert table entry.1 key entry.2) updates table key
  rw [overlay, shown]
  cases updates.get key <;> rfl

end Following

section Sums

variable {M : Type} [AddCommMonoid M]

def sum (table : Table κ ν) (weigh : κ → ν → M) : M :=
  (table.entries.map fun entry => weigh entry.1 entry.2).sum

theorem sum_eq_erase (table : Table κ ν) (key : κ) (weigh : κ → ν → M) :
    table.sum weigh = (table.get key).elim 0 (weigh key) + (table.erase key).sum weigh := by
  have stored : ∀ stored : List (Sigma fun _ : κ => ν),
      ((stored.map fun entry => (entry.1, entry.2)).map fun entry => weigh entry.1 entry.2).sum =
        (dlookup key stored).elim 0 (weigh key) +
          (((kerase key stored).map fun entry => (entry.1, entry.2)).map fun entry => weigh entry.1 entry.2).sum := by
    intro stored
    induction stored with
    | nil => exact (zero_add 0).symm
    | cons entry rest ih =>
      by_cases here : key = entry.1
      · subst here
        have found := dlookup_cons_eq rest entry.1 entry.2
        simp [found, kerase_cons_eq]
      · simp only [map_cons, sum_cons, dlookup_cons_ne _ _ here, kerase_cons_ne here, ih]
        exact add_left_comm _ _ _
  exact stored (AList.entries table)

theorem sum_insert (weigh : κ → ν → M) :
    (table.insert key value).sum weigh = weigh key value + (table.erase key).sum weigh :=
  sum_cons

theorem sum_ext {other : Table κ ν} (same : ∀ key, other.get key = table.get key) (weigh : κ → ν → M) :
    other.sum weigh = table.sum weigh := by
  have permuted : (AList.entries other).Perm (AList.entries table) := by
    apply lookup_ext (AList.nodupKeys other) (AList.nodupKeys table)
    intro key value
    exact of_eq (congrArg (value ∈ ·) (same key))
  exact ((permuted.map _).map _).sum_eq

end Sums

def total (table : Table κ ν) (weigh : κ → ν → Nat) : Nat :=
  (table.entries.map fun entry => weigh entry.1 entry.2).sum

variable {weigh weigh' : κ → ν → Nat}

section

variable (table key value weigh weigh')

theorem total_eq_erase : table.total weigh = (table.get key).elim 0 (weigh key) + (table.erase key).total weigh :=
  sum_eq_erase table key weigh

theorem total_insert : (table.insert key value).total weigh = weigh key value + (table.erase key).total weigh :=
  sum_cons

theorem total_insert_add : (table.insert key value).total weigh + (table.get key).elim 0 (weigh key) =
      table.total weigh + weigh key value := by
  have inserted := total_insert table key value weigh
  have before := total_eq_erase table key weigh
  omega

omit [DecidableEq κ] in
theorem total_retain : (table.retain keep).total weigh =
      table.total fun key value => if keep key value then weigh key value else 0 := by
  simp only [total, entries, retain, map_map]
  induction AList.entries table with
  | nil => rfl
  | cons entry rest ih =>
    by_cases kept : keep entry.1 entry.2 = true
    · simp [kept, ih]
    · simp [kept, ih]

omit [DecidableEq κ] in
theorem total_add :
    table.total (fun key value => weigh key value + weigh' key value) = table.total weigh + table.total weigh' := by
  simp only [total]
  induction table.entries with
  | nil => rfl
  | cons entry rest ih =>
    simp only [map_cons, sum_cons, ih]
    omega

omit [DecidableEq κ] in
theorem total_mapValues :
    (table.mapValues change).total weigh = table.total fun key value => weigh key (change value) := by
  simp only [total, entries_mapValues, map_map]
  rfl

end

theorem total_congr (agree : ∀ {key value}, table.get key = some value →
    weigh key value = weigh' key value) : table.total weigh = table.total weigh' := by
  have same : ∀ entry ∈ table.entries, weigh entry.1 entry.2 = weigh' entry.1 entry.2 :=
    fun entry member => agree (get_eq_some_iff_mem.mpr member)
  rw [total, total, map_congr_left same]

theorem total_ext {other : Table κ ν} (same : ∀ key, other.get key = table.get key)
    (weigh : κ → ν → Nat) : other.total weigh = table.total weigh := sum_ext same weigh

omit [DecidableEq κ] in
theorem total_mono (less : ∀ key value, weigh key value ≤ weigh' key value) :
    table.total weigh ≤ table.total weigh' := by
  simp only [total]
  induction table.entries with
  | nil => exact Nat.le_refl _
  | cons entry rest ih =>
    have first := less entry.1 entry.2
    simp only [map_cons, sum_cons]
    omega

theorem sum_map_get {keys : List κ} (distinct : keys.Nodup) (table : Table κ ν) (weigh : κ → ν → Nat) :
    (keys.map fun key => (table.get key).elim 0 (weigh key)).sum =
      table.total fun key value => if key ∈ keys then weigh key value else 0 := by
  induction keys with
  | nil => simp [total]
  | cons first rest ih =>
    obtain ⟨fresh, restDistinct⟩ := nodup_cons.mp distinct
    have split : (table.total fun key value => if key ∈ first :: rest then weigh key value else 0) =
        (table.total fun key value => if key = first then weigh key value else 0) +
          table.total fun key value => if key ∈ rest then weigh key value else 0 := by
      rw [← total_add]
      apply total_congr
      intro key value _
      by_cases here : key = first
      · subst here
        simp [fresh]
      · simp [here]
    have single : (table.total fun key value => if key = first then weigh key value else 0) =
        (table.get first).elim 0 (weigh first) := by
      rw [total_eq_erase table first]
      have none : ((table.erase first).total fun key value => if key = first then weigh key value else 0) = 0 := by
        have zero : ((table.erase first).total fun _ _ => 0) = 0 := by simp [total]
        refine (total_congr ?_).trans zero
        intro key value found
        rw [if_neg]
        intro same
        rw [same, get_erase_self] at found
        cases found
      rw [none]
      simp
    rw [map_cons, sum_cons, ih restDistinct, split, single]

theorem total_foldl_insert {entries : List (κ × ν)}
    (distinct : entries.Pairwise fun left right => left.1 ≠ right.1) (table : Table κ ν) (weigh : κ → ν → Nat) :
    (entries.foldl (fun table entry => table.insert entry.1 entry.2) table).total weigh +
        (entries.map fun entry => (table.get entry.1).elim 0 (weigh entry.1)).sum =
      table.total weigh + (entries.map fun entry => weigh entry.1 entry.2).sum := by
  induction entries generalizing table with
  | nil => rfl
  | cons first rest ih =>
    obtain ⟨fresh, restDistinct⟩ := pairwise_cons.mp distinct
    have later := ih restDistinct (table.insert first.1 first.2)
    -- the entries that follow have other keys, so the first insertion does not change what they replace
    have replaced : (rest.map fun entry => ((table.insert first.1 first.2).get entry.1).elim 0 (weigh entry.1)) =
        rest.map fun entry => (table.get entry.1).elim 0 (weigh entry.1) := by
      apply map_congr_left
      intro entry member
      rw [get_insert_ne (fresh entry member).symm]
    have here := total_insert_add table first.1 first.2 weigh
    rw [replaced] at later
    simp only [foldl_cons, map_cons, sum_cons]
    omega

theorem le_total (found : table.get key = some value) (weigh : κ → ν → Nat) : weigh key value ≤ table.total weigh := by
  rw [total_eq_erase table key, found]
  exact Nat.le_add_right _ _

end Table

end Karstflow.Data
