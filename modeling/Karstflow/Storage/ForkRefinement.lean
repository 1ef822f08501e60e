import Karstflow.Data.Steps
import Karstflow.Storage.AccountDatabase
import Karstflow.Storage.ForkPublishing

namespace Karstflow.Storage

open Data Karstflow.Types AccountDatabase List Octets Table Bool
open Option hiding all_eq_true

/-! The account database against the forks it stands for. -/

abbrev AccountForks := Forks TransactionId Pubkey Account

def AccountForks.apply (forks : AccountForks) : DatabaseOperation → AccountForks
  | .prepare parent child => forks.prepare (if parent = .root then none else some parent) child
  | .write xid key account => forks.write xid key account
  | .publish xid _ => forks.publish xid
  | .cancel xid => forks.cancel xid
  | .read _ _ => forks

/-- The database and the forks after some operations. There is no database if
a call did not return. -/
structure Course where
  database : Option AccountDatabase
  forks : AccountForks

def Course.step (course : Course) (operation : DatabaseOperation) : Course :=
  match course.database.bind fun database => database.step operation with
  | none => { course with database := none }
  | some (next, accepted) =>
    { database := some next, forks := if accepted then course.forks.apply operation else course.forks }

def Course.start (maxEntries : Nat) (store : Option (Table Pubkey Account)) : Course :=
  { database := some (.new maxEntries store), forks := .opening fun key => store.bind fun disk => disk.get key }

def course (maxEntries : Nat) (store : Option (Table Pubkey Account)) (operations : List DatabaseOperation) : Course :=
  operations.foldl .step (.start maxEntries store)

def AccountDatabase.shown (database : AccountDatabase) (xid : TransactionId) (key : Pubkey) : Option (Option Account) :=
  (database.readAccount xid key).map Prod.snd

/-- The database has these forks, walks their lineages and reads what they read. -/
structure Observes (database : AccountDatabase) (forks : AccountForks) : Prop where
  hasFork : ∀ xid, database.hasFork xid = forks.prepared xid
  ancestors : ∀ xid, xid ≠ .root → database.forkTree.ancestors xid = some (forks.lineage xid)
  reads : ∀ xid key, database.shown xid key = some (forks.read xid key)

section

variable {database next : AccountDatabase}

/-- The records are the writes, and the index knows them all. -/
structure Recorded (database : AccountDatabase) (forks : AccountForks) : Prop where
  records : ∀ xid key, database.records.get (xid, key) = forks.written xid key
  indexed : ∀ {xid key}, database.records.get (xid, key) ≠ none → key ∈ (database.txnRecords.get xid).getD []

theorem get_mergeRecords (indexed : database.records.get (xid, key) ≠ none →
      key ∈ (database.txnRecords.get xid).getD []) (updates : Table Pubkey Account) :
    (database.mergeRecords updates xid).get key = (database.records.get (xid, key)).or (updates.get key) := by
  rw [mergeRecords]
  generalize (database.txnRecords.get xid).getD [] = keys at indexed
  -- the last of the keys decides; each puts in the record of the transaction
  induction keys using reverseRecOn with
  | nil =>
    cases found : database.records.get (xid, key) with
    | none => rfl
    | some account => exact absurd (indexed (by simp [found])) not_mem_nil
  | append_singleton keys last ih =>
    rw [foldl_append, foldl_cons, foldl_nil]
    by_cases here : key = last
    · subst here
      cases found : database.records.get (xid, key) with
      | some account => simp
      | none =>
        rw [found] at ih
        exact ih (absurd rfl)
    · have earlier := ih fun present => by
        obtain member | only := mem_append.mp (indexed present)
        · exact member
        · exact absurd (mem_singleton.mp only) here
      cases found : database.records.get (xid, last) with
      | some account => rw [get_insert_ne here, earlier]
      | none => exact earlier

theorem Recorded.get_mergeChain (recorded : Recorded database forks) :
    (database.mergeChain chain).get key = chain.findSome? fun ancestor => forks.written ancestor key := by
  induction chain with
  | nil => rfl
  | cons newest rest ih =>
    rw [mergeChain, reverse_cons, foldl_append, foldl_cons, foldl_nil,
      get_mergeRecords recorded.indexed, recorded.records, findSome?_cons]
    cases forks.written newest key with
    | some account => rfl
    | none => exact ih

theorem forget_frame (database : AccountDatabase) (xids : List TransactionId) :
    (database.forget xids).published = database.published ∧ (database.forget xids).forkTree = database.forkTree := by
  induction xids generalizing database with
  | nil => exact ⟨rfl, rfl⟩
  | cons xid rest ih =>
    rw [forget, foldl_cons]
    split
    · exact ih { database with txnRecords := _, records := _ }
    · exact ih database

theorem forget_spec (xids : List TransactionId)
    (indexed : ∀ {xid key}, database.records.get (xid, key) ≠ none → key ∈ (database.txnRecords.get xid).getD []) :
    (∀ xid key, (database.forget xids).records.get (xid, key) =
        if xid ∈ xids then none else database.records.get (xid, key)) ∧
      ∀ {xid key}, (database.forget xids).records.get (xid, key) ≠ none →
        key ∈ ((database.forget xids).txnRecords.get xid).getD [] := by
  induction xids generalizing database with
  | nil => exact ⟨by simp [forget], indexed⟩
  | cons first rest ih =>
    rw [forget, foldl_cons]
    cases found : database.txnRecords.get first with
    | none =>
      have unrecorded : ∀ key, database.records.get (first, key) = none := by
        intro key
        by_contra present
        have listed := indexed present
        rw [found] at listed
        cases listed
      obtain ⟨dropped, still⟩ := ih indexed
      refine ⟨?_, still⟩
      intro xid key
      have rest := dropped xid key
      simp only [forget] at rest
      rw [rest]
      by_cases same : xid = first
      · subst same
        simp [unrecorded]
      · simp [same]
    | some keys =>
      have erased : ∀ xid key, ((keys.map fun key => (first, key)).foldl erase database.records).get (xid, key) =
          if xid = first then none else database.records.get (xid, key) := by
        intro xid key
        rw [get_foldl_erase]
        by_cases same : xid = first
        · subst same
          rw [if_pos rfl]
          by_cases listed : key ∈ keys
          · rw [if_pos (mem_map.mpr ⟨key, listed, rfl⟩)]
          split
          · rfl
          · by_contra present
            have known := indexed present
            rw [found] at known
            exact listed known
        · rw [if_neg same, if_neg]
          intro member
          obtain ⟨other, -, equal⟩ := mem_map.mp member
          exact same (congrArg Prod.fst equal).symm
      obtain ⟨dropped, still⟩ := @ih
        { database with
          txnRecords := database.txnRecords.erase first
          records := (keys.map fun key => (first, key)).foldl erase database.records } (by
        intro xid key present
        rw [erased] at present
        by_cases same : xid = first
        · rw [if_pos same] at present
          exact absurd rfl present
        · rw [if_neg same] at present
          rw [get_erase_ne same]
          exact indexed present)
      refine ⟨?_, still⟩
      intro xid key
      have rest := dropped xid key
      simp only [forget] at rest
      rw [rest, erased]
      by_cases same : xid = first
      · simp [same]
      · simp [same]

structure Represents (database : AccountDatabase) (forks : AccountForks) : Prop where
  sound : forks.Sound
  tracks : Tracks database.forkTree forks
  recorded : Recorded database forks
  unwritten : ∀ key, forks.written .root key = none
  cached : ∀ {xid chain}, database.ancestorCache.get xid = some chain → chain = forks.lineage xid
  holds : database.published.Holds forks.published

namespace Represents

theorem start (maxEntries : Nat) (store : Option (Table Pubkey Account)) :
    Represents (.new maxEntries store) (.opening fun key => store.bind fun disk => disk.get key) := by
  refine ⟨Forks.Sound.opening _, .opening _, ⟨fun _ _ => rfl, ?_⟩, fun _ => rfl, ?_,
    PublishedStore.Holds.new maxEntries store⟩
  · intro xid key present
    exact absurd rfl present
  · intro xid chain impossible
    cases impossible

section

variable (represents : Represents database forks)

include represents

theorem readPublished (key : Pubkey) :
    (database.readPublished key).2 = forks.published key ∧ Represents (database.readPublished key).1 forks := by
  obtain ⟨shown, holds⟩ := represents.holds.get key
  exact ⟨shown, represents.sound, represents.tracks, ⟨represents.recorded.records, represents.recorded.indexed⟩,
    represents.unwritten, represents.cached, holds⟩

theorem read_root : forks.read .root key = forks.published key := by
  have alone := represents.sound.lineage_alone (represents.tracks.unprepared_iff.mpr represents.tracks.root)
  rw [Forks.read, alone, findSome?_cons, represents.unwritten]
  rfl

theorem read_publish_root (notRoot : xid ≠ .root) : (forks.publish xid).read .root key = forks.read xid key := by
  have unprepared := represents.tracks.unprepared_iff.mpr represents.tracks.root
  have dead : forks.survives xid .root = false := by simp [Forks.survives, unprepared]
  simp [Forks.read, Forks.publish, dead, unprepared, notRoot.symm, represents.unwritten]

theorem cachedAncestors (notRoot : xid ≠ .root) :
    ∃ next, database.cachedAncestors xid = some (next, forks.lineage xid) ∧ Represents next forks := by
  rw [AccountDatabase.cachedAncestors]
  cases found : database.ancestorCache.get xid with
  | some chain => exact ⟨database, by rw [represents.cached found], represents⟩
  | none =>
    refine ⟨{ database with ancestorCache := database.ancestorCache.insert xid (forks.lineage xid) },
      by simp only [represents.tracks.ancestors_eq represents.sound notRoot, map_some], represents.sound,
      represents.tracks, ⟨represents.recorded.records, represents.recorded.indexed⟩, represents.unwritten, ?_,
      represents.holds⟩
    intro other chain stored
    rw [get_insert] at stored
    by_cases same : other = xid
    · rw [if_pos same] at stored
      rw [same]
      exact (some.inj stored).symm
    · rw [if_neg same] at stored
      exact represents.cached stored

theorem readAccount (xid : TransactionId) (key : Pubkey) :
    ∃ next, database.readAccount xid key = some (next, forks.read xid key) ∧ Represents next forks := by
  by_cases root : xid = .root
  · obtain ⟨shown, after⟩ := represents.readPublished key
    refine ⟨(database.readPublished key).1, ?_, after⟩
    rw [AccountDatabase.readAccount, if_pos root, root, represents.read_root, ← shown]
  obtain ⟨middle, chained, between⟩ := represents.cachedAncestors root
  have nearest : middle.nearestRecord (forks.lineage xid) key =
      (forks.lineage xid).findSome? fun ancestor => forks.written ancestor key := by
    simp only [nearestRecord, between.recorded.records]
  rw [AccountDatabase.readAccount, if_neg root, chained, map_some]
  simp only [nearest, Forks.read]
  cases (forks.lineage xid).findSome? fun ancestor => forks.written ancestor key with
  | some account => exact ⟨middle, rfl, between⟩
  | none =>
    obtain ⟨shown, after⟩ := between.readPublished key
    refine ⟨(middle.readPublished key).1, ?_, after⟩
    rw [none_or, ← shown]

theorem observes : Observes database forks := by
  refine ⟨represents.tracks.prepared, ?_, ?_⟩
  · intro xid notRoot
    exact represents.tracks.ancestors_eq represents.sound notRoot
  · intro xid key
    obtain ⟨next, read, -⟩ := represents.readAccount xid key
    rw [shown, read, map_some]

end

theorem prepare (represents : Represents database forks)
    (prepared : database.prepareTransaction parent child = .ok next)
    (unused : ∀ {xid node}, database.forkTree.nodes.get xid = some node → node.parent ≠ child) :
    Represents next (forks.apply (.prepare parent child)) := by
  rw [prepareTransaction] at prepared
  split at prepared
  · rename_i tree grown
    cases prepared
    obtain ⟨-, fresh, known, -⟩ := Tracks.prepare_eq_ok grown
    refine ⟨represents.sound.prepare (represents.tracks.unprepared_iff.mpr fresh) ?_,
      represents.tracks.prepare grown unused, ⟨represents.recorded.records, represents.recorded.indexed⟩,
      represents.unwritten, ?_, represents.holds⟩
    · intro above member
      by_cases top : parent = .root
      · rw [if_pos top] at member
        cases member
      · rw [if_neg top] at member
        cases member
        obtain ⟨node, found⟩ := ne_none_iff_exists'.mp (known.resolve_left top)
        exact represents.tracks.prepared_iff.mpr ⟨node, found⟩
    · intro xid chain impossible
      cases impossible
  · cases prepared

theorem writeAccount_eq_ok (written : database.writeAccount xid key account = .ok next) :
    xid ≠ .root ∧ database.forkTree.isFrozen xid = false ∧ next = { database with
        records := database.records.insert (xid, key) account
        txnRecords := database.txnRecords.insert xid
          (if key ∈ (database.txnRecords.get xid).getD [] then (database.txnRecords.get xid).getD []
          else key :: (database.txnRecords.get xid).getD []) } := by
  simp only [writeAccount, bind_eq_ok, demand_eq_ok, exists_const, pure_eq_ok] at written
  obtain ⟨notRoot, open_, same⟩ := written
  exact ⟨notRoot, open_, same.symm⟩

theorem write (represents : Represents database forks) (written : database.writeAccount xid key account = .ok next) :
    Represents next (forks.apply (.write xid key account)) := by
  obtain ⟨notRoot, -, same⟩ := writeAccount_eq_ok written
  subst same
  refine ⟨represents.sound.write xid key account, represents.tracks.congr rfl rfl, ⟨?_, ?_⟩, ?_, represents.cached,
    represents.holds⟩
  · intro other place
    simp only [AccountForks.apply, Forks.write, get_insert, Prod.mk.injEq, represents.recorded.records]
  · intro other place present
    rw [get_insert] at present ⊢
    by_cases same : other = xid
    · subst same
      rw [if_pos rfl, getD_some]
      by_cases here : place = key
      · subst here
        split
        · assumption
        · exact mem_cons_self
      · rw [if_neg (by simp [here])] at present
        have listed := represents.recorded.indexed present
        split
        · exact listed
        · exact mem_cons_of_mem _ listed
    · rw [if_neg (by simp [same])] at present
      rw [if_neg same]
      exact represents.recorded.indexed present
  · intro place
    refine (if_neg ?_).trans (represents.unwritten place)
    intro both
    exact notRoot both.1.symm

theorem apart_of_unfrozen (represents : Represents database forks) (notRoot : xid ≠ .root)
    (unfrozen : database.forkTree.isFrozen xid = false) (apart : other ≠ xid) : xid ∉ forks.lineage other := by
  intro above
  obtain ⟨node, found⟩ := represents.tracks.prepared_iff.mp (represents.sound.standing above apart.symm).2
  obtain ⟨step, -, lower, foundStep, same⟩ :=
    represents.tracks.child_of_ancestor represents.sound above apart.symm
  have listed := (represents.tracks.children found step).mpr ⟨lower, foundStep, same⟩
  rw [ForkTree.isFrozen, if_neg notRoot, found, map_some, getD_some, not_eq_false', List.isEmpty_iff] at unfrozen
  rw [unfrozen] at listed
  cases listed

section

variable (represents : Represents database forks)

include represents

theorem publishTransaction_eq (notRoot : xid ≠ .root) (taken : Nat) : ∃ competitors tree,
      (∀ lower, lower ∈ competitors ↔ Tracks.Competes database.forkTree forks (forks.lineage xid) lower) ∧
      database.forkTree.removeAll competitors = some tree ∧
      database.publishTransaction xid taken = .ok (some { database.forget (forks.lineage xid ++ competitors) with
          published := (database.published.lookUp (database.mergeChain (forks.lineage xid)).entries).insertBatch
            (database.mergeChain (forks.lineage xid)) taken
          forkTree := tree.removeChain (forks.lineage xid)
          ancestorCache := empty }) := by
  obtain ⟨competitors, listed, listed_iff⟩ := represents.tracks.competingBranches_eq represents.sound notRoot
  obtain ⟨tree, removed, -⟩ := represents.tracks.removeAll represents.sound competitors
  refine ⟨competitors, tree, listed_iff, removed, ?_⟩
  simp only [publishTransaction, if_neg notRoot, publishChain,
    represents.tracks.ancestors_eq represents.sound notRoot, listed, removed, bind_eq_bind, bind_some, Option.pure_def]

theorem forget_published (clears : database.forkTree.clears (forks.lineage xid) = true)
    (listed_iff : ∀ lower, lower ∈ competitors ↔ Tracks.Competes database.forkTree forks (forks.lineage xid) lower) :
    Recorded (database.forget (forks.lineage xid ++ competitors)) (forks.publish xid) := by
  obtain ⟨dropped, indexed⟩ := forget_spec (forks.lineage xid ++ competitors) represents.recorded.indexed
  refine ⟨?_, indexed⟩
  intro place key
  have sound := represents.sound
  have tracks := represents.tracks
  simp only [dropped, represents.recorded.records, mem_append, Forks.publish]
  by_cases survives : forks.survives xid place = true
  · obtain ⟨-, apart, below⟩ := Forks.Sound.survives_iff.mp survives
    have kept := Tracks.related_kept listed_iff tracks sound (.inr below)
    rw [if_pos survives, if_neg]
    intro either
    obtain onChain | competitor := either
    · exact apart (sound.antisymm onChain below)
    · exact kept place competitor (sound.self_mem place)
  · rw [if_neg survives]
    by_cases gone : forks.prepared place = true ∨ place = xid
    · rw [if_pos gone, if_pos]
      by_cases itself : place = xid
      · rw [itself]
        exact .inl (sound.self_mem xid)
      have prepared := gone.resolve_right itself
      obtain ⟨node, found⟩ := tracks.prepared_iff.mp prepared
      have notBelow : xid ∉ forks.lineage place := by
        intro below
        exact survives (Forks.Sound.survives_iff.mpr ⟨prepared, itself, below⟩)
      obtain onChain | competes := tracks.related_or_competitor sound clears found notBelow
      · exact .inl onChain
      · exact .inr ((listed_iff place).mpr competes)
    · obtain ⟨unprepared, itself⟩ := not_or.mp gone
      have alone := sound.lineage_alone (not_eq_true _ ▸ unprepared)
      rw [if_neg gone, if_neg]
      intro either
      obtain onChain | competitor := either
      · exact unprepared (sound.standing onChain itself).2
      obtain ⟨ancestor, -, node, -, sibling, member, under⟩ := (listed_iff place).mp competitor
      obtain ⟨-, -, other, found, -⟩ := tracks.mem_siblings.mp member
      rw [alone, mem_singleton] at under
      rw [under] at found
      exact unprepared (tracks.prepared_iff.mpr ⟨other, found⟩)

theorem publish (notRoot : xid ≠ .root) (clears : database.forkTree.clears (forks.lineage xid) = true)
    (fits : database.published.fits (database.mergeChain (forks.lineage xid)) = true)
    (persists : database.published.persists (database.mergeChain (forks.lineage xid)) taken = true) :
    ∃ next, database.publishTransaction xid taken = .ok (some next) ∧
      Represents next (forks.apply (.publish xid taken)) := by
  obtain ⟨competitors, tree, listed_iff, removed, published⟩ := represents.publishTransaction_eq notRoot taken
  refine ⟨_, published, ?_⟩
  obtain ⟨again, removedAgain, tracks⟩ :=
    Tracks.publish listed_iff represents.tracks represents.sound clears
  rw [removed] at removedAgain
  cases removedAgain
  obtain ⟨records, indexed⟩ := represents.forget_published clears listed_iff
  refine ⟨represents.sound.publish xid, tracks, ⟨records, indexed⟩, ?_, ?_, ?_⟩
  · intro key
    have unprepared := represents.tracks.unprepared_iff.mpr represents.tracks.root
    have dead : forks.survives xid .root = false := by simp [Forks.survives, unprepared]
    simp [AccountForks.apply, Forks.publish, dead, unprepared, notRoot.symm, represents.unwritten]
  · intro other chain impossible
    cases impossible
  · have looked := represents.holds.lookUp (database.mergeChain (forks.lineage xid)).entries
    have shown := looked.insertBatch ((represents.holds.fits_lookUp _).trans fits)
      ((PublishedStore.persists_lookUp _ _).trans persists)
    have content : (fun key => ((database.mergeChain (forks.lineage xid)).get key).or (forks.published key)) =
        (forks.publish xid).published := by
      funext key
      rw [represents.recorded.get_mergeChain]
      rfl
    rw [content] at shown
    exact shown

theorem cancel (notRoot : xid ≠ .root) :
    ∃ next, database.cancelTransaction xid = .ok (some next) ∧ Represents next (forks.apply (.cancel xid)) := by
  obtain ⟨descendants, explored, below⟩ := represents.tracks.descendants_eq represents.sound xid
  obtain ⟨tree, removed, tracks⟩ := represents.tracks.remove represents.sound xid
  refine ⟨{ database.forget (descendants ++ [xid]) with forkTree := tree, ancestorCache := empty }, ?_, ?_⟩
  · simp only [cancelTransaction, if_neg notRoot, cancelBranch, explored, removed,
      bind_eq_bind, bind_some, Option.pure_def]
  · obtain ⟨dropped, indexed⟩ := forget_spec (descendants ++ [xid]) represents.recorded.indexed
    refine ⟨represents.sound.cancel xid, tracks, ⟨?_, indexed⟩, ?_, ?_, ?_⟩
    · intro place key
      have listed : place ∈ descendants ++ [xid] ↔ xid ∈ forks.lineage place := by
        rw [mem_append, mem_singleton, below]
        by_cases itself : place = xid
        · subst itself
          simp [represents.sound.self_mem place]
        · simp [itself]
      simp only [dropped, listed, represents.recorded.records, AccountForks.apply, Forks.cancel]
    · intro key
      simp only [AccountForks.apply, Forks.cancel, represents.unwritten, ite_self]
    · intro other chain impossible
      cases impossible
    · rw [(forget_frame database (descendants ++ [xid])).1]
      exact represents.holds

end

end Represents

end

def ForkTree.unclaimed (tree : ForkTree) (xid : TransactionId) : Bool :=
  tree.nodes.entries.all fun entry => entry.2.parent ≠ xid

theorem ForkTree.unclaimed_iff {tree : ForkTree} :
    tree.unclaimed xid = true ↔ ∀ {place node}, tree.nodes.get place = some node → node.parent ≠ xid := by
  simp only [unclaimed, all_eq_true, decide_eq_true_eq]
  constructor
  · intro all place node found
    exact all (place, node) (get_eq_some_iff_mem.mp found)
  · intro all entry member
    exact all (get_eq_some_iff_mem.mpr member)

/-- The operation takes no name that a fork still has as its parent, and
publishes only if the chain clears the tree and the accounts fit. -/
def AccountDatabase.accommodates (database : AccountDatabase) : DatabaseOperation → Bool
  | .prepare parent child => !(database.forkTree.prepare parent child).isOk || database.forkTree.unclaimed child
  | .publish xid _ =>
    xid = .root || (database.forkTree.ancestors xid).all fun chain =>
      database.forkTree.clears chain && database.published.fits (database.mergeChain chain)
  | _ => true

/-- What an operation publishes gets to the disk, if there is one. -/
def AccountDatabase.persists (database : AccountDatabase) : DatabaseOperation → Bool
  | .publish xid taken =>
    (database.forkTree.ancestors xid).all fun chain => database.published.persists (database.mergeChain chain) taken
  | _ => true

/-- What an operation leaves alone: who is not concerned reads as before, and
publishing makes what the fork reads the published state. -/
def Keeps (before : AccountDatabase) (operation : DatabaseOperation) (after : AccountDatabase) : Prop :=
  match operation with
  | .prepare _ child => ∀ xid key, xid ≠ child → after.shown xid key = before.shown xid key
  | .write fork _ _ => ∀ xid key, xid ≠ fork → after.shown xid key = before.shown xid key
  | .publish fork _ =>
    (fork ≠ .root → ∀ key, after.shown .root key = before.shown fork key) ∧
      ∀ xid key, after.hasFork xid = true → after.shown xid key = before.shown xid key
  | .cancel _ => ∀ xid key, xid = .root ∨ after.hasFork xid = true → after.shown xid key = before.shown xid key
  | .read _ _ => ∀ xid key, after.shown xid key = before.shown xid key

section

variable {operation : DatabaseOperation} {next : AccountDatabase}

theorem Represents.step (represents : Represents database forks) (allowed : database.accommodates operation = true)
    (persists : database.persists operation = true) :
    ∃ next accepted, database.step operation = some (next, accepted) ∧
      Represents next (if accepted then forks.apply operation else forks) := by
  cases operation with
  | prepare parent child =>
    cases prepared : database.prepareTransaction parent child with
    | error error => exact ⟨database, false, by simp only [step, prepared], represents⟩
    | ok next =>
      have grown : (database.forkTree.prepare parent child).isOk = true := by
        rw [prepareTransaction] at prepared
        cases tree : database.forkTree.prepare parent child with
        | ok tree => rfl
        | error error => simp [tree] at prepared
      simp only [accommodates, grown] at allowed
      exact ⟨next, true, by simp only [step, prepared],
        represents.prepare prepared (ForkTree.unclaimed_iff.mp allowed)⟩
  | write xid key account =>
    cases written : database.writeAccount xid key account with
    | error error => exact ⟨database, false, by simp only [step, written], represents⟩
    | ok next => exact ⟨next, true, by simp only [step, written], represents.write written⟩
  | publish xid taken =>
    by_cases root : xid = .root
    · exact ⟨database, false, by simp only [step, publishTransaction, if_pos root],
        represents⟩
    · simp only [accommodates, root, decide_false, Bool.false_or,
        represents.tracks.ancestors_eq represents.sound root, all_some, and_eq_true] at allowed
      simp only [AccountDatabase.persists, represents.tracks.ancestors_eq represents.sound root, all_some] at persists
      obtain ⟨next, published, after⟩ := represents.publish root allowed.1 allowed.2 persists
      exact ⟨next, true, by simp only [step, published, map_some], after⟩
  | cancel xid =>
    by_cases root : xid = .root
    · exact ⟨database, false, by simp only [step, cancelTransaction, if_pos root],
        represents⟩
    · obtain ⟨next, cancelled, after⟩ := represents.cancel root
      exact ⟨next, true, by simp only [step, cancelled, map_some], after⟩
  | read xid key =>
    obtain ⟨next, read, after⟩ := represents.readAccount xid key
    exact ⟨next, true, by simp only [step, read, map_some], after⟩

theorem Observes.shown_eq (observes : Observes next forks) (before : Observes other others)
    (same : forks.read xid key = others.read xid key) : next.shown xid key = other.shown xid key := by
  rw [observes.reads, before.reads, same]

theorem Represents.keeps (represents : Represents database forks)
    (stepped : database.step operation = some (next, accepted))
    (after : Represents next (if accepted then forks.apply operation else forks)) : Keeps database operation next := by
  have before := represents.observes
  have now := after.observes
  cases accepted with
  | false =>
    have same : ∀ xid key, next.shown xid key = database.shown xid key := by
      intro xid key
      exact now.shown_eq before rfl
    cases operation with
    | prepare parent child | write fork key account | cancel fork => exact fun xid key _ => same xid key
    | publish fork taken =>
      refine ⟨?_, fun xid key _ => same xid key⟩
      intro notRoot
      obtain ⟨competitors, tree, -, -, published⟩ := represents.publishTransaction_eq notRoot taken
      simp [AccountDatabase.step, published] at stepped
    | read fork key => exact same
  | true =>
    cases operation with
    | prepare parent child =>
      intro xid key apart
      exact now.shown_eq before (Forks.Sound.read_prepare forks apart key)
    | write fork place account =>
      intro xid key apart
      have written : database.writeAccount fork place account = .ok next := by
        simp only [AccountDatabase.step] at stepped
        split at stepped
        · rename_i written
          rw [written]
          cases stepped
          rfl
        · cases stepped
      obtain ⟨notRoot, unfrozen, -⟩ := writeAccount_eq_ok written
      exact now.shown_eq before
        (Forks.Sound.read_write forks (represents.apart_of_unfrozen notRoot unfrozen apart) place key account)
    | publish fork taken =>
      refine ⟨?_, ?_⟩
      · intro _ key
        rw [now.reads, before.reads, after.read_root]
        rfl
      · intro xid key left
        rw [now.hasFork] at left
        exact now.shown_eq before (represents.sound.read_publish left key)
    | cancel fork =>
      intro xid key concerned
      obtain root | left := concerned
      · subst root
        rw [now.reads, before.reads, after.read_root, represents.read_root]
        rfl
      rw [now.hasFork] at left
      have apart : fork ∉ forks.lineage xid := by
        simp only [if_true, AccountForks.apply, Forks.cancel, and_eq_true, decide_eq_true_eq] at left
        exact left.2
      exact now.shown_eq before (represents.sound.read_cancel apart key)
    | read fork place =>
      intro xid key
      exact now.shown_eq before rfl

/-- A fork whose parent has been published stands alone, until another
transaction takes the name of the parent. -/
theorem Represents.unclaimed_of_ancestors
    (represents : Represents database forks) (grown : database.forkTree.prepare parent child = .ok tree)
    (walks : ∀ xid, xid ≠ .root → tree.ancestors xid = some ((forks.apply (.prepare parent child)).lineage xid)) :
    database.forkTree.unclaimed child = true := by
  rw [ForkTree.unclaimed_iff]
  intro place node found claimed
  obtain ⟨notRoot, fresh, -, -⟩ := Tracks.prepare_eq_ok grown
  have get := Tracks.get_prepare grown
  have apart : place ≠ child := by
    intro same
    rw [same, fresh] at found
    cases found
  have placeRoot : place ≠ .root := by
    intro same
    rw [same, represents.tracks.root] at found
    cases found
  have alone := represents.tracks.top found (by rw [claimed]; exact fresh)
  have line : (forks.apply (.prepare parent child)).lineage place = [place] := (if_neg apart).trans alone
  have walked := walks place placeRoot
  rw [line] at walked
  -- now its chain goes on to the new transaction
  obtain ⟨now, foundNow, sameParent⟩ : ∃ now, tree.nodes.get place = some now ∧ now.parent = child := by
    rw [get, if_neg apart]
    split
    · exact ⟨{ node with children := node.children ++ [child] }, by rw [found, map_some], claimed⟩
    · exact ⟨node, found, claimed⟩
  have foundChild : tree.nodes.get child = some { parent, children := [] } := by rw [get, if_pos rfl]
  exact Tracks.ancestors_ne_singleton placeRoot foundNow (by rw [sameParent]; exact notRoot)
    (by rw [sameParent, foundChild]; exact some_ne_none _) walked

theorem Represents.accommodates (represents : Represents database forks)
    (stepped : database.step operation = some (next, accepted))
    (observes : Observes next (if accepted then forks.apply operation else forks)) :
    database.accommodates operation = true := by
  cases operation with
  | prepare parent child =>
    rw [accommodates, or_eq_true]
    cases grown : database.forkTree.prepare parent child with
    | error error => exact .inl rfl
    | ok tree =>
      simp only [AccountDatabase.step, prepareTransaction, grown, Option.some.injEq, Prod.mk.injEq] at stepped
      obtain ⟨same, acceptedTrue⟩ := stepped
      subst same acceptedTrue
      exact .inr (represents.unclaimed_of_ancestors grown observes.ancestors)
  | write xid key account | cancel xid | read xid key => rfl
  | publish xid taken =>
    by_cases root : xid = .root
    · simp [accommodates, root]
    simp only [accommodates, root, decide_false, Bool.false_or,
      represents.tracks.ancestors_eq represents.sound root, all_some, and_eq_true]
    obtain ⟨competitors, tree, listed_iff, removed, published⟩ := represents.publishTransaction_eq root taken
    simp only [AccountDatabase.step, published, map_some, Option.some.injEq, Prod.mk.injEq] at stepped
    obtain ⟨same, acceptedTrue⟩ := stepped
    subst same acceptedTrue
    refine ⟨?_, ?_⟩
    · by_contra unclear
      obtain ⟨again, place, removedAgain, left, dead⟩ := Tracks.publish_leaves listed_iff represents.tracks
        represents.sound (eq_false_iff.mpr unclear)
      rw [removed] at removedAgain
      cases removedAgain
      have gone : (forks.apply (.publish xid taken)).prepared place = false := dead
      have there := observes.hasFork place
      rw [if_pos rfl, gone, hasFork, left] at there
      cases there
    · rw [← represents.holds.fits_lookUp (database.mergeChain (forks.lineage xid)).entries]
      apply (represents.holds.lookUp _).fits_of_insertBatch
      intro key
      have shown := observes.reads .root key
      rw [represents.recorded.get_mergeChain]
      simp only [if_true, AccountForks.apply, represents.read_publish_root root, AccountDatabase.shown,
        AccountDatabase.readAccount, AccountDatabase.readPublished, map_some, Option.some.injEq] at shown
      exact shown

end

end Karstflow.Storage
