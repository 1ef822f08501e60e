import Karstflow.Storage.ForkLineage

namespace Karstflow.Storage

open Data ForkTree Option

/-! What removing and publishing leave of the fork tree. -/

section

variable {tree : ForkTree} {forks other : Forks TransactionId κ ν}
variable {node : ForkNode}

theorem ForkTree.get_drop : (tree.drop xids).nodes.get xid = if xid ∈ xids then none else tree.nodes.get xid :=
  Table.get_foldl_erase tree.nodes xids xid

namespace Tracks

section

variable (tracks : Tracks tree forks)

include tracks

theorem get_unlink :
    (tree.unlink xid).nodes.get place =
      (tree.nodes.get place).map fun node => { node with children := node.children.filter fun id => id ≠ xid } := by
  -- the node under `place` lists `xid` only if it is the parent
  have elsewhere : (∀ node, tree.nodes.get xid = some node → node.parent ≠ place) → tree.nodes.get place =
      (tree.nodes.get place).map fun node => { node with children := node.children.filter fun id => id ≠ xid } := by
    intro apart
    cases there : tree.nodes.get place with
    | none => rfl
    | some other =>
      have whole : (other.children.filter fun id => id ≠ xid) = other.children := by
        apply List.filter_eq_self.mpr
        intro id member
        obtain ⟨node, found, same⟩ := (tracks.children there id).mp member
        have unequal : id ≠ xid := by
          rintro rfl
          exact apart node found same
        simpa using unequal
      rw [map_some, whole]
  cases found : tree.nodes.get xid with
  | none =>
    simp only [unlink, found]
    exact elsewhere (by simp [found])
  | some node =>
    simp only [unlink, found]
    by_cases here : place = node.parent
    · by_cases top : node.parent = .root
      · rw [if_pos top, here, top, tracks.root]
        rfl
      · rw [if_neg top, Table.get_modify, if_pos here, here]
    · have same := elsewhere (by simpa [found] using Ne.symm here)
      split
      · exact same
      · rw [Table.get_modify, if_neg here]
        exact same

theorem children_unlink : (tree.unlink xid).children place = (tree.children place).filter fun id => id ≠ xid := by
  rw [ForkTree.children, ForkTree.children, tracks.get_unlink]
  cases tree.nodes.get place with
  | none => rfl
  | some node => rfl

theorem mem_children_unlink :
    child ∈ (tree.unlink xid).children parent ↔ child ∈ tree.children parent ∧ child ≠ xid := by
  simp [tracks.children_unlink]

theorem descendants_unlink (sound : forks.Sound) (xid : TransactionId) :
    ∃ found, (tree.unlink xid).descendants xid = some found ∧
      ∀ lower, lower ∈ found ↔ lower ≠ xid ∧ xid ∈ forks.lineage lower := by
  have forest : Forest (tree.unlink xid).children fun xid => (forks.lineage xid).length := by
    refine ⟨?_, ?_, ?_⟩
    · intro left right child first second
      exact tracks.forest.unique ((tracks.mem_children_unlink).mp first).1
        ((tracks.mem_children_unlink).mp second).1
    · intro place
      rw [tracks.children_unlink]
      exact (tracks.nodup_children place).filter _
    · intro parent child member
      exact tracks.forest.ranked ((tracks.mem_children_unlink).mp member).1
  have inside : ∀ {parent child}, child ∈ (tree.unlink xid).children parent →
      child ∈ (tree.unlink xid).nodes.entries.map Prod.fst := by
    intro parent child member
    obtain ⟨-, node, found, -⟩ := tracks.mem_children.mp ((tracks.mem_children_unlink).mp member).1
    have stored : (tree.unlink xid).nodes.get child =
        some { node with children := node.children.filter fun id => id ≠ xid } := by
      rw [tracks.get_unlink, found, map_some]
    exact List.mem_map.mpr ⟨_, Table.get_eq_some_iff_mem.mp stored, rfl⟩
  obtain ⟨found, explored, below⟩ := explore_eq_some forest inside xid
  rw [List.length_map] at explored
  refine ⟨found, explored, ?_⟩
  intro lower
  rw [below, ← tracks.transGen_children sound]
  constructor
  · intro path
    exact Relation.TransGen.mono (fun parent child edge => ((tracks.mem_children_unlink).mp edge).1) _ _ path
  · intro path
    -- no edge of the path ends in `xid` itself
    induction path with
    | single edge =>
      have apart := ((tracks.transGen_children sound).mp (Relation.TransGen.single edge)).1
      exact Relation.TransGen.single ((tracks.mem_children_unlink).mpr ⟨edge, apart⟩)
    | tail walked edge ih =>
      have apart := ((tracks.transGen_children sound).mp (walked.tail edge)).1
      exact ih.tail ((tracks.mem_children_unlink).mpr ⟨edge, apart⟩)

theorem remove_eq (sound : forks.Sound) :
    ∃ next, tree.remove xid = some next ∧
      ∀ place, next.nodes.get place =
        if xid ∈ forks.lineage place then none
        else (tree.nodes.get place).map fun node =>
          { node with children := node.children.filter fun id => id ≠ xid } := by
  obtain ⟨found, explored, below⟩ := tracks.descendants_unlink sound xid
  refine ⟨((tree.unlink xid).drop found).drop [xid], by simp only [remove, explored, map_some], ?_⟩
  intro place
  rw [get_drop, get_drop, tracks.get_unlink]
  by_cases itself : place = xid
  · subst itself
    rw [if_pos (List.mem_singleton.mpr rfl), if_pos (sound.self_mem place)]
  · rw [if_neg (by simpa using itself)]
    by_cases under : xid ∈ forks.lineage place
    · rw [if_pos ((below place).mpr ⟨itself, under⟩), if_pos under]
    · rw [if_neg fun member => under ((below place).mp member).2, if_neg under]

theorem prune [DecidablePred gone]
    (get : ∀ place, next.nodes.get place = if gone place then none
      else (tree.nodes.get place).map fun node => { node with children := node.children.filter keep })
    (agree : ∀ {place parent}, tree.parentOf place = some parent → ¬ gone parent → (gone place ↔ keep place = false))
    (prepared : ∀ place, other.prepared place = true ↔ forks.prepared place = true ∧ ¬ gone place)
    (lineage : ∀ {place parent}, tree.parentOf place = some parent → ¬ gone place →
      other.lineage place = place :: if other.prepared parent then other.lineage parent else []) :
    Tracks next other := by
  have parents : ∀ place, next.parentOf place = if gone place then none else tree.parentOf place := by
    intro place
    rw [parentOf, get]
    split <;> simp [parentOf, Function.comp_def]
  have listed : ∀ place, next.children place = if gone place then [] else (tree.children place).filter keep := by
    intro place
    rw [ForkTree.children, get, ForkTree.children]
    cases tree.nodes.get place <;> split <;> simp
  apply ofParents
  · simp [parentOf, get, tracks.root]
  · intro place
    rw [Bool.eq_iff_iff, prepared, ← tracks.prepared, parents, parentOf, contains, Table.contains]
    by_cases leaves : gone place <;> simp [leaves]
  · intro place parent named
    rw [parents] at named
    split at named
    · cases named
    · next stays => exact lineage named stays
  · intro place present child
    obtain ⟨present, stays⟩ := (prepared place).mp present
    rw [listed, if_neg stays, List.mem_filter, tracks.mem_children_iff present, parents]
    by_cases leaves : gone child
    · simp only [leaves, if_true, reduceCtorEq, iff_false, not_and, Bool.not_eq_true]
      exact fun named => (agree named stays).mp leaves
    · simp only [leaves, if_false, and_iff_left_iff_imp]
      exact fun named => Bool.of_not_eq_false fun dropped => leaves ((agree named stays).mpr dropped)
  · intro place
    rw [listed]
    split
    · exact List.nodup_nil
    · exact (tracks.nodup_children place).filter _

theorem remove (sound : forks.Sound) (xid : TransactionId) :
    ∃ next, tree.remove xid = some next ∧ Tracks next (forks.cancel xid) := by
  obtain ⟨next, removed, get⟩ := tracks.remove_eq sound
  refine ⟨next, removed, tracks.prune get ?_ ?_ ?_⟩
  · -- a child that goes, goes with its parent or is the branch itself
    intro place parent named stays
    rw [tracks.lineage_eq named, List.mem_cons, or_iff_left, decide_eq_false_iff_not, not_not]
    · exact eq_comm
    · split
      · exact stays
      · exact List.not_mem_nil
  · intro place
    simp [Forks.cancel]
  · intro place parent named apart
    rw [show (forks.cancel xid).lineage place = forks.lineage place from if_neg apart, tracks.lineage_eq named]
    rw [tracks.lineage_eq named, List.mem_cons, not_or] at apart
    by_cases known : forks.prepared parent = true
    · rw [if_pos known] at apart
      simp [Forks.cancel, known, apart.2]
    · simp [Forks.cancel, known]

theorem removeAll (sound : forks.Sound) (xids : List TransactionId) :
    ∃ next, tree.removeAll xids = some next ∧ Tracks next (xids.foldl .cancel forks) := by
  induction xids generalizing tree forks with
  | nil => exact ⟨tree, rfl, tracks⟩
  | cons xid rest ih =>
    obtain ⟨middle, removed, middleTracks⟩ := tracks.remove sound xid
    obtain ⟨next, removedAll, nextTracks⟩ := ih middleTracks (sound.cancel xid)
    exact ⟨next, by rw [removeAll, removed]; exact removedAll, nextTracks⟩

end

end Tracks

theorem sound_cancelAll (sound : forks.Sound) (xids : List TransactionId) : (xids.foldl .cancel forks).Sound := by
  induction xids generalizing forks with
  | nil => exact sound
  | cons xid rest ih => exact ih (sound.cancel xid)

theorem prepared_cancelAll (forks : Forks TransactionId κ ν) (xids : List TransactionId) (place : TransactionId) :
    (xids.foldl .cancel forks).prepared place = true ↔
      forks.prepared place = true ∧ ∀ xid ∈ xids, xid ∉ forks.lineage place := by
  induction xids generalizing forks with
  | nil => simp
  | cons xid rest ih =>
    rw [List.foldl_cons, ih]
    by_cases under : xid ∈ forks.lineage place
    · simp [Forks.cancel, under]
    · simp [Forks.cancel, under]

theorem lineage_cancelAll (forks : Forks TransactionId κ ν) (xids : List TransactionId)
    (apart : ∀ xid ∈ xids, xid ∉ forks.lineage place) :
    (xids.foldl .cancel forks).lineage place = forks.lineage place := by
  induction xids generalizing forks with
  | nil => rfl
  | cons xid rest ih =>
    have kept : (forks.cancel xid).lineage place = forks.lineage place := if_neg (apart xid List.mem_cons_self)
    rw [List.foldl_cons, ih, kept]
    intro other member
    rw [kept]
    exact apart other (List.mem_cons_of_mem _ member)

/-- Every fork at the top is part of the chain, or a child of the root as the
top of the chain is. -/
def ForkTree.clears (tree : ForkTree) (chain : List TransactionId) : Bool :=
  tree.nodes.entries.all fun entry =>
    tree.contains entry.2.parent || chain.contains entry.1 ||
      entry.2.parent = .root && chain.any fun ancestor =>
        (tree.nodes.get ancestor).any fun node => node.parent = .root

theorem ForkTree.clears_iff : tree.clears chain = true ↔
    ∀ {xid node}, tree.nodes.get xid = some node → tree.nodes.get node.parent = none → xid ∈ chain ∨
      node.parent = .root ∧ ∃ ancestor ∈ chain, ∃ top, tree.nodes.get ancestor = some top ∧ top.parent = .root := by
  simp only [clears, List.all_eq_true, Bool.or_eq_true, Bool.and_eq_true, decide_eq_true_eq, List.any_eq_true,
    any_eq_true_iff_get, contains, Table.contains, List.contains_iff_mem]
  constructor
  · intro all xid node found top
    have entry := all (xid, node) (Table.get_eq_some_iff_mem.mp found)
    simp only [top, isSome_none, Bool.false_eq_true, false_or] at entry
    obtain member | rooted := entry
    · exact .inl member
    · obtain ⟨same, ancestor, member, present, above⟩ := rooted
      exact .inr ⟨same, ancestor, member, _, (some_get present).symm, above⟩
  · intro all entry stored
    cases above : tree.nodes.get entry.2.parent with
    | some upper => exact .inl (.inl rfl)
    | none =>
      obtain member | rooted := all (Table.get_eq_some_iff_mem.mpr stored) above
      · exact .inl (.inr member)
      · obtain ⟨same, ancestor, member, top, found, above⟩ := rooted
        exact .inr ⟨same, ancestor, member, by simp [found], by simpa [found] using above⟩

namespace Tracks

section

variable (tracks : Tracks tree forks) (sound : forks.Sound)

include tracks sound

theorem child_of_ancestor (above : ancestor ∈ forks.lineage xid) (apart : ancestor ≠ xid) :
    ∃ step ∈ forks.lineage xid, ∃ node, tree.nodes.get step = some node ∧ node.parent = ancestor := by
  induction size : (forks.lineage xid).length using Nat.strongRecOn generalizing xid with
  | ind size ih =>
    obtain ⟨node, found⟩ := tracks.prepared_iff.mp (sound.standing above apart).1
    obtain same | further := (tracks.mem_lineage found).mp above
    · exact absurd same apart
    obtain ⟨known, higher⟩ := further
    by_cases direct : ancestor = node.parent
    · exact ⟨xid, sound.self_mem xid, node, found, direct.symm⟩
    · have shorter := tracks.length_parent found known
      obtain ⟨step, member, rest⟩ := ih _ (by omega) higher direct rfl
      exact ⟨step, (tracks.mem_lineage found).mpr (.inr ⟨known, member⟩), rest⟩

theorem siblings_apart (foundFirst : tree.nodes.get first = some left)
    (foundSecond : tree.nodes.get second = some right) (same : left.parent = right.parent) (apart : first ≠ second)
    (above : first ∈ forks.lineage xid) : second ∉ forks.lineage xid := by
  have never : ∀ {first second : TransactionId} {left right : ForkNode}, tree.nodes.get first = some left →
      tree.nodes.get second = some right → left.parent = right.parent → first ≠ second →
      second ∉ forks.lineage first := by
    intro first second left right foundFirst foundSecond same apart member
    obtain equal | further := (tracks.mem_lineage foundFirst).mp member
    · exact apart equal.symm
    obtain ⟨known, higher⟩ := further
    rw [same] at known higher
    have longer := tracks.length_parent foundSecond known
    have shorter := (sound.upward higher).length_le
    omega
  intro also
  obtain within | within := List.suffix_or_suffix_of_suffix (sound.upward above) (sound.upward also)
  · exact never foundSecond foundFirst same.symm apart.symm (within.subset (sound.self_mem first))
  · exact never foundFirst foundSecond same apart (within.subset (sound.self_mem second))

theorem competitor_apart (onChain : ancestor ∈ forks.lineage xid)
    (found : tree.nodes.get ancestor = some node) (member : sibling ∈ tree.siblings ancestor node)
    (related : place ∈ forks.lineage xid ∨ xid ∈ forks.lineage place) : sibling ∉ forks.lineage place := by
  obtain ⟨apart, -, other, foundSibling, same⟩ := tracks.mem_siblings.mp member
  intro above
  obtain upper | lower := related
  · exact tracks.siblings_apart sound found foundSibling same.symm apart.symm onChain (sound.mem_trans above upper)
  · exact tracks.siblings_apart sound found foundSibling same.symm apart.symm (sound.mem_trans onChain lower) above

/-- If the chain clears the tree, whatever is neither above nor below the
transaction is below a competitor. -/
theorem related_or_competitor (clears : tree.clears (forks.lineage xid) = true)
    (found : tree.nodes.get place = some placed) (notBelow : xid ∉ forks.lineage place) :
    place ∈ forks.lineage xid ∨ Competes tree forks (forks.lineage xid) place := by
  induction size : (forks.lineage place).length using Nat.strongRecOn generalizing place placed with
  | ind size ih =>
    cases above : tree.nodes.get placed.parent with
    | some upper =>
      have known : tree.nodes.get placed.parent ≠ none := by simp [above]
      have shorter := tracks.length_parent found known
      have higher : xid ∉ forks.lineage placed.parent := by
        intro under
        exact notBelow ((tracks.mem_lineage found).mpr (.inr ⟨known, under⟩))
      obtain onChain | competes := ih _ (by omega) above higher rfl
      · -- the parent is on the chain: so is the place, or it competes with the next on the chain
        have apart : placed.parent ≠ xid := by
          intro same
          rw [same] at higher
          exact higher (sound.self_mem xid)
        obtain ⟨step, stepMember, node, stepFound, stepParent⟩ := tracks.child_of_ancestor sound onChain apart
        by_cases same : place = step
        · rw [same]
          exact .inl stepMember
        · refine .inr ⟨step, stepMember, node, stepFound, place, ?_, sound.self_mem place⟩
          exact tracks.mem_siblings.mpr ⟨same, .inr (by rw [stepParent]; exact known), placed, found,
            stepParent.symm⟩
      · obtain ⟨ancestor, member, node, foundAncestor, sibling, siblingMember, under⟩ := competes
        exact .inr ⟨ancestor, member, node, foundAncestor, sibling, siblingMember,
          (tracks.mem_lineage found).mpr (.inr ⟨known, under⟩)⟩
    | none =>
      obtain onChain | rooted := clears_iff.mp clears found above
      · exact .inl onChain
      obtain ⟨top, ancestor, member, node, foundAncestor, rooted⟩ := rooted
      by_cases same : place = ancestor
      · rw [same]
        exact .inl member
      · refine .inr ⟨ancestor, member, node, foundAncestor, place, ?_, sound.self_mem place⟩
        exact tracks.mem_siblings.mpr ⟨same, .inl rooted, placed, found, top.trans rooted.symm⟩

end

theorem get_removeChain (tree : ForkTree) (chain : List TransactionId) (place : TransactionId) :
    (tree.removeChain chain).nodes.get place =
      if place ∈ chain then none
      else (tree.nodes.get place).map fun node =>
        { node with children := node.children.filter fun id => id ∉ chain } := by
  rw [removeChain, Table.get_mapValues, get_drop]
  split
  · rfl
  · rfl

/-- Removing the chain of a transaction publishes it, if all else is above or below it. -/
theorem removeChain (tracks : Tracks tree forks) (sound : forks.Sound)
    (related : ∀ place, forks.prepared place = true → place ∈ forks.lineage xid ∨ xid ∈ forks.lineage place) :
    Tracks (tree.removeChain (forks.lineage xid)) (forks.publish xid) := by
  have survives_iff := @Forks.Sound.survives_iff _ _ _ _ forks xid
  -- what is not on the chain is below the transaction
  have survives : ∀ place, forks.survives xid place = true ↔ forks.prepared place = true ∧ place ∉ forks.lineage xid := by
    intro place
    rw [survives_iff]
    constructor
    · rintro ⟨prepared, apart, below⟩
      exact ⟨prepared, fun member => apart (sound.antisymm member below)⟩
    · rintro ⟨prepared, offChain⟩
      refine ⟨prepared, ?_, (related place prepared).resolve_left offChain⟩
      rintro rfl
      exact offChain (sound.self_mem place)
  refine tracks.prune (get_removeChain tree (forks.lineage xid)) (by simp) survives ?_
  intro place parent named offChain
  have lineage := tracks.lineage_eq named
  obtain ⟨node, found, -⟩ := map_eq_some_iff.mp named
  have stays := (survives place).mpr ⟨tracks.prepared_iff.mpr ⟨node, found⟩, offChain⟩
  obtain ⟨-, apart, below⟩ := survives_iff.mp stays
  rw [lineage, List.mem_cons, or_iff_right apart.symm] at below
  have known : forks.prepared parent = true := by
    by_contra unknown
    simp [unknown] at below
  rw [if_pos known] at lineage below
  rw [show (forks.publish xid).lineage place = (forks.lineage place).takeWhile (· ≠ xid) from if_pos stays, lineage,
    List.takeWhile_cons_of_pos (by simpa using apart)]
  -- the parent of a survivor is the transaction itself or a survivor
  by_cases direct : parent = xid
  · obtain ⟨upper, self⟩ := sound.self xid
    rw [direct, self, List.takeWhile_cons_of_neg (by simp)]
    simp [Forks.publish, Forks.survives]
  · have higher := survives_iff.mpr ⟨known, direct, below⟩
    simp [Forks.publish, higher]

theorem competingBranches_eq (tracks : Tracks tree forks) (sound : forks.Sound) (notRoot : xid ≠ .root) :
    ∃ competitors, tree.competingBranches xid = some competitors ∧
      ∀ lower, lower ∈ competitors ↔ Competes tree forks (forks.lineage xid) lower := by
  obtain ⟨competitors, listed, listed_iff⟩ := tracks.competing_eq sound (forks.lineage xid)
  refine ⟨competitors, ?_, listed_iff⟩
  rw [competingBranches, tracks.ancestors_eq sound notRoot]
  exact listed

section

variable {competitors : List TransactionId}
variable (listed_iff : ∀ lower, lower ∈ competitors ↔ Competes tree forks (forks.lineage xid) lower)

include listed_iff

section

variable (tracks : Tracks tree forks) (sound : forks.Sound)

include tracks sound

theorem related_kept (related : place ∈ forks.lineage xid ∨ xid ∈ forks.lineage place) :
    ∀ competitor ∈ competitors, competitor ∉ forks.lineage place := by
  intro competitor member above
  obtain ⟨ancestor, onChain, node, found, sibling, siblingMember, under⟩ := (listed_iff competitor).mp member
  exact tracks.competitor_apart sound onChain found siblingMember related (sound.mem_trans under above)

theorem publish (clears : tree.clears (forks.lineage xid) = true) : ∃ next, tree.removeAll competitors = some next ∧
      Tracks (next.removeChain (forks.lineage xid)) (forks.publish xid) := by
  obtain ⟨next, removed, nextTracks⟩ := tracks.removeAll sound competitors
  refine ⟨next, removed, ?_⟩
  have kept : ∀ {place}, place ∈ forks.lineage xid ∨ xid ∈ forks.lineage place →
      (competitors.foldl .cancel forks).lineage place = forks.lineage place := by
    intro place related
    exact lineage_cancelAll forks competitors (related_kept listed_iff tracks sound related)
  have chainKept := kept (.inl (sound.self_mem xid))
  have related : ∀ place, (competitors.foldl .cancel forks).prepared place = true →
      place ∈ forks.lineage xid ∨ xid ∈ forks.lineage place := by
    intro place prepared
    obtain ⟨before, apart⟩ := (prepared_cancelAll forks competitors place).mp prepared
    by_cases below : xid ∈ forks.lineage place
    · exact .inr below
    obtain ⟨node, found⟩ := tracks.prepared_iff.mp before
    obtain above | competes := tracks.related_or_competitor sound clears found below
    · exact .inl above
    · obtain ⟨ancestor, onChain, node, foundAncestor, sibling, member, under⟩ := competes
      have listed := (listed_iff sibling).mpr
        ⟨ancestor, onChain, node, foundAncestor, sibling, member, sound.self_mem sibling⟩
      exact absurd under (apart sibling listed)
  have removedChain : Tracks (next.removeChain ((competitors.foldl .cancel forks).lineage xid))
      ((competitors.foldl .cancel forks).publish xid) := by
    apply nextTracks.removeChain (sound_cancelAll sound competitors)
    intro place prepared
    rw [chainKept, kept (related place prepared)]
    exact related place prepared
  rw [chainKept] at removedChain
  have survives : (competitors.foldl .cancel forks).survives xid = forks.survives xid := by
    funext place
    rw [Bool.eq_iff_iff, Forks.Sound.survives_iff, Forks.Sound.survives_iff]
    constructor
    · intro both
      obtain ⟨prepared, apart, below⟩ := both
      rw [kept (related place prepared)] at below
      exact ⟨((prepared_cancelAll forks competitors place).mp prepared).1, apart, below⟩
    · intro both
      obtain ⟨prepared, apart, below⟩ := both
      refine ⟨(prepared_cancelAll forks competitors place).mpr
        ⟨prepared, related_kept listed_iff tracks sound (.inr below)⟩, apart, ?_⟩
      rw [kept (.inr below)]
      exact below
  apply removedChain.congr
  · exact survives.symm
  · funext place
    simp only [Forks.publish, survives]
    by_cases survivor : forks.survives xid place = true
    · rw [if_pos survivor, if_pos survivor, kept (.inr (Forks.Sound.survives_iff.mp survivor).2.2)]
    · rw [if_neg survivor, if_neg survivor]

/-- If the chain does not clear the tree, a fork stays that is not below the transaction. -/
theorem publish_leaves (unclear : tree.clears (forks.lineage xid) = false) :
    ∃ next place, tree.removeAll competitors = some next ∧
      (next.removeChain (forks.lineage xid)).contains place = true ∧ forks.survives xid place = false := by
  obtain ⟨next, removed, nextTracks⟩ := tracks.removeAll sound competitors
  have some_left : ∃ place node, tree.nodes.get place = some node ∧ tree.nodes.get node.parent = none ∧
      place ∉ forks.lineage xid ∧ ¬ (node.parent = .root ∧ ∃ ancestor ∈ forks.lineage xid, ∃ top,
        tree.nodes.get ancestor = some top ∧ top.parent = .root) := by
    by_contra none_left
    rw [← Bool.not_eq_true, clears_iff] at unclear
    apply unclear
    intro place node found top
    by_contra neither
    exact none_left ⟨place, node, found, top, fun member => neither (.inl member), fun rooted => neither (.inr rooted)⟩
  obtain ⟨place, node, found, top, offChain, notRooted⟩ := some_left
  have alone := tracks.top found top
  refine ⟨next, place, removed, ?_, ?_⟩
  · have apart : ∀ competitor ∈ competitors, competitor ∉ forks.lineage place := by
      intro competitor member above
      rw [alone, List.mem_singleton] at above
      subst above
      obtain ⟨ancestor, onChain, upper, foundAncestor, sibling, siblingMember, under⟩ := (listed_iff competitor).mp member
      rw [alone, List.mem_singleton] at under
      subst under
      obtain ⟨-, rooted, other, foundAgain, same⟩ := tracks.mem_siblings.mp siblingMember
      rw [found] at foundAgain
      cases foundAgain
      obtain rooted | known := rooted
      · exact notRooted ⟨same.trans rooted, ancestor, onChain, upper, foundAncestor, rooted⟩
      · rw [← same] at known
        exact known top
    have prepared := (prepared_cancelAll forks competitors place).mpr ⟨tracks.prepared_iff.mpr ⟨node, found⟩, apart⟩
    obtain ⟨left, foundLeft⟩ := nextTracks.prepared_iff.mp prepared
    rw [contains, Table.contains_iff]
    exact ⟨_, by rw [get_removeChain, if_neg offChain, foundLeft, map_some]⟩
  · rw [← Bool.not_eq_true, Forks.Sound.survives_iff, alone]
    intro both
    exact both.2.1 (List.mem_singleton.mp both.2.2).symm

end

end

end Tracks

end

end Karstflow.Storage
