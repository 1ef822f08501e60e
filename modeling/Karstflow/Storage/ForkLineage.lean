import Karstflow.Storage.ForkTree

namespace Karstflow.Storage

open Data ForkTree Option

/-! The links of the fork tree against the lineages they stand for. -/

def ForkTree.parentOf (tree : ForkTree) (xid : TransactionId) : Option TransactionId :=
  (tree.nodes.get xid).map ForkNode.parent

section

variable {tree : ForkTree} {forks : Forks TransactionId κ ν}
variable {node : ForkNode}

/-- The links spell the lineages. A node whose parent is not in the tree, be it
the root or a transaction that has been published, is at the top. -/
structure Tracks (tree : ForkTree) (forks : Forks TransactionId κ ν) : Prop where
  root : tree.nodes.get .root = none
  prepared : ∀ xid, tree.contains xid = forks.prepared xid
  top : ∀ {xid node}, tree.nodes.get xid = some node → tree.nodes.get node.parent = none →
    forks.lineage xid = [xid]
  below : ∀ {xid node}, tree.nodes.get xid = some node → tree.nodes.get node.parent ≠ none →
    forks.lineage xid = xid :: forks.lineage node.parent
  children : ∀ {xid node}, tree.nodes.get xid = some node → ∀ child,
    child ∈ node.children ↔ ∃ below, tree.nodes.get child = some below ∧ below.parent = xid
  distinct : ∀ {xid node}, tree.nodes.get xid = some node → node.children.Nodup

theorem Tracks.opening (published : κ → Option ν) : Tracks .new (.opening published) := by
  refine ⟨rfl, fun _ => rfl, ?_, ?_, ?_, ?_⟩ <;>
    · intro xid node impossible
      cases impossible

theorem Tracks.congr (tracks : Tracks tree forks) (prepared : other.prepared = forks.prepared)
    (lineage : other.lineage = forks.lineage) : Tracks tree other :=
  ⟨tracks.root, by rw [prepared]; exact tracks.prepared, by rw [lineage]; exact tracks.top,
    by rw [lineage]; exact tracks.below, tracks.children, tracks.distinct⟩

theorem Tracks.ofParents (root : tree.parentOf .root = none)
    (prepared : ∀ xid, (tree.parentOf xid).isSome = forks.prepared xid)
    (lineage : ∀ {xid parent}, tree.parentOf xid = some parent →
      forks.lineage xid = xid :: if forks.prepared parent then forks.lineage parent else [])
    (children : ∀ {xid}, forks.prepared xid = true → ∀ child,
      child ∈ tree.children xid ↔ tree.parentOf child = some xid)
    (distinct : ∀ xid, (tree.children xid).Nodup) : Tracks tree forks := by
  have contained : ∀ xid, tree.contains xid = forks.prepared xid := by
    intro xid
    rw [← prepared, parentOf, isSome_map]
    rfl
  have view : ∀ {xid node}, tree.nodes.get xid = some node →
      tree.parentOf xid = some node.parent ∧ tree.children xid = node.children ∧ forks.prepared xid = true := by
    intro xid node found
    simp [parentOf, ForkTree.children, ← contained, contains, Table.contains, found]
  refine ⟨map_eq_none_iff.mp root, contained, ?_, ?_, ?_, ?_⟩
  · intro xid node found top
    rw [lineage (view found).1, ← contained, contains, Table.contains, top]
    rfl
  · intro xid node found known
    have present : tree.contains node.parent = true := isSome_iff_ne_none.mpr known
    rw [lineage (view found).1, ← contained, if_pos present]
  · intro xid node found child
    rw [← (view found).2.1, children (view found).2.2, parentOf, map_eq_some_iff]
  · intro xid node found
    rw [← (view found).2.1]
    exact distinct xid

namespace Tracks

section

variable (tracks : Tracks tree forks)

include tracks

theorem prepared_iff : forks.prepared xid = true ↔ ∃ node, tree.nodes.get xid = some node := by
  rw [← tracks.prepared, contains, Table.contains_iff]

theorem unprepared_iff : forks.prepared xid = false ↔ tree.nodes.get xid = none := by
  rw [← tracks.prepared, contains, Table.contains, isSome_eq_false_iff, isNone_iff_eq_none]

theorem lineage_eq (named : tree.parentOf xid = some parent) :
    forks.lineage xid = xid :: if forks.prepared parent then forks.lineage parent else [] := by
  obtain ⟨node, found, rfl⟩ := map_eq_some_iff.mp named
  cases known : forks.prepared node.parent with
  | false => exact tracks.top found (tracks.unprepared_iff.mp known)
  | true => exact tracks.below found fun top => by simp [tracks.unprepared_iff.mpr top] at known

theorem mem_children_iff (present : forks.prepared xid = true) :
    child ∈ tree.children xid ↔ tree.parentOf child = some xid := by
  obtain ⟨node, found⟩ := tracks.prepared_iff.mp present
  rw [ForkTree.children, found, parentOf, map_eq_some_iff]
  exact tracks.children found child

theorem nodup_children (xid : TransactionId) : (tree.children xid).Nodup := by
  cases found : tree.nodes.get xid with
  | none => simp [ForkTree.children, found]
  | some node =>
    simp only [ForkTree.children, found, map_some, getD_some]
    exact tracks.distinct found

theorem mem_lineage (found : tree.nodes.get xid = some node) : ancestor ∈ forks.lineage xid ↔
      ancestor = xid ∨ tree.nodes.get node.parent ≠ none ∧ ancestor ∈ forks.lineage node.parent := by
  by_cases top : tree.nodes.get node.parent = none
  · rw [tracks.top found top]
    simp [top]
  · rw [tracks.below found top, List.mem_cons]
    simp [top]

theorem length_parent (found : tree.nodes.get xid = some node) (known : tree.nodes.get node.parent ≠ none) :
    (forks.lineage node.parent).length < (forks.lineage xid).length := by
  rw [tracks.below found known, List.length_cons]
  exact Nat.lt_succ_self _

end

theorem ancestorsFrom_eq (tracks : Tracks tree forks) (chain : List TransactionId)
    (found : tree.nodes.get xid = some node) (enough : (forks.lineage xid).length < fuel) :
    tree.ancestorsFrom fuel xid chain = some (chain ++ forks.lineage xid) := by
  induction fuel generalizing xid node chain with
  | zero => cases enough
  | succ fuel ih =>
    have notRoot : xid ≠ .root := by
      intro same
      rw [same, tracks.root] at found
      cases found
    simp only [ancestorsFrom, if_neg notRoot, found]
    cases above : tree.nodes.get node.parent with
    | some upper =>
      have known : tree.nodes.get node.parent ≠ none := by simp [above]
      have shorter := tracks.length_parent found known
      rw [ih (chain ++ [xid]) above (by omega), tracks.below found known, List.append_assoc,
        List.singleton_append]
    | none =>
      rw [tracks.top found above] at enough ⊢
      cases fuel with
      | zero => exact absurd enough (by simp)
      | succ fuel =>
        simp only [ancestorsFrom, above]
        split
        · rfl
        · simp

theorem length_lineage (tracks : Tracks tree forks) (sound : forks.Sound) (found : tree.nodes.get xid = some node) :
    (forks.lineage xid).length ≤ tree.nodes.size := by
  apply Table.length_le_size (sound.distinct xid)
  intro ancestor member
  rw [Ne, ← tracks.unprepared_iff, Bool.not_eq_false]
  by_cases same : ancestor = xid
  · rw [same]
    exact tracks.prepared_iff.mpr ⟨node, found⟩
  · exact (sound.standing member same).2

theorem ancestors_eq (tracks : Tracks tree forks) (sound : forks.Sound) (notRoot : xid ≠ .root) :
    tree.ancestors xid = some (forks.lineage xid) := by
  cases found : tree.nodes.get xid with
  | some node =>
    have bounded := tracks.length_lineage sound found
    exact tracks.ancestorsFrom_eq [] found (by omega)
  | none =>
    rw [sound.lineage_alone (tracks.unprepared_iff.mpr found)]
    simp [ancestors, ancestorsFrom, notRoot, found]

theorem ancestors_ne_singleton (notRoot : xid ≠ .root) (found : tree.nodes.get xid = some node)
    (parentNotRoot : node.parent ≠ .root) (known : tree.nodes.get node.parent ≠ none) :
    tree.ancestors xid ≠ some [xid] := by
  obtain ⟨upper, foundUpper⟩ := ne_none_iff_exists'.mp known
  have longer : ∀ {fuel current chain whole}, tree.ancestorsFrom fuel current chain = some whole →
      chain.length ≤ whole.length := by
    intro fuel
    induction fuel with
    | zero =>
      intro current chain whole ended
      cases ended
    | succ fuel ih =>
      intro current chain whole ended
      simp only [ancestorsFrom] at ended
      split at ended
      · cases ended
        exact le_refl _
      split at ended
      · have further := ih ended
        rw [List.length_append] at further
        omega
      cases ended
      split
      · rename_i empty
        rw [empty]
        exact Nat.zero_le _
      · exact le_refl _
  intro ended
  have sized : tree.nodes.size + 2 = tree.nodes.size + 1 + 1 := rfl
  rw [ancestors, sized, ancestorsFrom, if_neg notRoot, found] at ended
  simp only [ancestorsFrom, if_neg parentNotRoot, foundUpper] at ended
  have two := longer ended
  simp at two

section

variable (tracks : Tracks tree forks)

include tracks

theorem mem_children : child ∈ tree.children parent ↔
      tree.nodes.get parent ≠ none ∧ ∃ node, tree.nodes.get child = some node ∧ node.parent = parent := by
  cases found : tree.nodes.get parent with
  | none => simp [ForkTree.children, found]
  | some node =>
    simp only [ForkTree.children, found, map_some, getD_some, ne_eq, reduceCtorEq, not_false_eq_true, true_and]
    exact tracks.children found child

theorem forest : Forest tree.children fun xid => (forks.lineage xid).length := by
  refine ⟨?_, ?_, ?_⟩
  · intro left right child first second
    obtain ⟨-, node, found, same⟩ := tracks.mem_children.mp first
    obtain ⟨-, again, foundAgain, sameAgain⟩ := tracks.mem_children.mp second
    rw [found] at foundAgain
    cases foundAgain
    rw [← same, sameAgain]
  · exact tracks.nodup_children
  · intro parent child member
    obtain ⟨known, node, found, same⟩ := tracks.mem_children.mp member
    subst same
    exact tracks.length_parent found known

theorem transGen_children (sound : forks.Sound) :
    Relation.TransGen (fun parent child => child ∈ tree.children parent) xid lower ↔
      lower ≠ xid ∧ xid ∈ forks.lineage lower := by
  constructor
  · intro path
    have ranked : (forks.lineage xid).length < (forks.lineage lower).length ∧ xid ∈ forks.lineage lower := by
      induction path with
      | single edge =>
        obtain ⟨known, node, found, same⟩ := tracks.mem_children.mp edge
        subst same
        exact ⟨tracks.length_parent found known, (tracks.mem_lineage found).mpr (.inr ⟨known, sound.self_mem _⟩)⟩
      | tail _ edge ih =>
        obtain ⟨known, node, found, same⟩ := tracks.mem_children.mp edge
        subst same
        have longer := tracks.length_parent found known
        exact ⟨by omega, (tracks.mem_lineage found).mpr (.inr ⟨known, ih.2⟩)⟩
    refine ⟨?_, ranked.2⟩
    intro same
    rw [same] at ranked
    omega
  · intro both
    obtain ⟨apart, above⟩ := both
    -- by the length of the lineage, up to the child of `xid`
    induction size : (forks.lineage lower).length using Nat.strongRecOn generalizing lower with
    | ind size ih =>
      obtain ⟨node, found⟩ := tracks.prepared_iff.mp (sound.standing above apart.symm).1
      obtain same | further := (tracks.mem_lineage found).mp above
      · exact absurd same.symm apart
      obtain ⟨known, higher⟩ := further
      have edge := tracks.mem_children.mpr ⟨known, node, found, rfl⟩
      by_cases direct : node.parent = xid
      · rw [direct] at edge
        exact Relation.TransGen.single edge
      · have shorter := tracks.length_parent found known
        exact (ih _ (by omega) direct higher rfl).tail edge

theorem descendants_eq (sound : forks.Sound) (xid : TransactionId) : ∃ found, tree.descendants xid = some found ∧
      ∀ lower, lower ∈ found ↔ lower ≠ xid ∧ xid ∈ forks.lineage lower := by
  have inside : ∀ {parent child}, child ∈ tree.children parent → child ∈ tree.nodes.entries.map Prod.fst := by
    intro parent child member
    obtain ⟨-, node, found, -⟩ := tracks.mem_children.mp member
    exact List.mem_map.mpr ⟨(child, node), Table.get_eq_some_iff_mem.mp found, rfl⟩
  obtain ⟨found, explored, below⟩ := explore_eq_some tracks.forest inside xid
  rw [List.length_map] at explored
  refine ⟨found, explored, ?_⟩
  intro lower
  rw [below, tracks.transGen_children sound]

end

theorem mem_siblings (tracks : Tracks tree forks) : sibling ∈ tree.siblings xid node ↔
      sibling ≠ xid ∧ (node.parent = .root ∨ tree.nodes.get node.parent ≠ none) ∧
        ∃ other, tree.nodes.get sibling = some other ∧ other.parent = node.parent := by
  by_cases top : node.parent = .root
  · simp only [siblings, top, if_true, List.mem_filter, List.mem_map, decide_eq_true_eq, true_or, true_and]
    constructor
    · intro listed
      obtain ⟨⟨entry, ⟨stored, rooted⟩, same⟩, apart⟩ := listed
      subst same
      exact ⟨apart, entry.2, Table.get_eq_some_iff_mem.mpr stored, rooted⟩
    · intro sibling
      obtain ⟨apart, other, found, rooted⟩ := sibling
      exact ⟨⟨(_, other), ⟨Table.get_eq_some_iff_mem.mp found, rooted⟩, rfl⟩, apart⟩
  · cases above : tree.nodes.get node.parent with
    | none => simp [siblings, top, above]
    | some upper =>
      simp only [siblings, top, if_false, above, List.mem_filter, decide_eq_true_eq,
        tracks.children above sibling, false_or, ne_eq, reduceCtorEq, not_false_eq_true, true_and]
      exact and_comm

theorem withDescendants_eq (tracks : Tracks tree forks) (sound : forks.Sound) (tops : List TransactionId) :
    ∃ found, tree.withDescendants tops = some found ∧
      ∀ lower, lower ∈ found ↔ ∃ top ∈ tops, top ∈ forks.lineage lower := by
  induction tops with
  | nil => exact ⟨[], rfl, by simp⟩
  | cons top rest ih =>
    obtain ⟨others, listed, restIff⟩ := ih
    obtain ⟨found, explored, foundIff⟩ := tracks.descendants_eq sound top
    refine ⟨top :: found ++ others, by simp only [withDescendants, explored, listed], ?_⟩
    intro lower
    simp only [List.cons_append, List.mem_cons, List.mem_append, foundIff, restIff, exists_eq_or_imp]
    by_cases same : lower = top
    · subst same
      simp [sound.self_mem lower]
    · simp [same]

/-- The competitors of a chain: whatever has a sibling of the chain in its lineage. -/
def Competes (tree : ForkTree) (forks : Forks TransactionId κ ν) (chain : List TransactionId)
    (lower : TransactionId) : Prop :=
  ∃ ancestor ∈ chain, ∃ node, tree.nodes.get ancestor = some node ∧
    ∃ sibling ∈ tree.siblings ancestor node, sibling ∈ forks.lineage lower

theorem competing_eq (tracks : Tracks tree forks) (sound : forks.Sound) (chain : List TransactionId) :
    ∃ found, tree.competing chain = some found ∧ ∀ lower, lower ∈ found ↔ Competes tree forks chain lower := by
  unfold Competes
  induction chain with
  | nil => exact ⟨[], rfl, by simp⟩
  | cons ancestor rest ih =>
    obtain ⟨others, listed, restIff⟩ := ih
    cases found : tree.nodes.get ancestor with
    | none =>
      refine ⟨others, by simp only [competing, found, listed], ?_⟩
      intro lower
      rw [restIff]
      simp [found]
    | some node =>
      obtain ⟨branch, explored, branchIff⟩ := tracks.withDescendants_eq sound (tree.siblings ancestor node)
      refine ⟨branch ++ others, by simp only [competing, found, explored, listed], ?_⟩
      intro lower
      rw [List.mem_append, branchIff, restIff]
      simp [found]

theorem prepare_eq_ok (prepared : tree.prepare parent child = .ok next) :
    child ≠ .root ∧ tree.nodes.get child = none ∧ (parent = .root ∨ tree.nodes.get parent ≠ none) ∧
      next.nodes = (if parent = .root then tree.nodes
        else tree.nodes.modify parent fun node => { node with children := node.children ++ [child] }).insert child
          { parent, children := [] } := by
  simp only [prepare, bind_eq_ok, demand_eq_ok, exists_const, pure_eq_ok] at prepared
  obtain ⟨notRoot, fresh, known, same⟩ := prepared
  subst same
  refine ⟨notRoot, ?_, ?_, rfl⟩
  · rw [contains, Table.contains, isSome_eq_false_iff, isNone_iff_eq_none] at fresh
    exact fresh
  · obtain top | there := known
    · exact .inl top
    · obtain ⟨node, found⟩ := Table.contains_iff.mp there
      exact .inr (by simp [found])

theorem get_prepare (prepared : tree.prepare parent child = .ok next) (xid : TransactionId) :
    next.nodes.get xid =
      if xid = child then some { parent, children := [] }
      else if xid = parent ∧ parent ≠ .root then
        (tree.nodes.get xid).map fun node => { node with children := node.children ++ [child] }
      else tree.nodes.get xid := by
  obtain ⟨-, -, -, nodes⟩ := prepare_eq_ok prepared
  rw [nodes, Table.get_insert]
  by_cases here : xid = child
  · rw [if_pos here, if_pos here]
  by_cases top : parent = .root
  · simp [top]
  · rw [if_neg top, Table.get_modify]
    by_cases same : xid = parent
    · simp [same, top]
    · simp [same]

theorem prepare (tracks : Tracks tree forks) (prepared : tree.prepare parent child = .ok next)
    (unused : ∀ {xid node}, tree.nodes.get xid = some node → node.parent ≠ child) :
    Tracks next (forks.prepare (if parent = .root then none else some parent) child) := by
  have get := get_prepare prepared
  obtain ⟨notRoot, fresh, known, -⟩ := prepare_eq_ok prepared
  have known : parent = .root ∨ forks.prepared parent = true := by
    rw [← Bool.not_eq_false, tracks.unprepared_iff]
    exact known
  have fresh := tracks.unprepared_iff.mpr fresh
  have root := tracks.unprepared_iff.mpr tracks.root
  have parents : ∀ xid, next.parentOf xid = if xid = child then some parent else tree.parentOf xid := by
    intro xid
    rw [parentOf, get]
    split
    · rfl
    · split <;> simp [parentOf, Function.comp_def]
  have absent : ∀ xid, child ∉ tree.children xid := by
    intro xid listed
    obtain ⟨-, node, found, -⟩ := tracks.mem_children.mp listed
    rw [← Bool.not_eq_true] at fresh
    exact fresh (tracks.prepared_iff.mpr ⟨node, found⟩)
  have apart : parent ≠ child := by
    rintro rfl
    rw [fresh] at known
    exact known.elim notRoot (by simp)
  have unnamed : ∀ xid, tree.parentOf xid ≠ some child := by
    intro xid named
    obtain ⟨node, found, same⟩ := map_eq_some_iff.mp named
    exact unused found same
  have childless : tree.children child = [] := by simp [ForkTree.children, tracks.unprepared_iff.mp fresh]
  have listed : ∀ xid, next.children xid =
      if xid = parent ∧ parent ≠ .root then tree.children xid ++ [child] else tree.children xid := by
    intro xid
    rw [ForkTree.children, get]
    by_cases here : xid = child
    · simp [here, apart.symm, childless]
    rw [if_neg here]
    split
    · rename_i mine
      obtain ⟨node, found⟩ := tracks.prepared_iff.mp (known.resolve_left mine.2)
      simp [mine, ForkTree.children, found]
    · rfl
  apply ofParents
  · rw [parents, if_neg notRoot.symm, parentOf, tracks.root]
    rfl
  · intro xid
    rw [parents]
    by_cases here : xid = child
    · simp [here, Forks.prepare]
    · simp only [here, if_false, Forks.prepare, decide_false, Bool.false_or, ← tracks.prepared]
      exact isSome_map
  · intro xid upper named
    rw [parents] at named
    split at named
    · rename_i here
      cases named
      by_cases top : parent = .root
      · simp [here, top, Forks.prepare, root, notRoot.symm]
      · simp [here, top, Forks.prepare, apart, known.resolve_left top]
    · rename_i other
      have below : upper ≠ child := by
        rintro rfl
        exact unnamed xid named
      simp [Forks.prepare, other, below, tracks.lineage_eq named]
  · intro xid present lower
    rw [listed, parents]
    by_cases new : lower = child
    · -- the new child is listed by its parent only
      have inner : xid = parent → parent ≠ .root := by
        rintro rfl rfl
        simp [Forks.prepare, notRoot.symm, root] at present
      rw [if_pos new, new]
      by_cases mine : xid = parent
      · simp [mine, inner mine]
      · simp [mine, Ne.symm mine, absent]
    · have old : lower ∈ tree.children xid ↔ tree.parentOf lower = some xid := by
        by_cases here : xid = child
        · simp [here, childless, unnamed]
        · exact tracks.mem_children_iff (by simpa [Forks.prepare, here] using present)
      split <;> simp [new, old]
  · intro xid
    rw [listed]
    split
    · refine List.nodup_append'.mpr ⟨tracks.nodup_children xid, List.nodup_singleton _, ?_⟩
      intro lower member last
      rw [List.mem_singleton.mp last] at member
      exact absent xid member
    · exact tracks.nodup_children xid

end Tracks

end

end Karstflow.Storage
