import Mathlib.Data.List.Nodup
import Mathlib.Data.List.Perm.Subperm
import Mathlib.Logic.Relation

namespace Karstflow.Data

open List

/-! Exploring a forest from a stack.

A loop that pops a node, records its children and pushes them visits every node
below the first one. In a forest it meets no node twice, so that it ends after
as many rounds as there are nodes.
-/

variable {α : Type}

/-- What `while let Some(node) = stack.pop() { for child in children(node) { found.push(child);
stack.push(child) } }` finds, or nothing if the fuel does not last. The top of the stack
comes first. -/
def explore (children : α → List α) : Nat → List α → List α → Option (List α)
  | _, [], found => some found
  | 0, _ :: _, _ => none
  | fuel + 1, top :: stack, found =>
    explore children fuel ((children top).reverse ++ stack) (found ++ children top)

/-- Each node is the child of one other at most, once, and comes after it. -/
structure Forest (children : α → List α) (rank : α → Nat) : Prop where
  unique : ∀ {left right child}, child ∈ children left → child ∈ children right → left = right
  distinct : ∀ node, (children node).Nodup
  ranked : ∀ {node child}, child ∈ children node → rank node < rank child

/-- The state of the loop: the nodes popped so far, those on the stack, and what was found. -/
structure Exploring (children : α → List α) (start : α) (popped stack found : List α) : Prop where
  distinct : (popped ++ stack).Nodup
  origin : ∀ node ∈ popped ++ stack, node = start ∨ ∃ parent ∈ popped, node ∈ children parent
  started : start ∈ popped ++ stack
  found_iff : ∀ node, node ∈ found ↔ ∃ parent ∈ popped, node ∈ children parent
  closed : ∀ parent ∈ popped, ∀ child ∈ children parent, child ∈ popped ++ stack

section

variable {children : α → List α} {rank : α → Nat} {start top : α} {popped stack found domain : List α}

theorem Exploring.initial (children : α → List α) (start : α) : Exploring children start [] [start] [] :=
  ⟨nodup_singleton start, fun node member => .inl (mem_singleton.mp member), mem_singleton.mpr rfl, by simp, by simp⟩

theorem Exploring.rank_le (exploring : Exploring children start popped stack found) (forest : Forest children rank)
    {node : α} (member : node ∈ popped ++ stack) : rank start ≤ rank node := by
  -- by the rank of the node, down to the start
  induction size : rank node using Nat.strongRecOn generalizing node with
  | ind size ih =>
    obtain same | below := exploring.origin node member
    · exact Nat.le_of_eq ((congrArg rank same).symm.trans size)
    · obtain ⟨parent, visited, child⟩ := below
      have smaller := forest.ranked child
      have above := ih (rank parent) (by omega) (mem_append_left _ visited) rfl
      omega

section

variable (exploring : Exploring children start popped (top :: stack) found) (forest : Forest children rank)

include exploring forest

theorem Exploring.fresh (member : child ∈ children top) : child ∉ popped ++ top :: stack := by
  intro met
  have onTop : top ∈ popped ++ top :: stack := mem_append_right _ mem_cons_self
  obtain same | elsewhere := exploring.origin child met
  · have above := exploring.rank_le forest onTop
    have below := forest.ranked member
    rw [same] at below
    omega
  · obtain ⟨parent, visited, again⟩ := elsewhere
    have same := forest.unique again member
    subst same
    exact (nodup_append.mp exploring.distinct).2.2 parent visited parent mem_cons_self rfl

theorem Exploring.step :
    Exploring children start (popped ++ [top]) ((children top).reverse ++ stack) (found ++ children top) := by
  have members : ∀ node, node ∈ (popped ++ [top]) ++ ((children top).reverse ++ stack) ↔
      node ∈ popped ++ top :: stack ∨ node ∈ children top := by
    intro node
    simp only [mem_append, mem_cons, mem_reverse, not_mem_nil, or_false]
    tauto
  refine ⟨?_, ?_, ?_, ?_, ?_⟩
  · have separate : (children top).Disjoint (popped ++ top :: stack) := by
      intro node child met
      exact exploring.fresh forest child met
    have together := nodup_append'.mpr ⟨forest.distinct top, exploring.distinct, separate⟩
    refine (Perm.nodup_iff ?_).mpr together
    have pushed : ((popped ++ [top]) ++ ((children top).reverse ++ stack)).Perm
        (popped ++ ((children top).reverse ++ top :: stack)) := by
      rw [append_assoc, singleton_append]
      exact Perm.append_left _ perm_middle.symm
    have moved : (popped ++ ((children top).reverse ++ top :: stack)).Perm
        ((children top).reverse ++ (popped ++ top :: stack)) := by
      rw [← append_assoc, ← append_assoc]
      exact Perm.append_right _ perm_append_comm
    exact (pushed.trans moved).trans (Perm.append_right _ (reverse_perm _))
  · intro node member
    obtain met | child := (members node).mp member
    · obtain same | below := exploring.origin node met
      · exact .inl same
      · obtain ⟨parent, visited, child⟩ := below
        exact .inr ⟨parent, mem_append_left _ visited, child⟩
    · exact .inr ⟨top, mem_append_right _ (mem_singleton.mpr rfl), child⟩
  · exact (members start).mpr (.inl exploring.started)
  · intro node
    rw [mem_append, exploring.found_iff]
    constructor
    · intro either
      obtain before | child := either
      · obtain ⟨parent, visited, child⟩ := before
        exact ⟨parent, mem_append_left _ visited, child⟩
      · exact ⟨top, mem_append_right _ (mem_singleton.mpr rfl), child⟩
    · intro below
      obtain ⟨parent, visited, child⟩ := below
      obtain before | last := mem_append.mp visited
      · exact .inl ⟨parent, before, child⟩
      · rw [mem_singleton.mp last] at child
        exact .inr child
  · intro parent visited child member
    apply (members child).mpr
    obtain before | last := mem_append.mp visited
    · exact .inl (exploring.closed parent before child member)
    · rw [mem_singleton.mp last] at member
      exact .inr member

end

theorem Exploring.length_le (exploring : Exploring children start popped stack found)
    (inside : ∀ {node child}, child ∈ children node → child ∈ domain) :
    (popped ++ stack).length ≤ domain.length + 1 := by
  have covered : popped ++ stack ⊆ start :: domain := by
    intro node member
    obtain same | below := exploring.origin node member
    · rw [same]
      exact mem_cons_self
    · obtain ⟨parent, -, child⟩ := below
      exact mem_cons_of_mem _ (inside child)
  exact (exploring.distinct.subperm covered).length_le

section

variable (forest : Forest children rank) (inside : ∀ {node child}, child ∈ children node → child ∈ domain)

include forest inside

theorem Exploring.ends
    (exploring : Exploring children start popped stack found) (enough : domain.length + 1 ≤ popped.length + fuel) :
    ∃ visited result, explore children fuel stack found = some result ∧ Exploring children start visited [] result := by
  induction fuel generalizing popped stack found with
  | zero =>
    cases stack with
    | nil => exact ⟨popped, found, by rw [explore], exploring⟩
    | cons top stack =>
      have bounded := exploring.length_le inside
      rw [length_append, length_cons] at bounded
      omega
  | succ fuel ih =>
    cases stack with
    | nil => exact ⟨popped, found, by rw [explore], exploring⟩
    | cons top stack =>
      obtain ⟨visited, result, ended, last⟩ := ih (exploring.step forest)
        (by rw [length_append, length_singleton]; omega)
      exact ⟨visited, result, by rw [explore]; exact ended, last⟩

theorem explore_eq_some (start : α) : ∃ found, explore children (domain.length + 1) [start] [] = some found ∧
      ∀ node, node ∈ found ↔ Relation.TransGen (fun parent child => child ∈ children parent) start node := by
  obtain ⟨visited, found, ended, last⟩ := @Exploring.ends _ _ _ _ _ _ _ _ forest inside (domain.length + 1)
    (.initial children start) (Nat.le_add_left _ _)
  have origin := last.origin
  have started := last.started
  have closed := last.closed
  rw [append_nil] at origin started closed
  have reached : ∀ node ∈ visited, Relation.ReflTransGen (fun parent child => child ∈ children parent) start node := by
    intro node member
    induction size : rank node using Nat.strongRecOn generalizing node with
    | ind size ih =>
      obtain same | below := origin node member
      · rw [same]
      · obtain ⟨parent, before, child⟩ := below
        have smaller := forest.ranked child
        exact (ih (rank parent) (by omega) parent before rfl).tail child
  refine ⟨found, ended, ?_⟩
  intro node
  rw [last.found_iff]
  constructor
  · intro below
    obtain ⟨parent, member, child⟩ := below
    exact Relation.TransGen.tail' (reached parent member) child
  · intro below
    obtain ⟨parent, path, child⟩ := Relation.TransGen.tail'_iff.mp below
    refine ⟨parent, ?_, child⟩
    clear below child
    induction path with
    | refl => exact started
    | tail _ further ih => exact closed _ ih _ further

end

end

end Karstflow.Data
