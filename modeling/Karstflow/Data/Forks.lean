import Mathlib.Data.List.Infix
import Mathlib.Data.List.Nodup

namespace Karstflow.Data

open List

/-! Versions of a map on the forks of a tree.

A fork is known by its lineage: itself, its parent, and so on up to the
published state, which is above every fork. It reads what the nearest fork of
its lineage wrote, else what is published.
-/

structure Forks (ξ κ ν : Type) where
  prepared : ξ → Bool
  lineage : ξ → List ξ
  written : ξ → κ → Option ν
  published : κ → Option ν

namespace Forks

variable {ξ κ ν : Type}

def opening (published : κ → Option ν) : Forks ξ κ ν :=
  { prepared := fun _ => false, lineage := fun fork => [fork], written := fun _ _ => none, published }

/-- What the nearest fork of the lineage wrote, else what is published. -/
def read (forks : Forks ξ κ ν) (fork : ξ) (key : κ) : Option ν :=
  ((forks.lineage fork).findSome? fun ancestor => forks.written ancestor key).or (forks.published key)

/-- The lineages are the branches of a tree. -/
structure Sound (forks : Forks ξ κ ν) : Prop where
  self : ∀ fork, ∃ above, forks.lineage fork = fork :: above
  upward : ∀ {fork ancestor}, ancestor ∈ forks.lineage fork → forks.lineage ancestor <:+ forks.lineage fork
  distinct : ∀ fork, (forks.lineage fork).Nodup
  standing : ∀ {fork ancestor}, ancestor ∈ forks.lineage fork → ancestor ≠ fork →
    forks.prepared fork = true ∧ forks.prepared ancestor = true

namespace Sound

variable {forks : Forks ξ κ ν}

theorem opening (published : κ → Option ν) : (opening published : Forks ξ κ ν).Sound := by
  refine ⟨fun fork => ⟨[], rfl⟩, ?_, fun fork => nodup_singleton fork, ?_⟩
  · intro fork ancestor member
    rw [mem_singleton.mp member]
  · intro fork ancestor member other
    exact absurd (mem_singleton.mp member) other

theorem findSome_congr {lineage : List ξ}
    (same : ∀ fork ∈ lineage, first fork = second fork) : lineage.findSome? first = lineage.findSome? second := by
  induction lineage with
  | nil => rfl
  | cons fork rest ih =>
    rw [findSome?_cons, findSome?_cons, same fork mem_cons_self,
      ih fun other member => same other (mem_cons_of_mem _ member)]

section

variable (sound : forks.Sound)

include sound

theorem self_mem (fork : ξ) : fork ∈ forks.lineage fork := by
  obtain ⟨above, same⟩ := sound.self fork
  rw [same]
  exact mem_cons_self

theorem mem_trans (above : ancestor ∈ forks.lineage fork) (below : fork ∈ forks.lineage other) :
    ancestor ∈ forks.lineage other :=
  (sound.upward below).subset above

theorem split (above : ancestor ∈ forks.lineage fork) :
    ∃ before, forks.lineage fork = before ++ forks.lineage ancestor ∧ ancestor ∉ before := by
  obtain ⟨before, same⟩ := sound.upward above
  refine ⟨before, same.symm, ?_⟩
  intro again
  have distinct := sound.distinct fork
  rw [← same] at distinct
  exact (nodup_append'.mp distinct).2.2 again (sound.self_mem ancestor)

theorem below_of_before (same : forks.lineage fork = before ++ forks.lineage ancestor) (member : other ∈ before) :
    ancestor ∈ forks.lineage other := by
  have inside : other ∈ forks.lineage fork := by
    rw [same]
    exact mem_append_left _ member
  have distinct := sound.distinct fork
  rw [same] at distinct
  have upper : forks.lineage ancestor <:+ forks.lineage fork := ⟨before, same.symm⟩
  obtain within | within := suffix_or_suffix_of_suffix (sound.upward inside) upper
  · exact absurd (within.subset (sound.self_mem other)) ((nodup_append'.mp distinct).2.2 member)
  · exact within.subset (sound.self_mem ancestor)

theorem antisymm (above : ancestor ∈ forks.lineage fork) (below : fork ∈ forks.lineage ancestor) : ancestor = fork := by
  have same :=
    (sound.upward above).eq_of_length (le_antisymm (sound.upward above).length_le (sound.upward below).length_le)
  obtain ⟨first, left⟩ := sound.self ancestor
  obtain ⟨second, right⟩ := sound.self fork
  rw [left, right] at same
  exact (cons.inj same).1

theorem lineage_alone (absent : forks.prepared fork = false) : forks.lineage fork = [fork] := by
  obtain ⟨above, self⟩ := sound.self fork
  cases above with
  | nil => exact self
  | cons upper rest =>
    have distinct := sound.distinct fork
    rw [self] at distinct
    have apart : upper ≠ fork := by
      intro same
      rw [same] at distinct
      exact (nodup_cons.mp distinct).1 mem_cons_self
    have listed : upper ∈ forks.lineage fork := by
      rw [self]
      exact mem_cons_of_mem _ mem_cons_self
    have standing := (sound.standing listed apart).1
    rw [absent] at standing
    cases standing

theorem cut {after : Forks ξ κ ν} {tail : List ξ}
    (gone : ∀ {other}, after.prepared other = false → after.lineage other = [other])
    (kept : ∀ {other}, after.prepared other = true → forks.lineage other = after.lineage other ++ tail ∧
      other ∈ after.lineage other ∧ ∀ ancestor ∈ after.lineage other, after.prepared ancestor = true) :
    after.Sound := by
  refine ⟨?_, ?_, ?_, ?_⟩
  · intro other
    cases alive : after.prepared other with
    | false => exact ⟨[], gone alive⟩
    | true =>
      obtain ⟨same, member, -⟩ := kept alive
      obtain ⟨first, rest, parts⟩ := exists_cons_of_ne_nil (ne_nil_of_mem member)
      obtain ⟨above, self⟩ := sound.self other
      rw [self, parts] at same
      exact ⟨rest, by rw [parts, (cons.inj same).1]⟩
  · intro other ancestor member
    cases alive : after.prepared other with
    | false =>
      rw [gone alive] at member
      rw [mem_singleton.mp member]
    | true =>
      obtain ⟨same, -, standing⟩ := kept alive
      have inside : ancestor ∈ forks.lineage other := by
        rw [same]
        exact mem_append_left _ member
      obtain ⟨skipped, joined⟩ := sound.upward inside
      rw [(kept (standing ancestor member)).1, same, ← append_assoc] at joined
      exact ⟨skipped, append_cancel_right joined⟩
  · intro other
    cases alive : after.prepared other with
    | false =>
      rw [gone alive]
      exact nodup_singleton _
    | true =>
      have distinct := sound.distinct other
      rw [(kept alive).1] at distinct
      exact (nodup_append'.mp distinct).1
  · intro other ancestor member apart
    cases alive : after.prepared other with
    | false =>
      rw [gone alive] at member
      exact absurd (mem_singleton.mp member) apart
    | true => exact ⟨rfl, (kept alive).2.2 ancestor member⟩

end

end Sound

variable [DecidableEq ξ]

/-- A new fork below another one, or below the published state. -/
def prepare (forks : Forks ξ κ ν) (parent : Option ξ) (child : ξ) : Forks ξ κ ν :=
  { forks with
    prepared := fun fork => fork = child || forks.prepared fork
    lineage := fun fork => if fork = child then child :: parent.elim [] forks.lineage else forks.lineage fork }

def write [DecidableEq κ] (forks : Forks ξ κ ν) (fork : ξ) (key : κ) (value : ν) : Forks ξ κ ν :=
  { forks with
    written := fun other place => if other = fork ∧ place = key then some value else forks.written other place }

def survives (forks : Forks ξ κ ν) (fork other : ξ) : Bool :=
  forks.prepared other && (other ≠ fork && fork ∈ forks.lineage other)

/-- What `fork` reads becomes the published state, and only the forks below it remain. -/
def publish (forks : Forks ξ κ ν) (fork : ξ) : Forks ξ κ ν :=
  { prepared := forks.survives fork
    lineage := fun other =>
      if forks.survives fork other then (forks.lineage other).takeWhile (· ≠ fork) else [other]
    written := fun other key =>
      if forks.survives fork other then forks.written other key
      else if forks.prepared other = true ∨ other = fork then none
      else forks.written other key
    published := forks.read fork }

/-- `fork` and the forks below it are gone. -/
def cancel (forks : Forks ξ κ ν) (fork : ξ) : Forks ξ κ ν :=
  { forks with
    prepared := fun other => forks.prepared other && fork ∉ forks.lineage other
    lineage := fun other => if fork ∈ forks.lineage other then [other] else forks.lineage other
    written := fun other key => if fork ∈ forks.lineage other then none else forks.written other key }

namespace Sound

variable {forks : Forks ξ κ ν} {child : ξ}

theorem takeWhile_eq (sound : forks.Sound)
    (same : forks.lineage other = before ++ forks.lineage fork) (absent : fork ∉ before) :
    (forks.lineage other).takeWhile (· ≠ fork) = before := by
  obtain ⟨above, self⟩ := sound.self fork
  rw [same, self, takeWhile_append_of_pos]
  · simp
  · intro member inside
    simp only [ne_eq, decide_not, Bool.not_eq_true', decide_eq_false_iff_not]
    intro met
    rw [met] at inside
    exact absent inside

theorem prepare (sound : forks.Sound) (fresh : forks.prepared child = false)
    (known : ∀ above ∈ parent, forks.prepared above = true) : (forks.prepare parent child).Sound := by
  have unused : ∀ {fork}, fork ≠ child → child ∉ forks.lineage fork := by
    intro fork different member
    have standing := (sound.standing member different.symm).2
    rw [fresh] at standing
    cases standing
  have different : ∀ above ∈ parent, above ≠ child := by
    intro above member same
    have standing := known above member
    rw [same, fresh] at standing
    cases standing
  refine ⟨?_, ?_, ?_, ?_⟩
  · intro fork
    by_cases here : fork = child
    · subst here
      exact ⟨parent.elim [] forks.lineage, if_pos rfl⟩
    · obtain ⟨above, self⟩ := sound.self fork
      exact ⟨above, (if_neg here).trans self⟩
  · intro fork ancestor member
    by_cases here : fork = child
    · subst here
      simp only [prepare, if_true] at member ⊢
      obtain same | above := mem_cons.mp member
      · rw [if_pos same]
      cases parent with
      | none => cases above
      | some parent =>
        have apart : ancestor ≠ fork := by
          intro same
          rw [same] at above
          exact unused (different parent rfl) above
        rw [if_neg apart]
        exact (sound.upward above).trans (suffix_cons _ _)
    · simp only [Forks.prepare, if_neg here] at member ⊢
      have apart : ancestor ≠ child := by
        intro same
        rw [same] at member
        exact unused here member
      rw [if_neg apart]
      exact sound.upward member
  · intro fork
    by_cases here : fork = child
    · subst here
      simp only [prepare, if_true]
      cases parent with
      | none => exact nodup_singleton _
      | some parent => exact nodup_cons.mpr ⟨unused (different parent rfl), sound.distinct parent⟩
    · simp only [Forks.prepare, if_neg here]
      exact sound.distinct fork
  · intro fork ancestor member apart
    by_cases here : fork = child
    · subst here
      simp only [prepare, if_true] at member ⊢
      obtain same | above := mem_cons.mp member
      · exact absurd same apart
      cases parent with
      | none => cases above
      | some parent =>
        have standing : forks.prepared ancestor = true := by
          by_cases same : ancestor = parent
          · rw [same]
            exact known parent rfl
          · exact (sound.standing above same).2
        simp [standing]
    · simp only [Forks.prepare, if_neg here] at member ⊢
      obtain ⟨first, second⟩ := sound.standing member apart
      simp [first, second]

theorem write [DecidableEq κ] (sound : forks.Sound) (fork : ξ) (key : κ) (value : ν) :
    (forks.write fork key value).Sound :=
  ⟨sound.self, sound.upward, sound.distinct, sound.standing⟩

theorem survives_iff : forks.survives fork other = true ↔
    forks.prepared other = true ∧ other ≠ fork ∧ fork ∈ forks.lineage other := by
  simp [survives]

theorem survives_before (sound : forks.Sound) (survives : forks.survives fork other = true)
    (same : forks.lineage other = before ++ forks.lineage fork) (absent : fork ∉ before)
    (member : ancestor ∈ before) : forks.survives fork ancestor = true := by
  obtain ⟨prepared, -, -⟩ := survives_iff.mp survives
  refine survives_iff.mpr ⟨?_, ?_, sound.below_of_before same member⟩
  · by_cases here : ancestor = other
    · rw [here]
      exact prepared
    · refine (sound.standing ?_ here).2
      rw [same]
      exact mem_append_left _ member
  · intro met
    rw [met] at member
    exact absent member

theorem publish (sound : forks.Sound) (fork : ξ) : (forks.publish fork).Sound := by
  apply sound.cut
  · intro other dead
    exact if_neg (Bool.eq_false_iff.mp dead)
  · intro other survives
    obtain ⟨-, apart, below⟩ := survives_iff.mp survives
    obtain ⟨before, same, absent⟩ := sound.split below
    have line : (forks.publish fork).lineage other = before := (if_pos survives).trans (sound.takeWhile_eq same absent)
    rw [line]
    refine ⟨same, ?_, fun ancestor => sound.survives_before survives same absent⟩
    have self := sound.self_mem other
    rw [same, mem_append] at self
    exact self.resolve_right fun above => apart (sound.antisymm above below)

theorem cancel (sound : forks.Sound) (fork : ξ) : (forks.cancel fork).Sound := by
  apply @cut _ _ _ _ sound _ []
  · intro other dead
    by_cases below : fork ∈ forks.lineage other
    · exact if_pos below
    · exact (if_neg below).trans (sound.lineage_alone (by simpa [Forks.cancel, below] using dead))
  · intro other alive
    simp only [Forks.cancel, Bool.and_eq_true, decide_eq_true_eq] at alive ⊢
    rw [if_neg alive.2, append_nil]
    refine ⟨rfl, sound.self_mem other, fun ancestor member => ⟨?_, fun below => alive.2 (sound.mem_trans below member)⟩⟩
    by_cases here : ancestor = other
    · rw [here]
      exact alive.1
    · exact (sound.standing member here).2

theorem read_prepare (forks : Forks ξ κ ν) (apart : other ≠ child) (key : κ) :
    (forks.prepare parent child).read other key = forks.read other key := by
  simp only [read, Forks.prepare, if_neg apart]

theorem read_write [DecidableEq κ] (forks : Forks ξ κ ν) (apart : fork ∉ forks.lineage other) (place key : κ) (value : ν) :
    (forks.write fork place value).read other key = forks.read other key := by
  have same : ∀ ancestor ∈ forks.lineage other,
      (forks.write fork place value).written ancestor key = forks.written ancestor key := by
    intro ancestor member
    apply if_neg
    intro both
    rw [both.1] at member
    exact apart member
  simp only [read, Forks.write] at same ⊢
  rw [findSome_congr same]

theorem read_publish (sound : forks.Sound) (survives : forks.survives fork other = true) (key : κ) :
    (forks.publish fork).read other key = forks.read other key := by
  obtain ⟨before, same, absent⟩ := sound.split (survives_iff.mp survives).2.2
  have cut : (forks.publish fork).lineage other = before :=
    (if_pos survives).trans (sound.takeWhile_eq same absent)
  have kept : ∀ ancestor ∈ before, (forks.publish fork).written ancestor key = forks.written ancestor key := by
    intro ancestor member
    exact if_pos (sound.survives_before survives same absent member)
  rw [read, read, cut, same, findSome_congr kept, findSome?_append, Option.or_assoc]
  rfl

theorem read_cancel (sound : forks.Sound) (apart : fork ∉ forks.lineage other) (key : κ) :
    (forks.cancel fork).read other key = forks.read other key := by
  have line : (forks.cancel fork).lineage other = forks.lineage other := if_neg apart
  have kept : ∀ ancestor ∈ forks.lineage other, (forks.cancel fork).written ancestor key = forks.written ancestor key := by
    intro ancestor member
    apply if_neg
    intro below
    exact apart (sound.mem_trans below member)
  rw [read, read, line, findSome_congr kept]
  rfl

end Sound

end Forks

end Karstflow.Data
