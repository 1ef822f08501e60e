import Karstflow.Data.Steps
import Karstflow.Data.Table
import Karstflow.Stages.Shredder

namespace Karstflow.Storage

open Data Stages List Option

/-! Slot metadata of the block store and the links between slots.

The first shred of a slot creates its metadata with the slot before it as the
parent. A header that declares another parent does not change that, and a
child is entered in its parent's list only if the parent has metadata already.
-/

inductive SlotStatus where
  | incomplete
  | complete
  | confirmed
  | dead
  | duplicate
deriving DecidableEq

/-- The counters are `u32` and wrap. -/
structure SlotMeta where
  parentSlot : Option Nat
  receivedDataShreds : Nat := 0
  receivedCodingShreds : Nat := 0
  expectedDataShreds : Option Nat := none
  status : SlotStatus := .incomplete
  nextSlots : List Nat := []

def SlotMeta.isComplete (saved : SlotMeta) : Bool :=
  saved.status = .complete || saved.status = .confirmed ||
    saved.expectedDataShreds.any fun expected => expected ≤ saved.receivedDataShreds

inductive BlockstoreError where
  | shredIndexOutOfRange (slot index : Nat)
  | invalidShredData

structure ShredInsertResult where
  slotComplete : Bool
  isLastInSlot : Bool

def maxDataShredsPerSlot : Nat := 16384

def maxCodingShredsPerSlot : Nat := 16384

/-- The metadata column of the backend, by slot. -/
abbrev Blockstore := Table Nat SlotMeta

namespace Blockstore

def guessedParent (slot : Nat) : Option Nat := if 0 < slot then some (slot - 1) else none

def getOrCreateSlotMeta (store : Blockstore) (slot : Nat) : SlotMeta :=
  (store.get slot).getD { parentSlot := guessedParent slot }

def linkParentChild (store : Blockstore) (parent child : Nat) : Blockstore :=
  store.modify parent fun saved =>
    if child ∈ saved.nextSlots then saved else { saved with nextSlots := saved.nextSlots ++ [child] }

/-- The declared parent is taken only if it is the one the metadata has, or if that has none. -/
def updateParent (store : Blockstore) (slot parentOffset : Nat) (saved : SlotMeta) : SlotMeta × Blockstore :=
  if 0 < parentOffset ∧ (saved.parentSlot = none ∨ saved.parentSlot = some (slot - parentOffset)) then
    ({ saved with parentSlot := some (slot - parentOffset) }, store.linkParentChild (slot - parentOffset) slot)
  else (saved, store)

def checkShred (shred : Shred) : Except BlockstoreError Unit :=
  if (if shred.isData then maxDataShredsPerSlot else maxCodingShredsPerSlot) ≤ shred.index then
    .error (.shredIndexOutOfRange shred.slot shred.index)
  else if shred.payload = [] then .error .invalidShredData
  else .ok ()

def recordShred (store : Blockstore) (shred : Shred) : Blockstore × ShredInsertResult :=
  let created := store.getOrCreateSlotMeta shred.slot
  match shred.dataHeader with
  | some header =>
    let counted := { created with
      receivedDataShreds := (created.receivedDataShreds + 1) % 2 ^ 32
      expectedDataShreds := if shred.isLastInSlot then some (shred.index + 1) else created.expectedDataShreds }
    let (linked, store) := store.updateParent shred.slot header.parentOffset counted
    let status := if linked.isComplete ∧ linked.status = .incomplete then .complete else linked.status
    (store.insert shred.slot { linked with status := status }, ⟨linked.isComplete, shred.isLastInSlot⟩)
  | none =>
    (store.insert shred.slot { created with receivedCodingShreds := (created.receivedCodingShreds + 1) % 2 ^ 32 },
      ⟨false, false⟩)

def insertShred (store : Blockstore) (shred : Shred) : Except BlockstoreError (Blockstore × ShredInsertResult) := do
  checkShred shred
  return store.recordShred shred

/-- The store after a call: a call that fails leaves it as it was. -/
def afterInsert (store : Blockstore) (shred : Shred) : Blockstore :=
  (store.insertShred shred).toOption.elim store Prod.fst

def insertAll (shreds : List Shred) : Blockstore := shreds.foldl afterInsert .empty

def accepted (shred : Shred) : Bool := (checkShred shred).isOk

def declaredParent (shred : Shred) : Option Nat :=
  if accepted shred then shred.dataHeader.map fun header => shred.slot - header.parentOffset else none

def Present (shreds : List Shred) (slot : Nat) : Prop := ∃ shred ∈ shreds, accepted shred ∧ shred.slot = slot

def Declares (shreds : List Shred) (slot parent : Nat) : Prop :=
  ∃ shred ∈ shreds, shred.slot = slot ∧ declaredParent shred = some parent

/-- A data shred of the slot came after the first shred of its parent. -/
def Linked (shreds : List Shred) (slot parent : Nat) : Prop :=
  ∃ earlier shred, earlier ++ [shred] <+: shreds ∧ shred.slot = slot ∧ declaredParent shred = some parent ∧
    Present earlier parent

/-- The parents and children of the metadata are the declared ones. -/
def Follows (store : Blockstore) (shreds : List Shred) : Prop :=
  (∀ slot parent, Declares shreds slot parent →
      ∃ saved, store.get slot = some saved ∧ saved.parentSlot = some parent) ∧
    ∀ slot saved, store.get slot = some saved →
      saved.nextSlots.Nodup ∧ ∀ child, child ∈ saved.nextSlots ↔ Declares shreds child slot

variable {store : Blockstore}

theorem present_append : Present (taken ++ [shred]) slot ↔
    Present taken slot ∨ accepted shred = true ∧ shred.slot = slot := by
  simp only [Present, mem_append, mem_singleton, or_and_right, exists_or, exists_eq_left]

theorem linked_append : Linked (taken ++ [shred]) slot parent ↔
    Linked taken slot parent ∨ shred.slot = slot ∧ declaredParent shred = some parent ∧ Present taken parent := by
  constructor
  · intro linked
    obtain ⟨earlier, next, inside, found⟩ := linked
    rcases prefix_concat_iff.mp inside with whole | within
    · obtain ⟨rfl, same⟩ := append_inj' whole rfl
      rw [(cons.inj same).1] at found
      exact .inr found
    · exact .inl ⟨earlier, next, within, found⟩
  · intro either
    rcases either with ⟨earlier, next, inside, found⟩ | found
    · exact ⟨earlier, next, inside.trans (prefix_append taken [shred]), found⟩
    · exact ⟨taken, shred, prefix_refl _, found⟩

theorem Linked.present (linked : Linked shreds slot parent) : Present shreds parent ∧ Declares shreds slot parent := by
  obtain ⟨earlier, shred, inside, same, declared, other, found, rest⟩ := linked
  exact ⟨⟨other, inside.subset (mem_append_left _ found), rest⟩,
    shred, inside.subset (mem_append_right _ (mem_singleton_self shred)), same, declared⟩

/-- A header declares a parent that the slot can have. -/
def WellDeclared (shred : Shred) : Prop :=
  ∀ header, shred.dataHeader = some header → 0 < header.parentOffset ∧ header.parentOffset ≤ shred.slot

theorem Declares.spec (declares : Declares shreds slot parent) (wellDeclared : ∀ shred ∈ shreds, WellDeclared shred) :
    Present shreds slot ∧ parent < slot := by
  obtain ⟨shred, found, rfl, declared⟩ := declares
  rw [declaredParent] at declared
  split at declared
  · obtain ⟨header, read, rfl⟩ := map_eq_some_iff.mp declared
    have bounds := wellDeclared shred found header read
    exact ⟨⟨shred, found, ‹_›, rfl⟩, by omega⟩
  · cases declared

theorem guessedParent_eq_some (positive : parent < slot) : guessedParent slot = some parent ↔ slot = parent + 1 := by
  rw [guessedParent, if_pos (by omega), some_inj]
  omega

theorem afterInsert_eq : afterInsert store shred = if accepted shred then (store.recordShred shred).1 else store := by
  rw [afterInsert, insertShred, accepted]
  cases checkShred shred <;> rfl

theorem updateParent_of_known (positive : 0 < offset) (known : saved.parentSlot = some parent) :
    store.updateParent slot offset saved =
      (saved, if slot - offset = parent then store.linkParentChild parent slot else store) := by
  rw [updateParent, known]
  by_cases same : slot - offset = parent
  · rw [if_pos ⟨positive, .inr (by rw [same])⟩, if_pos same, same, ← known]
  · rw [if_neg (by simp [Ne.symm same]), if_neg same]

theorem recordShred_links (taken : accepted shred = true)
    (guessed : (store.getOrCreateSlotMeta shred.slot).parentSlot = guessedParent shred.slot)
    (declared : WellDeclared shred) :
    ∃ saved, saved.parentSlot = guessedParent shred.slot ∧
      saved.nextSlots = (store.getOrCreateSlotMeta shred.slot).nextSlots ∧
      (store.recordShred shred).1 = .insert (if declaredParent shred = some (shred.slot - 1) then
        store.linkParentChild (shred.slot - 1) shred.slot else store) shred.slot saved := by
  rw [declaredParent, if_pos taken, recordShred]
  cases read : shred.dataHeader with
  | none =>
      refine ⟨_, ?_, ?_, rfl⟩
      · exact guessed
      · rfl
  | some header =>
      obtain ⟨positive, inside⟩ := declared header read
      have known : guessedParent shred.slot = some (shred.slot - 1) := if_pos (by omega)
      dsimp only
      rw [updateParent_of_known positive (by exact guessed.trans known)]
      simp only [map_some, some_inj]
      refine ⟨_, ?_, ?_, rfl⟩
      · exact guessed
      · rfl

open Classical in
/-- The only child of a slot is the slot after it, once that is linked. -/
noncomputable def children (taken : List Shred) (slot : Nat) : List Nat :=
  if Linked taken (slot + 1) slot then [slot + 1] else []

theorem mem_children : child ∈ children taken slot ↔ child = slot + 1 ∧ Linked taken child slot := by
  rw [children]
  split <;> simp_all

theorem children_nodup : (children taken slot).Nodup := by
  rw [children]
  split <;> simp

theorem children_append_of_ne (other : ¬ (shred.slot = slot + 1 ∧ declaredParent shred = some slot)) :
    children (taken ++ [shred]) slot = children taken slot := by
  have same : Linked (taken ++ [shred]) (slot + 1) slot = Linked taken (slot + 1) slot :=
    propext (linked_append.trans (or_iff_left fun new => other ⟨new.1, new.2.1⟩))
  rw [children, children, same]

theorem children_append_self (next : shred.slot = slot + 1) (names : declaredParent shred = some slot)
    (present : Present taken slot) : children (taken ++ [shred]) slot =
      if shred.slot ∈ children taken slot then children taken slot else children taken slot ++ [shred.slot] := by
  rw [children, if_pos (linked_append.mpr (.inr ⟨next, names, present⟩)), children, next]
  split <;> simp

/-- What the metadata says after the shreds taken so far. -/
def Tracks (taken : List Shred) (store : Blockstore) : Prop :=
  ∀ slot, (Present taken slot ∧ ∃ saved, store.get slot = some saved ∧ saved.parentSlot = guessedParent slot ∧
    saved.nextSlots = children taken slot) ∨ ¬ Present taken slot ∧ store.get slot = none

theorem Tracks.created (tracks : Tracks taken store) (slot : Nat) :
    (store.getOrCreateSlotMeta slot).parentSlot = guessedParent slot ∧
      (store.getOrCreateSlotMeta slot).nextSlots = children taken slot := by
  rw [getOrCreateSlotMeta]
  rcases tracks slot with ⟨_, saved, found, same⟩ | ⟨absent, none⟩
  · rw [found]
    exact same
  · rw [none]
    exact ⟨rfl, (if_neg (fun linked => absent (Linked.present linked).1)).symm⟩

theorem Tracks.afterInsert (tracks : Tracks taken store) (declared : WellDeclared shred) :
    Tracks (taken ++ [shred]) (store.afterInsert shred) := by
  intro slot
  rw [afterInsert_eq]
  have others (apart : ¬ (accepted shred = true ∧ shred.slot = slot)) :=
    (@present_append taken shred slot).trans (or_iff_left apart)
  by_cases kept : accepted shred = true
  · obtain ⟨guessed, listed⟩ := tracks.created shred.slot
    obtain ⟨saved, parentIs, nextIs, effect⟩ := recordShred_links kept guessed declared
    rw [if_pos kept, effect, Table.get_insert]
    by_cases own : slot = shred.slot
    · subst own
      -- a slot is not its own child
      rw [if_pos rfl, children_append_of_ne (by omega)]
      exact .inl ⟨present_append.mpr (.inr ⟨kept, rfl⟩), saved, rfl, parentIs, nextIs.trans listed⟩
    · rw [others fun new => own new.2.symm, if_neg own]
      by_cases linking : slot = shred.slot - 1 ∧ declaredParent shred = some (shred.slot - 1)
      · obtain ⟨rfl, names⟩ := linking
        rw [if_pos names, linkParentChild, Table.get_modify, if_pos rfl]
        rcases tracks (shred.slot - 1) with ⟨present, before, found, parentWas, nextWas⟩ | ⟨absent, none⟩
        · rw [found, map_some, children_append_self (by omega) names present, ← nextWas]
          refine .inl ⟨present, _, rfl, ?_, ?_⟩
          · split <;> exact parentWas
          · split <;> rfl
        · rw [none]
          exact .inr ⟨absent, rfl⟩
      · rw [children_append_of_ne fun new => linking (by rw [new.1]; exact ⟨rfl, new.2⟩)]
        split
        · rw [linkParentChild, Table.get_modify, if_neg fun above => linking ⟨above, ‹_›⟩]
          exact tracks slot
        · exact tracks slot
  · have silent : declaredParent shred = none := if_neg kept
    rw [if_neg kept, children_append_of_ne (by simp [silent]), others fun new => kept new.1]
    exact tracks slot

theorem tracks_insertAll (declared : ∀ shred ∈ shreds, WellDeclared shred) : Tracks shreds (insertAll shreds) := by
  induction shreds using reverseRecOn with
  | nil => exact fun slot => .inr ⟨by simp [Present], rfl⟩
  | append_singleton earlier shred ih =>
      rw [insertAll, foldl_concat]
      exact (ih fun other found => declared other (mem_append_left _ found)).afterInsert
        (declared shred (mem_append_right _ (mem_singleton_self shred)))

/-- The links follow the shreds exactly when every slot declares the slot
before it as its parent and has a data shred after its parent's first shred. -/
theorem links_follow_iff (declared : ∀ shred ∈ shreds, WellDeclared shred)
    (parents : ∀ slot parent, Declares shreds slot parent → Present shreds parent) : (insertAll shreds).Follows shreds ↔
      ∀ slot parent, Declares shreds slot parent → slot = parent + 1 ∧ Linked shreds slot parent := by
  have saved := tracks_insertAll declared
  constructor
  · intro follows slot parent declares
    obtain ⟨_, above, known, _, listed⟩ := (saved parent).resolve_right fun none => none.1 (parents slot parent declares)
    have member := ((follows.2 parent above known).2 slot).mpr declares
    rw [listed, mem_children] at member
    exact member
  · intro all
    constructor
    · intro slot parent declares
      obtain ⟨_, own, found, guessed, _⟩ := (saved slot).resolve_right fun none =>
        none.1 (declares.spec declared).1
      have before := (guessedParent_eq_some (declares.spec declared).2).mpr (all slot parent declares).1
      exact ⟨own, found, guessed.trans before⟩
    · intro slot own found
      rcases saved slot with ⟨_, other, known, _, listed⟩ | ⟨_, none⟩
      · cases found.symm.trans known
        rw [listed]
        exact ⟨children_nodup, fun child => mem_children.trans ⟨fun both => both.2.present.2, all child slot⟩⟩
      · cases found.symm.trans none

/-- A coding shred of one slot, and a data shred of a child of it. -/
def family (parent offset : Nat) : List Shred :=
  let shredOf (slot : Nat) (variant : ShredVariant) : Shred :=
    { variantByte := 0, slot, index := 0, version := 0, fecSetIndex := 0, variant, payload := [0] }
  [shredOf parent (.legacyCoding ⟨1, 1, 0⟩), shredOf (parent + offset) (.legacyData ⟨offset, 0, 1⟩)]

theorem declares_family (declares : Declares (family above offset) slot parent) :
    slot = above + offset ∧ parent = above := by
  obtain ⟨shred, found, rfl, declared⟩ := declares
  simp only [family, mem_cons, not_mem_nil, or_false] at found
  rcases found with rfl | rfl
  · cases declared
  · exact ⟨rfl, (some.inj declared).symm.trans (Nat.add_sub_cancel ..)⟩

theorem wellDeclared_family (positive : 0 < offset) : ∀ shred ∈ family above offset, WellDeclared shred := by
  simp [WellDeclared, family, Shred.dataHeader, positive]

theorem present_family (slot parent : Nat) (declares : Declares (family above offset) slot parent) :
    Present (family above offset) parent := by
  rw [(declares_family declares).2]
  exact ⟨_, mem_cons_self, rfl, rfl⟩

theorem links_follow_in_order : (insertAll (family 4 1)).Follows (family 4 1) := by
  have first : Present ((family 4 1).take 1) 4 := ⟨_, mem_cons_self, rfl, rfl⟩
  refine (links_follow_iff (wellDeclared_family one_pos) present_family).mpr
    fun slot parent declares => ?_
  obtain ⟨rfl, rfl⟩ := declares_family declares
  exact ⟨rfl, (family 4 1).take 1, _, prefix_refl _, rfl, rfl, first⟩

theorem skipped_parent_not_named : (∀ shred ∈ family 3 2, WellDeclared shred) ∧
    (∀ slot parent, Declares (family 3 2) slot parent → Present (family 3 2) parent) ∧
    (∀ slot parent other, Declares (family 3 2) slot parent → Declares (family 3 2) slot other → parent = other) ∧
    ¬ (insertAll (family 3 2)).Follows (family 3 2) := by
  refine ⟨wellDeclared_family two_pos, present_family, fun slot parent other one two => ?_, fun follows => ?_⟩
  · exact (declares_family one).2.trans (declares_family two).2.symm
  · obtain ⟨saved, found, names⟩ := follows.1 5 3 ⟨_, mem_cons_of_mem _ mem_cons_self, rfl, rfl⟩
    have kept : ((insertAll (family 3 2)).get 5).map SlotMeta.parentSlot = some (some 4) := by decide
    rw [found, map_some, names] at kept
    cases kept

end Blockstore

end Karstflow.Storage
