import Karstflow.Alpenglow.PoolCertificates
import Karstflow.Alpenglow.PoolTracking

namespace Karstflow.Alpenglow

open Data List

/-! # Blocks that wait for their parent's certificate

A block is told that its parent is certified when it is registered or, if the
certificate comes later, from the table of waiting blocks. The table has one
block for each parent.
-/

namespace Pool

variable {pool after : Pool}

def HasNotarCert (pool : Pool) (block : BlockId) : Prop :=
  (pool.slotState block.slot).certs.notar.map NotarCert.blockHash = some block.hash

/-- The pool has a notar or a notar-fallback certificate for the block. -/
def HasCert (pool : Pool) (block : BlockId) : Prop :=
  pool.HasNotarCert block ∨ (pool.slotState block.slot).isNotarFallback block.hash = true

/-- A registered block knows about its parent's certificate or waits for it. -/
def Informed (registered : BlockId → BlockId → Prop) (pool : Pool) : Prop :=
  ∀ block parent, registered block parent → pool.firstUnprunedSlot ≤ block.slot →
    pool.firstUnprunedSlot ≤ parent.slot →
      pool.parentStatus block = some .certified ∨
        pool.s2nWaiting.get parent = some block ∧ ¬ pool.HasCert parent

theorem hasCert_congr (certs : (after.slotState parent.slot).certs = (pool.slotState parent.slot).certs) :
    after.HasCert parent ↔ pool.HasCert parent := by
  rw [HasCert, HasCert, HasNotarCert, HasNotarCert, SlotState.isNotarFallback, SlotState.isNotarFallback, certs]

namespace Informed

theorem step (informed : Informed registered pool) (first : pool.firstUnprunedSlot ≤ after.firstUnprunedSlot)
    (told : ∀ block, after.firstUnprunedSlot ≤ block.slot → pool.parentStatus block = some .certified →
      after.parentStatus block = some .certified)
    (waiting : ∀ block parent, after.firstUnprunedSlot ≤ block.slot → after.firstUnprunedSlot ≤ parent.slot →
      pool.s2nWaiting.get parent = some block → ¬ pool.HasCert parent → after.parentStatus block = some .certified ∨
          after.s2nWaiting.get parent = some block ∧ ¬ after.HasCert parent) : Informed registered after := by
  intro block parent known blockTracked parentTracked
  cases informed block parent known (le_trans first blockTracked) (le_trans first parentTracked) with
  | inl certified => exact .inl (told block blockTracked certified)
  | inr parked => exact waiting block parent blockTracked parentTracked parked.1 parked.2

theorem follows (informed : Informed registered pool) (follows : Follows told pool after)
    (waiting : after.s2nWaiting = pool.s2nWaiting) : Informed registered after := by
  refine informed.step follows.first ?_ ?_
  · intro block tracked certified
    rw [follows.parents block tracked, certified, ite_self]
  · intro block parent _ tracked parked uncertified
    rw [waiting, hasCert_congr (follows.certs _ tracked)]
    exact .inr ⟨parked, uncertified⟩

end Informed

theorem parentStatus_storeCert : (pool.storeCert cert).parentStatus block = pool.parentStatus block := by
  have same : ((pool.slotState block.slot).addCert cert).parents = (pool.slotState block.slot).parents := by
    cases cert with
    | notarFallback cert =>
      rw [SlotState.addCert]
      split <;> rfl
    | _ => rfl
  rw [parentStatus, slotState_storeCert]
  split
  · rw [same, parentStatus]
  · rfl

theorem hasCert_of_storeCert (stored : (pool.storeCert cert).HasCert parent) :
    (PoolCause.certStored cert).certified = some parent ∨ pool.HasCert parent := by
  rw [HasCert, HasNotarCert, slotState_storeCert] at stored
  by_cases here : parent.slot = cert.slot
  · rw [if_pos here] at stored
    cases cert with
    | notar cert =>
      obtain notarized | fallback := stored
      · have hash : cert.blockHash = parent.hash := Option.some.inj notarized
        exact .inl (congrArg some (by rw [hash]; exact congrArg (BlockId.mk · parent.hash) here.symm))
      · exact .inr (.inr fallback)
    | notarFallback cert =>
      rw [SlotState.addCert] at stored
      split at stored
      · exact .inr stored
      obtain notarized | fallback := stored
      · exact .inr (.inl notarized)
      rw [SlotState.isNotarFallback, any_append, Bool.or_eq_true] at fallback
      obtain earlier | new := fallback
      · exact .inr (.inr earlier)
      · have hash : cert.blockHash = parent.hash := by simpa using new
        exact .inl (congrArg some (by rw [hash]; exact congrArg (BlockId.mk · parent.hash) here.symm))
    | skip | fastFinal | final => exact .inr stored
  · rw [if_neg here] at stored
    exact .inr stored

theorem Informed.addValidCert (informed : Informed registered pool)
    (ran : pool.addValidCert cert out = .ok (after, out')) : Informed registered after := by
  have follows := addValidCert_follows ran
  split at follows
  · rename_i certified asked
    obtain ⟨follows, unparks⟩ := follows
    refine informed.step follows.first ?_ ?_
    · intro block tracked certified
      rw [follows.parents block tracked, parentStatus_storeCert, certified, ite_self]
    · intro block parent blockTracked parentTracked parked uncertified
      by_cases here : parent = certified
      · have told : block ∈ (pool.s2nWaiting.get certified).toList := by rw [← here, parked]; exact mem_cons_self
        rw [follows.parents block blockTracked, if_pos told]
        exact .inl rfl
      rw [unparks parent, if_neg here, hasCert_congr (follows.certs _ parentTracked)]
      refine .inr ⟨parked, fun stored => ?_⟩
      obtain own | earlier := hasCert_of_storeCert stored
      · exact here (Option.some.inj (own.symm.trans asked))
      · exact uncertified earlier
  · rename_i asked
    obtain ⟨follows, waiting⟩ := follows
    refine informed.step follows.first ?_ ?_
    · intro block tracked certified
      rw [follows.parents block tracked, parentStatus_storeCert, certified, ite_self]
    · intro block parent _ parentTracked parked uncertified
      rw [waiting, hasCert_congr (follows.certs _ parentTracked)]
      refine .inr ⟨parked, fun stored => ?_⟩
      obtain own | earlier := hasCert_of_storeCert stored
      · exact Option.some_ne_none _ (own.symm.trans asked)
      · exact uncertified earlier

theorem Informed.addValidCerts (informed : Informed registered pool)
    (ran : pool.addValidCerts certs out = .ok (after, out')) : Informed registered after := by
  induction certs generalizing pool out with
  | nil =>
    cases ran
    exact informed
  | cons first rest ih =>
    obtain ⟨⟨middle, out₁⟩, added, ran⟩ := bind_eq_ok.mp ran
    exact ih (informed.addValidCert added) ran

theorem Informed.addCert (informed : Informed registered pool)
    (ran : pool.addCert cert out = .ok (answer, after, out')) : Informed registered after := by
  obtain ⟨rfl, _⟩ | ⟨_, added⟩ := addCert_cases ran
  · exact informed
  · exact informed.addValidCert added

theorem setState_follows (same : state.parents = (pool.slotState slot).parents)
    (certs : state.certs = (pool.slotState slot).certs) :
    (∀ block, (pool.setState slot state).parentStatus block = pool.parentStatus block) ∧
      ∀ block, (pool.setState slot state).HasCert block ↔ pool.HasCert block := by
  constructor
  · intro block
    rw [parentStatus, slotState_setState]
    split
    · next here => rw [same, parentStatus, here]
    · rfl
  · intro block
    apply hasCert_congr
    rw [slotState_setState]
    split
    · next here => rw [certs, here]
    · rfl

theorem Informed.addVote (informed : Informed registered pool)
    (ran : pool.addVote vote out = .ok (answer, after, out')) : Informed registered after := by
  obtain ⟨_, rfl, _⟩ | ⟨_, state, outputs, counted, adding⟩ := addVote_cases ran
  · exact informed
  obtain ⟨_, certs, parents⟩ := (SlotState.addVote_added counted).marks.upkeep
  have parents : state.parents = (pool.slotState vote.slot).parents := by
    rw [parents]
    cases vote <;> rfl
  have certs : state.certs = (pool.slotState vote.slot).certs := by
    rw [certs]
    exact (pool.slotState vote.slot).certs_withVote vote _
  obtain ⟨status, stored⟩ := setState_follows parents certs
  have set : Informed registered (pool.setState vote.slot state) := by
    refine informed.step (le_refl _) ?_ ?_
    · intro block _ certified
      rw [status, certified]
    · intro block parent _ _ parked uncertified
      rw [stored]
      exact .inr ⟨parked, uncertified⟩
  obtain ⟨follows, waiting⟩ := pool.withCounted_follows vote state
  exact (set.follows follows waiting).addValidCerts adding

/-- The block would be parked although its parent is notarized, or in the place
of another block. -/
def Displaces (pool : Pool) (block parent : BlockId) : Prop :=
  (pool.slotState parent.slot).isNotarFallback parent.hash = false ∧
    (pool.HasNotarCert parent ∨ ∃ other, other ≠ block ∧ pool.s2nWaiting.get parent = some other)

theorem parentStatus_known (pool : Pool) {block other : BlockId}
    (certified : pool.parentStatus other = some .certified) :
    (pool.setState block.slot ((pool.slotState block.slot).notifyParentKnown block.hash)).parentStatus other =
      some .certified := by
  rw [parentStatus] at certified
  rw [parentStatus, slotState_setState]
  split
  · rename_i here
    rw [SlotState.notifyParentKnown]
    rw [here] at certified
    split
    · exact certified
    · rename_i unknown
      rw [Table.get_insert_ne, certified]
      intro same
      exact unknown (Table.contains_iff.mpr ⟨_, same ▸ certified⟩)
  · exact certified

theorem Informed.addBlock (informed : Informed registered pool) (spaced : ¬ pool.Displaces block parent)
    (ran : pool.addBlock block parent out = .ok (after, out')) :
    Informed (fun child origin => registered child origin ∨ child = block ∧ origin = parent) after := by
  obtain ⟨_, _, ran⟩ := bind_eq_ok.mp ran
  obtain ⟨⟨middle, out₁⟩, finalizing, ran⟩ := bind_eq_ok.mp ran
  obtain ⟨finalized, waiting⟩ := @finalizeWith_follows _ _ _ _ (.addParent block parent) finalizing
  have informed := informed.follows finalized waiting
  have certs : ∀ slot, ((middle.setState block.slot
      ((middle.slotState block.slot).notifyParentKnown block.hash)).slotState slot).certs =
      (middle.slotState slot).certs := by
    intro slot
    rw [slotState_setState]
    split
    · next here => rw [((middle.slotState block.slot).notifyParentKnown_upkeep block.hash).2, here]
    · rfl
  have known : Informed registered
      (middle.setState block.slot ((middle.slotState block.slot).notifyParentKnown block.hash)) := by
    refine informed.step (le_refl _) (fun other _ => middle.parentStatus_known) ?_
    intro child origin _ _ parked uncertified
    rw [hasCert_congr (certs origin.slot)]
    exact .inr ⟨parked, uncertified⟩
  dsimp only at ran
  split at ran
  · rename_i fallback
    obtain ⟨follows, same⟩ := notifyChild_follows ran
    have told := known.follows follows same
    rintro child origin (earlier | ⟨rfl, rfl⟩) childTracked originTracked
    · exact told child origin earlier childTracked originTracked
    · rw [follows.parents child childTracked, if_pos mem_cons_self]
      exact .inl rfl
  rename_i uncertified
  cases ran
  rw [isNotarFallback_slotState, Bool.not_eq_true] at uncertified
  -- the parent's slot is tracked, so its certificates are those before the call
  have alone : middle.firstUnprunedSlot ≤ parent.slot →
      ¬ pool.HasCert parent ∧ ∀ other, pool.s2nWaiting.get parent = some other → other = block := by
    intro tracked
    have fallback : (pool.slotState parent.slot).isNotarFallback parent.hash = false := by
      rw [SlotState.isNotarFallback, ← finalized.certs _ tracked, ← certs]
      exact uncertified
    refine ⟨fun stored => ?_, fun other parked => ?_⟩
    · obtain notarized | certified := stored
      · exact spaced ⟨fallback, .inl notarized⟩
      · exact Bool.eq_false_iff.mp fallback certified
    · by_contra different
      exact spaced ⟨fallback, .inr ⟨other, different, parked⟩⟩
  have unstored : ∀ origin : BlockId, middle.firstUnprunedSlot ≤ origin.slot → ¬ pool.HasCert origin →
      ¬ (middle.setState block.slot ((middle.slotState block.slot).notifyParentKnown block.hash)).HasCert
        origin := by
    intro origin tracked none
    rw [hasCert_congr ((certs _).trans (finalized.certs _ tracked))]
    exact none
  rintro child origin (earlier | ⟨rfl, rfl⟩) childTracked originTracked
  · obtain certified | parked := known child origin earlier childTracked originTracked
    · exact .inl certified
    refine .inr ⟨?_, parked.2⟩
    rw [Table.get_insert]
    split
    · rename_i here
      have parked := parked.1
      rw [here] at originTracked parked
      have mine := waiting ▸ parked
      rw [(alone originTracked).2 child mine]
    · exact parked.1
  · exact .inr ⟨Table.get_insert_self _ _ _, unstored origin originTracked (alone originTracked).1⟩

end Pool

namespace PoolInput

/-- Every registered block whose parent has a notar or notar-fallback
certificate records it, as long as both slots are tracked. -/
def ChildrenTold (ownId : Nat) (info : EpochInfo) (inputs : List PoolInput) : Prop :=
  ∀ pool outs, run ownId info inputs = .ok (pool, outs) →
    ∀ child parent, .block child parent ∈ inputs → pool.firstUnprunedSlot ≤ child.slot →
      pool.firstUnprunedSlot ≤ parent.slot → pool.HasCert parent →
        pool.parentStatus child = some .certified

/-- The input registers a block that displaces another or comes too late. -/
def Displaces (pool : Pool) : PoolInput → Prop
  | block added parent => pool.Displaces added parent
  | _ => False

theorem run_informed
    (spaced : ∀ earlier input, earlier ++ [input] <+: inputs → ∀ before sent,
      run ownId info earlier = .ok (before, sent) → ¬ input.Displaces before)
    (ran : run ownId info inputs = .ok (pool, outs)) :
    pool.Informed fun child parent => .block child parent ∈ inputs := by
  induction inputs using reverseRecOn generalizing pool outs with
  | nil =>
    intro child parent registered
    cases registered
  | append_singleton inputs input ih =>
    obtain ⟨before, earlier, out, ranBefore, stepped, rfl⟩ := runSteps_append_eq_ok.mp ran
    have informed := ih (fun taken next inside => spaced taken next (inside.trans (prefix_append _ _)))
      ranBefore
    have apart := spaced inputs input (prefix_refl _) before earlier ranBefore
    -- only a block adds to what is registered
    have others : ∀ {after : Pool}, (∀ child parent, input ≠ .block child parent) →
        after.Informed (fun child parent => .block child parent ∈ inputs) →
        after.Informed fun child parent => .block child parent ∈ inputs ++ [input] := by
      intro after other informed child parent registered
      obtain earlier | last := mem_append.mp registered
      · exact informed child parent earlier
      · exact absurd (mem_singleton.mp last).symm (other child parent)
    cases input with
    | vote vote =>
      obtain ⟨⟨answer, after, out₁⟩, added, done⟩ := bind_eq_ok.mp stepped
      cases done
      exact others (fun _ _ => by simp) (informed.addVote added)
    | cert cert =>
      obtain ⟨⟨answer, after, out₁⟩, added, done⟩ := bind_eq_ok.mp stepped
      cases done
      exact others (fun _ _ => by simp) (informed.addCert added)
    | block block parent =>
      intro child origin registered
      apply informed.addBlock apart stepped child origin
      simpa using registered

/-- Every parked block learns of its parent's certificate in a run that parks no
block in another's place and none whose parent has a notar certificate only. -/
theorem childrenTold_of_spaced (ownId : Nat) (info : EpochInfo) (inputs : List PoolInput)
    (spaced : ∀ earlier input, earlier ++ [input] <+: inputs → ∀ before sent,
      run ownId info earlier = .ok (before, sent) → ¬ input.Displaces before)
    (taken : List PoolInput) (inside : taken <+: inputs) : ChildrenTold ownId info taken := by
  intro pool outs ran child parent registered childTracked parentTracked certified
  have informed := run_informed
    (fun earlier input within => spaced earlier input (within.trans inside)) ran
  obtain told | parked := informed child parent registered childTracked parentTracked
  · exact told
  · exact absurd certified parked.2

/-- Two blocks on one parent, and the votes that notarize the parent. -/
def siblings : List PoolInput :=
  .block ⟨5, 1⟩ ⟨4, 9⟩ :: .block ⟨6, 2⟩ ⟨4, 9⟩ :: notarVotes

/-- A notar certificate that comes from elsewhere, and a block on it. -/
def certifiedElsewhere : List PoolInput :=
  [.cert (.notar ⟨4, 9, ⟨5, 7⟩, 60⟩), .block ⟨5, 1⟩ ⟨4, 9⟩]

/-- What decides whether the block at slot 5 was told about its parent. -/
def atSlotFive (reached : Pool × List PoolOut) : Nat × Option BlockHash × Option ParentStatus :=
  (reached.1.firstUnprunedSlot, (reached.1.slotState 4).certs.notar.map NotarCert.blockHash,
    reached.1.parentStatus ⟨5, 1⟩)

theorem not_childrenTold_of_atSlotFive
    (reached : (run 0 fiveEqual inputs).map atSlotFive = .ok (0, some 9, some .known))
    (registered : .block ⟨5, 1⟩ ⟨4, 9⟩ ∈ inputs) : ¬ ChildrenTold 0 fiveEqual inputs := by
  intro told
  obtain ⟨final, ran, values⟩ := map_eq_ok.mp reached
  simp only [atSlotFive, Prod.mk.injEq] at values
  have certified := told final.1 final.2 ran ⟨5, 1⟩ ⟨4, 9⟩ registered (values.1 ▸ Nat.zero_le _)
    (values.1 ▸ Nat.zero_le _) (.inl values.2.1)
  rw [values.2.2] at certified
  cases certified

/-- The first of the siblings is never told, and neither is a block that comes
after a notar certificate without a notar-fallback certificate. -/
theorem siblings_not_told : ¬ ChildrenTold 0 fiveEqual siblings ∧ ¬ ChildrenTold 0 fiveEqual certifiedElsewhere :=
  ⟨not_childrenTold_of_atSlotFive (by decide +kernel) (by decide),
    not_childrenTold_of_atSlotFive (by decide +kernel) (by decide)⟩

/-- One block on its parent, and the votes that notarize the parent. -/
def onlyChild : List PoolInput := .block ⟨5, 1⟩ ⟨4, 9⟩ :: notarVotes

theorem onlyChild_told : ChildrenTold 0 fiveEqual onlyChild := by
  apply childrenTold_of_spaced 0 fiveEqual onlyChild ?_ onlyChild (prefix_refl _)
  simp only [onlyChild, notarVotes, forall_step_cons, forall_step_nil, Displaces, not_false_iff, implies_true, and_true]
  intro before sent ran
  cases ran
  rintro ⟨_, notarized | ⟨other, _, parked⟩⟩
  · cases notarized
  · cases parked

end PoolInput

end Karstflow.Alpenglow
