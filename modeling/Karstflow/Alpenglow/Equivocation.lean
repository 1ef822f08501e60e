import Karstflow.Alpenglow.SlotState
import Karstflow.Alpenglow.VotorRules
import Karstflow.Data.Steps

namespace Karstflow.Alpenglow

open Data Votor List

/-! # Equivocation

A Votor that is handed events in any order casts votes; the rules of its acts
keep it from notarizing a slot it has skipped or notarized before. The one way
around the rules is a pending block of a voted slot, which a later retry may
notarize.
-/

def castVotes (outs : List VotorOut) : List Vote := outs.flatMap VotorOut.votes

theorem castVotes_append : castVotes (outs ++ [out]) = castVotes outs ++ out.votes := by
  simp [castVotes]

structure NoEquivocation (votes : List Vote) : Prop where
  notarSkip : ∀ {notar skip}, .notar notar ∈ votes → .skip skip ∈ votes → notar.slot ≠ skip.slot
  notarOnce : ∀ {notar other}, .notar notar ∈ votes → .notar other ∈ votes → notar.slot = other.slot →
    notar.blockHash = other.blockHash

theorem NoEquivocation.nil : NoEquivocation [] :=
  ⟨fun member => absurd member not_mem_nil, fun member => absurd member not_mem_nil⟩

/-- The slot state stores, for this validator, only votes that it has cast. -/
def SlotState.StoresVotesOf (state : SlotState) (index : Nat) (votes : List Vote) : Prop :=
  (∀ vote, (state.vv index).notar = some vote → vote.slot = state.slot ∧ .notar vote ∈ votes) ∧
    ∀ vote, (state.vv index).skip = some vote → vote.slot = state.slot ∧ .skip vote ∈ votes

/-- No slot state that has some of the votes finds one of the two offences. -/
def Unslashable (index : Nat) (votes : List Vote) : Prop :=
  ∀ state : SlotState, state.StoresVotesOf index votes → ∀ vote ∈ votes, vote.slot = state.slot →
    ∀ slashable, state.checkSlashableOffence vote = some slashable →
      slashable.offence ≠ .skipAndNotarize ∧ slashable.offence ≠ .notarDifferentHash

theorem NoEquivocation.unslashable {votes : List Vote} (honest : NoEquivocation votes)
    (signer : ∀ vote ∈ votes, vote.signer = index) : Unslashable index votes := by
  intro state stored vote member here slashable found
  have mine := signer vote member
  obtain ⟨storedNotar, storedSkip⟩ := stored
  cases vote with
  | notar notar =>
    simp only [SlotState.checkSlashableOffence, mine] at found
    cases skipped : (state.vv index).skip with
    | some skip =>
      obtain ⟨there, cast⟩ := storedSkip skip skipped
      exact absurd (here.trans there.symm) (honest.notarSkip member cast)
    | none =>
      cases notarized : (state.vv index).notar with
      | none => simp [skipped, notarized] at found
      | some existing =>
        obtain ⟨there, cast⟩ := storedNotar existing notarized
        have same := honest.notarOnce cast member (there.trans here.symm)
        simp [skipped, notarized, same] at found
  | skip skip =>
    simp only [SlotState.checkSlashableOffence, mine] at found
    cases notarized : (state.vv index).notar with
    | some notar =>
      obtain ⟨there, cast⟩ := storedNotar notar notarized
      exact absurd (there.trans here.symm) (honest.notarSkip cast member)
    | none =>
      simp only [notarized, Option.isSome_none, Bool.false_eq_true, if_false] at found
      split at found <;> cases found
      simp
  | notarFallback fallback | skipFallback fallback =>
    simp only [SlotState.checkSlashableOffence] at found
    split at found <;> cases found
    simp
  | final final =>
    simp only [SlotState.checkSlashableOffence] at found
    split at found
    · cases found
      simp
    · split at found <;> cases found
      simp

/-- The slot states record the votes cast. A pending block of a voted slot
means that the slot was skipped while the block was waiting. -/
structure Records (index : Nat) (view : VotorView) (votes : List Vote) : Prop where
  signer : ∀ vote ∈ votes, vote.signer = index
  notar : ∀ vote, .notar vote ∈ votes → vote.slot < view.first ∨
    (view.slots vote.slot).voted = true ∧ (view.slots vote.slot).votedNotar = some vote.blockHash
  skip : ∀ vote, .skip vote ∈ votes → vote.slot < view.first ∨
    (view.slots vote.slot).voted = true ∧ (view.slots vote.slot).votedNotar = none
  unvoted : ∀ slot, (view.slots slot).voted = false → (view.slots slot).votedNotar = none
  pending : ∀ slot block, (view.slots slot).pendingBlock = some block → view.first ≤ slot ∧
    ((view.slots slot).voted = true → .newSkip slot index ∈ votes)
  honest : NoEquivocation votes

theorem Votor.initial_slots : (initial index).view.slots slot =
    if slot = 0 then
      { VotorSlotState.default with
        voted := true, votedNotar := some genesisBlockHash, blockNotarized := some genesisBlockHash
        parentsReady := [.genesis 0], retired := true }
    else .default := by
  simp only [view, slotState, initial, Table.get_insert]
  split <;> rfl

namespace Records

variable {view : VotorView} {cast : List Vote}

theorem initial (index : Nat) : Records index (initial index).view [] := by
  refine ⟨by simp, by simp, by simp, ?_, ?_, .nil⟩
  · intro slot
    rw [initial_slots]
    split <;> simp [VotorSlotState.default]
  · intro slot block
    rw [initial_slots]
    split <;> simp [VotorSlotState.default]

section

variable (records : Records index view votes)

include records

theorem unrecorded (first : view'.first = view.first)
    (same : ∀ slot, (view'.slots slot).voted = (view.slots slot).voted ∧
      (view'.slots slot).votedNotar = (view.slots slot).votedNotar ∧
      (view'.slots slot).pendingBlock = (view.slots slot).pendingBlock) (other : ∀ vote ∈ cast, vote ∈ votes ∨
      vote.signer = index ∧ (∀ notar, vote ≠ .notar notar) ∧ ∀ skip, vote ≠ .skip skip) :
    Records index view' (votes ++ cast) := by
  have old : ∀ vote, vote ∈ votes ++ cast → ((∃ notar, vote = .notar notar) ∨ ∃ skip, vote = .skip skip) →
      vote ∈ votes := by
    intro vote member kind
    obtain before | new := mem_append.mp member
    · exact before
    obtain before | ⟨_, notNotar, notSkip⟩ := other vote new
    · exact before
    · obtain ⟨notar, rfl⟩ | ⟨skip, rfl⟩ := kind
      · exact absurd rfl (notNotar notar)
      · exact absurd rfl (notSkip skip)
  refine ⟨?_, ?_, ?_, ?_, ?_, ?_, ?_⟩
  · intro vote member
    obtain before | new := mem_append.mp member
    · exact records.signer vote before
    · obtain before | ⟨mine, _⟩ := other vote new
      · exact records.signer vote before
      · exact mine
  · intro vote member
    rw [first, (same _).1, (same _).2.1]
    exact records.notar vote (old _ member (.inl ⟨vote, rfl⟩))
  · intro vote member
    rw [first, (same _).1, (same _).2.1]
    exact records.skip vote (old _ member (.inr ⟨vote, rfl⟩))
  · intro slot
    rw [(same _).1, (same _).2.1]
    exact records.unvoted slot
  · intro slot block held
    rw [(same _).2.2] at held
    rw [first, (same _).1]
    obtain ⟨low, skipped⟩ := records.pending slot block held
    exact ⟨low, fun voted => mem_append_left cast (skipped voted)⟩
  · intro notar skip member member'
    exact records.honest.notarSkip (old _ member (.inl ⟨notar, rfl⟩)) (old _ member' (.inr ⟨skip, rfl⟩))
  · intro notar notar' member member'
    exact records.honest.notarOnce (old _ member (.inl ⟨notar, rfl⟩)) (old _ member' (.inl ⟨notar', rfl⟩))

theorem unrecordedAt {state : VotorSlotState}
    (voted : state.voted = (view.slots slot).voted) (notar : state.votedNotar = (view.slots slot).votedNotar)
    (pending : state.pendingBlock = (view.slots slot).pendingBlock) (other : ∀ vote ∈ cast, vote ∈ votes ∨
      vote.signer = index ∧ (∀ notar, vote ≠ .notar notar) ∧ ∀ skip, vote ≠ .skip skip) :
    Records index (view.set slot state) (votes ++ cast) := by
  refine records.unrecorded rfl ?_ other
  intro here
  rw [VotorView.slots_set]
  split
  · next same => exact same ▸ ⟨voted, notar, pending⟩
  · exact ⟨rfl, rfl, rfl⟩

theorem none_of_fresh (low : view.first ≤ slot) (fresh : (view.slots slot).voted = false) :
    (∀ vote, .notar vote ∈ votes → vote.slot ≠ slot) ∧ ∀ vote, .skip vote ∈ votes → vote.slot ≠ slot := by
  constructor
  · intro vote member same
    obtain below | ⟨voted, _⟩ := records.notar vote member
    · omega
    · rw [same, fresh] at voted
      cases voted
  · intro vote member same
    obtain below | ⟨voted, _⟩ := records.skip vote member
    · omega
    · rw [same, fresh] at voted
      cases voted

theorem castAt {state : VotorSlotState} {vote : Vote} (low : view.first ≤ slot)
    (fresh : (view.slots slot).voted = false) (voted : state.voted = true) (signer : vote.signer = index)
    (notar : ∀ cast, .notar cast = vote → cast.slot = slot ∧ state.votedNotar = some cast.blockHash)
    (skip : ∀ cast, .skip cast = vote → cast.slot = slot ∧ state.votedNotar = none)
    (pending : ∀ block, state.pendingBlock = some block →
      (view.slots slot).pendingBlock = some block ∧ .newSkip slot index = vote) :
    Records index (view.set slot state) (votes ++ [vote]) := by
  obtain ⟨noNotar, noSkip⟩ := records.none_of_fresh low fresh
  refine ⟨?_, ?_, ?_, ?_, ?_, ?_, ?_⟩
  · intro other member
    obtain before | new := mem_append.mp member
    · exact records.signer other before
    · exact mem_singleton.mp new ▸ signer
  · intro cast member
    obtain before | new := mem_append.mp member
    · rw [VotorView.slots_set, if_neg (noNotar cast before)]
      exact records.notar cast before
    · obtain ⟨here, recorded⟩ := notar cast (mem_singleton.mp new)
      rw [here, VotorView.slots_set_self]
      exact .inr ⟨voted, recorded⟩
  · intro cast member
    obtain before | new := mem_append.mp member
    · rw [VotorView.slots_set, if_neg (noSkip cast before)]
      exact records.skip cast before
    · obtain ⟨here, recorded⟩ := skip cast (mem_singleton.mp new)
      rw [here, VotorView.slots_set_self]
      exact .inr ⟨voted, recorded⟩
  · intro other
    rw [VotorView.slots_set]
    split
    · intro unvoted
      cases voted.symm.trans unvoted
    · exact records.unvoted other
  · intro other block held
    rw [VotorView.slots_set] at held ⊢
    split at held
    · rename_i same
      obtain ⟨waiting, skipped⟩ := pending block held
      exact ⟨(records.pending slot block waiting).1.trans (le_of_eq same.symm), fun _ => by simp [same, skipped]⟩
    · rename_i different
      rw [if_neg different]
      obtain ⟨above, skipped⟩ := records.pending other block held
      exact ⟨above, fun voted => mem_append_left _ (skipped voted)⟩
  · intro cast skipped member member'
    obtain old | new := mem_append.mp member
    · obtain old' | new' := mem_append.mp member'
      · exact records.honest.notarSkip old old'
      · rw [(skip skipped (mem_singleton.mp new')).1]
        exact noNotar cast old
    · obtain old' | new' := mem_append.mp member'
      · rw [(notar cast (mem_singleton.mp new)).1]
        exact (noSkip skipped old').symm
      · cases (mem_singleton.mp new).trans (mem_singleton.mp new').symm
  · intro cast other member member' same
    obtain old | new := mem_append.mp member
    · obtain old' | new' := mem_append.mp member'
      · exact records.honest.notarOnce old old' same
      · exact absurd (same.trans (notar other (mem_singleton.mp new')).1) (noNotar cast old)
    · obtain old' | new' := mem_append.mp member'
      · exact absurd (same.symm.trans (notar cast (mem_singleton.mp new)).1) (noNotar other old')
      · cases (mem_singleton.mp new).trans (mem_singleton.mp new').symm
        rfl

theorem castNotar {hash : BlockHash} (low : view.first ≤ slot) (fresh : (view.slots slot).voted = false) :
    Records index (view.set slot { view.slots slot with voted := true, votedNotar := some hash, pendingBlock := none })
      (votes ++ [.newNotar slot hash index]) := by
  apply records.castAt low fresh rfl rfl
  · rintro cast ⟨⟩
    exact ⟨rfl, rfl⟩
  · rintro cast ⟨⟩
  · rintro block ⟨⟩

theorem castSkip (low : view.first ≤ slot) (fresh : (view.slots slot).voted = false) :
    Records index (view.set slot { view.slots slot with voted := true, badWindow := true })
      (votes ++ [.newSkip slot index]) := by
  apply records.castAt low fresh rfl rfl
  · rintro cast ⟨⟩
  · rintro cast ⟨⟩
    exact ⟨rfl, records.unvoted slot fresh⟩
  · exact fun block held => ⟨held, rfl⟩

theorem prune (above : view.first ≤ first) :
    Records index
      { first, slots := fun slot => if first ≤ slot then view.slots slot else .default } votes := by
  refine ⟨records.signer, ?_, ?_, ?_, ?_, records.honest⟩
  · intro vote member
    by_cases low : first ≤ vote.slot
    · right
      simp only [if_pos low]
      exact (records.notar vote member).resolve_left (by omega)
    · exact .inl (not_le.mp low)
  · intro vote member
    by_cases low : first ≤ vote.slot
    · right
      simp only [if_pos low]
      exact (records.skip vote member).resolve_left (by omega)
    · exact .inl (not_le.mp low)
  · intro slot
    dsimp only
    split
    · exact records.unvoted slot
    · exact fun _ => rfl
  · intro slot block held
    dsimp only at held ⊢
    split at held
    · next low => exact ⟨low, by rw [if_pos low]; exact (records.pending slot block held).2⟩
    · cases held

theorem hold {block : BlockId × BlockId} (low : view.first ≤ slot) (fresh : (view.slots slot).voted = false) :
    Records index (view.set slot { view.slots slot with pendingBlock := some block }) votes := by
  have same : ∀ other, ((view.set slot { view.slots slot with pendingBlock := some block }).slots other).voted =
      (view.slots other).voted ∧
      ((view.set slot { view.slots slot with pendingBlock := some block }).slots other).votedNotar =
        (view.slots other).votedNotar := by
    intro other
    rw [VotorView.slots_set]
    split
    · next here => exact here ▸ ⟨rfl, rfl⟩
    · exact ⟨rfl, rfl⟩
  refine ⟨records.signer, ?_, ?_, ?_, ?_, records.honest⟩
  · intro vote member
    rw [(same _).1, (same _).2]
    exact records.notar vote member
  · intro vote member
    rw [(same _).1, (same _).2]
    exact records.skip vote member
  · intro other
    rw [(same _).1, (same _).2]
    exact records.unvoted other
  · intro other waiting held
    rw [(same _).1]
    rw [VotorView.slots_set] at held
    split at held
    · rename_i here
      subst here
      exact ⟨low, fun voted => absurd voted (Bool.eq_false_iff.mp fresh)⟩
    · exact records.pending other waiting held

end

/-- A standstill only sends votes again. -/
def Repeats (input : VotorInput) (votes : List Vote) : Prop :=
  ∀ slot bundle, input = .pool (.standstill slot bundle) → ∀ vote, .vote vote ∈ bundle → vote ∈ votes

theorem act (records : Records index view votes) (repeats : Repeats input votes)
    (act : Act index input view cast view') : Records index view' (votes ++ cast) := by
  have fallback : ∀ (vote : Vote), vote.signer = index → (∀ notar, vote ≠ .notar notar) →
      (∀ skip, vote ≠ .skip skip) → ∀ other ∈ [vote], other ∈ votes ∨
        other.signer = index ∧ (∀ notar, other ≠ .notar notar) ∧ ∀ skip, other ≠ .skip skip := by
    intro vote mine notNotar notSkip other member
    rw [mem_singleton.mp member]
    exact .inr ⟨mine, notNotar, notSkip⟩
  cases act with
  | notar low fresh offered valid => exact records.castNotar low fresh
  | skip low fresh => exact records.castSkip low fresh
  | final low notarized voted good =>
    exact records.unrecordedAt rfl rfl rfl (fallback _ rfl (by simp [Vote.newFinal]) (by simp [Vote.newFinal]))
  | notarFallback asked low active =>
    exact records.unrecordedAt rfl rfl rfl
      (fallback _ rfl (by simp [Vote.newNotarFallback]) (by simp [Vote.newNotarFallback]))
  | skipFallback asked low active =>
    exact records.unrecordedAt rfl rfl rfl
      (fallback _ rfl (by simp [Vote.newSkipFallback]) (by simp [Vote.newSkipFallback]))
  | ready asked | notarized asked | received => exact records.unrecordedAt rfl rfl rfl (by simp)
  | pruned above =>
    rw [append_nil]
    exact records.prune above
  | pending low fresh asked =>
    rw [append_nil]
    exact records.hold low fresh
  | repeated asked member =>
    refine records.unrecorded rfl (fun _ => ⟨rfl, rfl, rfl⟩) ?_
    intro vote new
    rw [mem_singleton.mp new]
    exact .inl (repeats _ _ asked _ member)

theorem acts (records : Records index view votes) (repeats : Repeats input votes)
    (acts : Acts index input view cast view') : Records index view' (votes ++ cast) := by
  induction acts generalizing votes with
  | none =>
    rw [append_nil]
    exact records
  | next act _ ih =>
    rw [← append_assoc]
    refine ih (records.act repeats act) ?_
    intro slot bundle asked vote member
    exact mem_append_left _ (repeats slot bundle asked vote member)

end Records

namespace Votor

variable {votor : Votor}

theorem tryFinal_isOk (low : votor.firstUnprunedSlot ≤ slot) (hash : BlockHash) (out : VotorOut) :
    ∃ after out', votor.tryFinal slot hash out = .ok (after, out') ∧
      after.firstUnprunedSlot = votor.firstUnprunedSlot := by
  have tracked : assert (votor.firstUnprunedSlot ≤ slot) .assertion = .ok () :=
    assert_eq_ok.mpr (decide_eq_true low)
  by_cases final : (votor.slotState slot).blockNotarized = some hash ∧
      (votor.slotState slot).votedNotar = some hash ∧ (!(votor.slotState slot).badWindow) = true
  · exact ⟨_, _, bind_eq_ok.mpr ⟨(), tracked, if_pos final⟩, rfl⟩
  · exact ⟨_, _, bind_eq_ok.mpr ⟨(), tracked, if_neg final⟩, rfl⟩

theorem tryNotar_isOk (low : votor.firstUnprunedSlot ≤ slot) (block parent : BlockId) (out : VotorOut) :
    ∃ after out' done, votor.tryNotar slot block parent out = .ok (after, out', done) ∧
      after.firstUnprunedSlot = votor.firstUnprunedSlot := by
  have tracked : assert (votor.firstUnprunedSlot ≤ slot) .assertion = .ok () :=
    assert_eq_ok.mpr (decide_eq_true low)
  by_cases valid : votor.validParent slot parent = true
  · have still : (votor.withNotar slot block.hash).firstUnprunedSlot ≤ slot := low
    rcases tryFinal_isOk still block.hash (out.pushVote (.newNotar slot block.hash votor.validatorIndex)) with
      ⟨after, out', finalized, first⟩
    refine ⟨after, out', true, bind_eq_ok.mpr ⟨(), tracked, ?_⟩, first⟩
    rw [if_pos valid]
    exact bind_eq_ok.mpr ⟨_, finalized, rfl⟩
  · exact ⟨votor, out, false, bind_eq_ok.mpr ⟨(), tracked, if_neg valid⟩, rfl⟩

def retryOne (reached : Votor × VotorOut) (entry : Nat × BlockId × BlockId) : Except Panic (Votor × VotorOut) := do
  let (votor, out, _) ← reached.1.tryNotar entry.1 entry.2.1 entry.2.2 reached.2
  return (votor, out)

theorem retryAll_isOk {pending : List (Nat × BlockId × BlockId)}
    (low : ∀ entry ∈ pending, votor.firstUnprunedSlot ≤ entry.1) :
    ∃ reached, pending.foldlM retryOne (votor, out) = .ok reached := by
  induction pending generalizing votor out with
  | nil => exact ⟨(votor, out), rfl⟩
  | cons entry rest ih =>
    rcases tryNotar_isOk (low entry mem_cons_self) entry.2.1 entry.2.2 out with
      ⟨after, out', done, tried, still⟩
    rcases @ih after out' fun other member => by
      rw [still]
      exact low other (mem_cons_of_mem _ member) with ⟨reached, ran⟩
    refine ⟨reached, ?_⟩
    exact bind_eq_ok.mpr ⟨(after, out'), bind_eq_ok.mpr ⟨_, tried, rfl⟩, ran⟩

theorem checkPendingBlocks_isOk
    (tracked : ∀ slot block, (votor.slotState slot).pendingBlock = some block → votor.firstUnprunedSlot ≤ slot) :
    ∃ reached, votor.checkPendingBlocks out = .ok reached := by
  apply retryAll_isOk
  intro entry member
  exact tracked entry.1 entry.2 (mem_pendingBlocks.mp member)

end Votor

namespace VotorInput

variable {input : VotorInput}

def run (index : Nat) (inputs : List VotorInput) : Except Panic (Votor × List VotorOut) :=
  runSteps (fun votor input => input.apply votor) (initial index) inputs

/-- A retry of the pending blocks that notarizes a voted slot casts a notar
vote for a slot that was skipped. -/
theorem notar_after_skip {votor start after : Votor} {votes : List Vote} {out out' : VotorOut}
    (records : Records votor.validatorIndex votor.view votes) (same : start.validatorIndex = votor.validatorIndex)
    (held : ∀ slot block, (start.slotState slot).pendingBlock = some block →
      (votor.slotState slot).pendingBlock = some block ∧
        ((start.slotState slot).voted = true → (votor.slotState slot).voted = true))
    (renotarizes : start.Renotarizes) (ran : start.checkPendingBlocks out = .ok (after, out')) :
    ∃ slot hash, .newSkip slot votor.validatorIndex ∈ votes ∧
      .newNotar slot hash votor.validatorIndex ∈ out'.votes := by
  obtain ⟨slot, block, parent, pending, voted, retries⟩ := renotarizes
  obtain ⟨waiting, before⟩ := held slot _ pending
  refine ⟨slot, block.hash, (records.pending slot _ waiting).2 (before voted), ?_⟩
  rw [← same]
  exact (@checkPendingBlocks_spec (.timeout (.timeout 0)) _ _ _ _ ran).2.2 slot block parent pending retries

theorem Renotarizes.equivocates {votes : List Vote}
    (records : Records votor.validatorIndex votor.view votes) (renotarizes : input.Renotarizes votor) :
    ∃ after out, input.apply votor = .ok (after, out) ∧ ∃ slot hash,
      .newSkip slot votor.validatorIndex ∈ votes ∧ .newNotar slot hash votor.validatorIndex ∈ out.votes := by
  have tracked : ∀ slot block, (votor.slotState slot).pendingBlock = some block →
      votor.firstUnprunedSlot ≤ slot := fun slot block held => (records.pending slot block held).1
  cases input with
  | timeout event => exact renotarizes.elim
  | pool event =>
    cases event with
    | parentReady slot parent =>
      obtain ⟨start, bounded, active, renotarizes⟩ := renotarizes
      have held : ∀ other block, ((votor.withParent slot parent).slotState other).pendingBlock = some block →
          (votor.slotState other).pendingBlock = some block ∧
            (((votor.withParent slot parent).slotState other).voted = true → (votor.slotState other).voted = true) := by
        intro other block pending
        rw [withParent] at pending ⊢
        split at pending
        · next known => exact ⟨pending, by rw [if_pos known]; exact id⟩
        rename_i unknown
        rw [if_neg unknown]
        rw [slotState_setState] at pending ⊢
        split at pending
        · rename_i here
          subst here
          rw [if_pos rfl]
          exact ⟨pending, id⟩
        · rename_i there
          rw [if_neg there]
          exact ⟨pending, id⟩
      have same : (votor.withParent slot parent).validatorIndex = votor.validatorIndex := by
        rw [withParent]
        split <;> rfl
      have first : (votor.withParent slot parent).firstUnprunedSlot = votor.firstUnprunedSlot := by
        rw [withParent]
        split <;> rfl
      rcases @checkPendingBlocks_isOk (votor.withParent slot parent) .empty
        (fun other block pending => first ▸ tracked other block (held other block pending).1) with
        ⟨⟨after, out⟩, checked⟩
      obtain ⟨out', timeouts⟩ := (@setTimeouts_isOk_iff out slot).mpr ⟨start, bounded⟩
      refine ⟨after, out', ?_, ?_⟩
      · rw [apply, handlePoolEvent, if_neg (Bool.eq_false_iff.mp active)]
        exact bind_eq_ok.mpr ⟨_, checked, bind_eq_ok.mpr ⟨_, timeouts, rfl⟩⟩
      · rw [setTimeouts_votes timeouts]
        exact notar_after_skip records same held renotarizes checked
    | _ => exact renotarizes.elim
  | blockstore event =>
    cases event with
    | block slot block parent =>
      obtain ⟨active, fresh, valid, renotarizes⟩ := renotarizes
      rcases tryNotar_isOk (low_of_not_settled active) block parent .empty with
        ⟨middle, out, done, tried, first⟩
      obtain ⟨_, ⟨_, rfl, finalized⟩ | ⟨invalid, _⟩⟩ := tryNotar_cases tried
      · obtain ⟨same, ⟨retired, states⟩, _⟩ := tryFinal_effect finalized
        have held : ∀ other block', (middle.slotState other).pendingBlock = some block' →
            (votor.slotState other).pendingBlock = some block' ∧
              ((middle.slotState other).voted = true → (votor.slotState other).voted = true) := by
          intro other block' pending
          rw [states] at pending ⊢
          split at pending
          · simp [withNotar] at pending
          · rename_i there
            rw [if_neg there]
            rw [withNotar, slotState_setState, if_neg there] at pending ⊢
            exact ⟨pending, id⟩
        rcases @checkPendingBlocks_isOk middle out
          (fun other block' pending => first ▸ tracked other block' (held other block' pending).1) with
          ⟨⟨after, out'⟩, checked⟩
        refine ⟨after, out', ?_, ?_⟩
        · rw [apply, handleBlockstoreEvent]
          simp only [VotorBlockstoreEvent.slot, active, fresh, Bool.false_eq_true, if_false]
          exact bind_eq_ok.mpr ⟨_, tried, checked⟩
        · exact notar_after_skip records same held
            ((renotarizes_tryFinal finalized).mpr renotarizes) checked
      · rw [valid] at invalid
        cases invalid
    | _ => exact renotarizes.elim

def Honest (index : Nat) (inputs : List VotorInput) : Prop :=
  ∀ votor outs, run index inputs = .ok (votor, outs) →
    NoEquivocation (castVotes outs) ∧ Unslashable index (castVotes outs)

/-- Votor does not equivocate exactly as long as no input makes it retry a
pending block of a slot that it has voted on. -/
theorem honest_iff_no_renotarization (index : Nat) (inputs : List VotorInput)
    (repeats : ∀ earlier input, earlier ++ [input] <+: inputs → ∀ votor outs,
      run index earlier = .ok (votor, outs) → Records.Repeats input (castVotes outs)) :
    (∀ taken, taken <+: inputs → Honest index taken) ↔ ∀ earlier input, earlier ++ [input] <+: inputs → ∀ votor outs,
        run index earlier = .ok (votor, outs) → ¬ input.Renotarizes votor := by
  apply @good_iff_allowed _ inputs fun taken => ∀ votor outs, run index taken = .ok (votor, outs) →
    votor.validatorIndex = index ∧ Records index votor.view (castVotes outs)
  · intro votor outs ran
    cases ran
    exact ⟨rfl, .initial index⟩
  · intro earlier input inside records allowed votor outs ran
    obtain ⟨before, sent, out, ranBefore, stepped, rfl⟩ := runSteps_append_eq_ok.mp ran
    obtain ⟨mine, records⟩ := records before sent ranBefore
    obtain ⟨same, votes, acts, cast⟩ := apply_moves stepped (allowed before sent ranBefore)
    rw [mine] at acts
    refine ⟨same.trans mine, ?_⟩
    rw [castVotes_append, cast]
    exact records.acts (repeats earlier input inside before sent ranBefore) acts
  · intro taken _ records votor outs ran
    obtain ⟨_, records⟩ := records votor outs ran
    exact ⟨records.honest, records.honest.unslashable records.signer⟩
  · intro earlier input _ records honest votor outs ran renotarizes
    obtain ⟨rfl, records⟩ := records votor outs ran
    obtain ⟨after, out, stepped, slot, hash, skipped, notarized⟩ := renotarizes.equivocates records
    have cast := (honest after _ (runSteps_append_eq_ok.mpr ⟨votor, outs, out, ran, stepped, rfl⟩)).1
    rw [castVotes_append] at cast
    exact cast.notarSkip (mem_append_right _ notarized) (mem_append_left _ skipped) rfl

/-- A block that waits for its parent, the timeout of its slot, and the parent. -/
def lateParent : List VotorInput :=
  [.blockstore (.block 4 ⟨4, 1⟩ (.genesis 0)), .timeout (.timeout 4), .pool (.parentReady 4 (.genesis 0))]

/-- The block is notarized although its slot was skipped. -/
theorem lateParent_not_honest : (run 0 lateParent).map (fun reached => castVotes reached.2) =
        .ok [.newSkip 4 0, .newSkip 5 0, .newSkip 6 0, .newSkip 7 0, .newNotar 4 1 0] ∧ ¬ Honest 0 lateParent := by
  have votes : (run 0 lateParent).map (fun reached => castVotes reached.2) =
      .ok [.newSkip 4 0, .newSkip 5 0, .newSkip 6 0, .newSkip 7 0, .newNotar 4 1 0] := by
    decide +kernel
  refine ⟨votes, fun honest => ?_⟩
  obtain ⟨reached, ran, list⟩ := map_eq_ok.mp votes
  have cast := (honest _ _ ran).1
  rw [list] at cast
  exact cast.notarSkip (by decide : Vote.newNotar 4 1 0 ∈ _) (by decide : Vote.newSkip 4 0 ∈ _) rfl

def parentInTime : List VotorInput :=
  [.pool (.parentReady 4 (.genesis 0)), .blockstore (.block 4 ⟨4, 1⟩ (.genesis 0)), .timeout (.timeout 4)]

theorem parentInTime_honest : (∀ taken, taken <+: parentInTime → Honest 0 taken) ↔
      ∀ earlier input, earlier ++ [input] <+: parentInTime → ∀ votor outs,
        run 0 earlier = .ok (votor, outs) → ¬ input.Renotarizes votor := by
  apply honest_iff_no_renotarization 0 parentInTime
  intro earlier input inside votor outs ran slot bundle asked
  have member := inside.subset (mem_append_right _ mem_cons_self)
  rw [asked] at member
  simp [parentInTime] at member

end VotorInput

end Karstflow.Alpenglow
