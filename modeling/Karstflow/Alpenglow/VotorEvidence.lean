import Karstflow.Alpenglow.Equivocation
import Karstflow.Alpenglow.PoolEvidence

namespace Karstflow.Alpenglow

open Data Protocol List

/-! # Votor follows the protocol

Handed the reports of its own pool, a Votor casts only votes that the protocol
allows after the votes that are already cast.
-/

def ownVotes (index : Nat) (log : List Vote) : List Vote := log.filter (·.signer = index)

theorem ownVotes_append (log votes : List Vote) :
    ownVotes index (log ++ votes) = ownVotes index log ++ ownVotes index votes :=
  filter_append _ _

theorem mem_ownVotes {log : List Vote} : vote ∈ ownVotes index log ↔ vote ∈ log ∧ vote.signer = index := by
  simp [ownVotes]

variable {deployment : Deployment} {index slot : Nat} {log votes : List Vote} {input : VotorInput}

/-- The input is a true report of the pool, or a block with its parent. -/
def VotorInput.Evident (deployment : Deployment) (log : List Vote) : VotorInput → Prop
  | pool event => event.Evident deployment log
  | blockstore (.block slot block parent) => deployment.parentOf ⟨slot, block.hash⟩ = parent
  | _ => True

theorem VotorInput.Evident.grow (evident : input.Evident deployment log) (votes : List Vote) :
    input.Evident deployment (log ++ votes) := by
  cases input with
  | pool event => exact VotorPoolEvent.Evident.mono evident (subset_append_left _ _)
  | timeout event => trivial
  | blockstore event => cases event <;> exact evident

/-- What the state of a slot says about the votes cast. Below `first` nothing
is recorded. -/
structure VotorSlotState.Evident (deployment : Deployment) (index : Nat) (log : List Vote) (first slot : Nat)
    (state : VotorSlotState) : Prop where
  ready : ∀ parent ∈ state.parentsReady,
    slot = 0 ∨ Ready deployment.committee deployment.parentOf log slot parent
  notar : ∀ hash, state.votedNotar = some hash →
    (⟨slot, hash⟩ : BlockId) = .genesis 0 ∨ .newNotar slot hash index ∈ log
  notarized : ∀ hash, state.blockNotarized = some hash →
    (⟨slot, hash⟩ : BlockId) = .genesis 0 ∨ Notarized deployment.committee log ⟨slot, hash⟩
  pending : ∀ block parent, state.pendingBlock = some (block, parent) →
    deployment.parentOf ⟨slot, block.hash⟩ = parent
  bad : first ≤ slot → Dissents log slot index → state.badWindow = true
  retired : first ≤ slot → .newFinal slot index ∈ log → state.retired = true

structure VotorView.Evident (deployment : Deployment) (index : Nat) (log : List Vote) (view : VotorView) : Prop where
  records : Records index view (ownVotes index log)
  genesis : view.first = 0 → (view.slots 0).voted = true
  slots : ∀ slot, (view.slots slot).Evident deployment index log view.first slot

namespace VotorSlotState.Evident

variable {state : VotorSlotState}

theorem grow (evident : state.Evident deployment index log first slot)
    (others : ∀ vote ∈ votes, vote.signer = index → vote.slot ≠ slot) :
    state.Evident deployment index (log ++ votes) first slot := by
  have grows : log ⊆ log ++ votes := subset_append_left _ _
  have old : ∀ vote : Vote, vote.slot = slot → vote.signer = index → vote ∈ log ++ votes → vote ∈ log := by
    intro vote here own member
    obtain before | new := mem_append.mp member
    · exact before
    · exact absurd here (others vote new own)
  refine ⟨?_, ?_, ?_, evident.pending, ?_, ?_⟩
  · exact fun parent member => (evident.ready parent member).imp_right (.mono grows)
  · exact fun hash voted => (evident.notar hash voted).imp_right (@grows _)
  · exact fun hash seen => (evident.notarized hash seen).imp_right (.mono grows)
  · intro low dissents
    apply evident.bad low
    obtain skip | skipFallback | ⟨hash, fallback⟩ := dissents
    · exact .inl (old _ rfl rfl skip)
    · exact .inr (.inl (old _ rfl rfl skipFallback))
    · exact .inr (.inr ⟨hash, old _ rfl rfl fallback⟩)
  · exact fun low final => evident.retired low (old _ rfl rfl final)

theorem flag (evident : state.Evident deployment index log first slot) (vote : Vote) {voted bad retired : Bool}
    (dissent : first ≤ slot → Dissents (log ++ [vote]) slot index → bad = true)
    (final : first ≤ slot → .newFinal slot index ∈ log ++ [vote] → retired = true) :
    ({ state with voted := voted, badWindow := bad, retired := retired } : VotorSlotState).Evident deployment index
      (log ++ [vote]) first slot where
  ready parent member := (evident.ready parent member).imp_right (.mono (subset_append_left _ _))
  notar hash voted := (evident.notar hash voted).imp_right (mem_append_left _)
  notarized hash seen := (evident.notarized hash seen).imp_right (.mono (subset_append_left _ _))
  pending := evident.pending
  bad := dissent
  retired := final

theorem blank (unseen : first ≤ slot → log = []) :
    VotorSlotState.default.Evident deployment index log first slot where
  ready _ member := absurd member not_mem_nil
  notar _ voted := by cases voted
  notarized _ seen := by cases seen
  pending _ _ waiting := by cases waiting
  bad low dissents := by simp [unseen low, Dissents] at dissents
  retired low final := by simp [unseen low] at final

theorem raise (evident : state.Evident deployment index log first slot) (above : first ≤ later) :
    state.Evident deployment index log later slot :=
  { evident with
    bad := fun low => evident.bad (le_trans above low)
    retired := fun low => evident.retired (le_trans above low) }

end VotorSlotState.Evident

/-- A log stays lawful with a vote that is justified, no equivocation, and not
both final and against the block. -/
theorem Protocol.Lawful.snoc
    (lawful : Lawful committee parentOf log) (justified : Justified committee parentOf log vote)
    (honest : NoEquivocation (ownVotes vote.signer (log ++ [vote])))
    (alone : ∀ slot, .newFinal slot vote.signer ∈ log ++ [vote] → ¬ Dissents (log ++ [vote]) slot vote.signer) :
    Lawful committee parentOf (log ++ [vote]) := by
  have old : ∀ {id : Nat} {other : Vote}, id ≠ vote.signer → other.signer = id → other ∈ log ++ [vote] →
      other ∈ log := by
    intro id other different own member
    obtain before | new := mem_append.mp member
    · exact before
    · rw [mem_singleton.mp new] at own
      exact absurd own.symm different
  refine ⟨?_, ?_, ?_, ?_⟩
  · intro earlier other later split correct
    obtain rfl | ⟨rest, last, rfl⟩ := eq_nil_or_concat later
    · obtain ⟨rfl, same⟩ := append_inj' split rfl
      cases same
      exact justified
    · rw [concat_eq_append, ← cons_append, ← append_assoc] at split
      obtain ⟨whole, _⟩ := append_inj' split rfl
      exact lawful.justified earlier other rest whole correct
  · intro id slot hash hash' correct cast cast'
    by_cases own : id = vote.signer
    · subst own
      exact honest.notarOnce (mem_ownVotes.mpr ⟨cast, rfl⟩) (mem_ownVotes.mpr ⟨cast', rfl⟩) rfl
    · exact lawful.notarOnce correct (old own rfl cast) (old own rfl cast')
  · intro id slot hash correct cast skipped
    by_cases own : id = vote.signer
    · subst own
      exact honest.notarSkip (mem_ownVotes.mpr ⟨cast, rfl⟩) (mem_ownVotes.mpr ⟨skipped, rfl⟩) rfl
    · exact lawful.notarOrSkip correct (old own rfl cast) (old own rfl skipped)
  · intro id slot correct final dissents
    by_cases own : id = vote.signer
    · subst own
      exact alone slot final dissents
    apply lawful.finalAlone correct (old own rfl final)
    obtain skip | skipFallback | ⟨hash, fallback⟩ := dissents
    · exact .inl (old own rfl skip)
    · exact .inr (.inl (old own rfl skipFallback))
    · exact .inr (.inr ⟨hash, old own rfl fallback⟩)

namespace VotorView

variable {view : VotorView}

section

variable (evident : view.Evident deployment index log)

include evident

theorem Evident.set (records : Records index (view.set slot state) (ownVotes index (log ++ votes)))
    (own : ∀ vote ∈ votes, vote.slot = slot) (voted : (view.slots slot).voted = true → state.voted = true)
    (here : state.Evident deployment index (log ++ votes) view.first slot) :
    (view.set slot state).Evident deployment index (log ++ votes) := by
  refine ⟨records, ?_, ?_⟩
  · intro first
    rw [slots_set]
    split
    · next same => exact voted (same ▸ evident.genesis first)
    · exact evident.genesis first
  · intro other
    rw [slots_set]
    split
    · next same => exact same ▸ here
    · rename_i different
      refine (evident.slots other).grow fun vote member _ => ?_
      rw [own vote member]
      exact fun same => different same.symm

theorem Evident.note (records : Records index (view.set slot state) (ownVotes index log))
    (voted : (view.slots slot).voted = true → state.voted = true)
    (here : state.Evident deployment index log view.first slot) :
    (view.set slot state).Evident deployment index log := by
  have set := @Evident.set deployment index slot log [] view evident state
  rw [append_nil] at set
  exact set records (fun vote member => absurd member not_mem_nil) voted here

theorem Evident.slot_pos (low : view.first ≤ slot) (fresh : (view.slots slot).voted = false) : 0 < slot := by
  apply pos_of_ne_zero
  rintro rfl
  have voted := evident.genesis (Nat.le_zero.mp low)
  rw [fresh] at voted
  cases voted

theorem Evident.notar_justified {hash : BlockHash} {parent : BlockId}
    (low : view.first ≤ slot) (fresh : (view.slots slot).voted = false)
    (content : deployment.parentOf ⟨slot, hash⟩ = parent) (valid : view.ValidParent slot parent) :
    Justified deployment.committee deployment.parentOf log (.newNotar slot hash index) := by
  have positive := evident.slot_pos low fresh
  refine ⟨positive, ?_⟩
  simp only
  rw [content]
  rw [ValidParent] at valid
  by_cases start : isStartOfWindow slot = true
  · have window : slot = firstSlotInWindow slot := by
      rw [isStartOfWindow_iff] at start
      simp only [firstSlotInWindow, slotsPerWindow]
      omega
    rw [if_pos window] at valid
    rw [if_pos start]
    exact ((evident.slots slot).ready parent valid).resolve_left (ne_of_gt positive)
  · have inside : slot ≠ firstSlotInWindow slot := by
      intro window
      rw [window] at start
      exact start (isStartOfWindow_first slot)
    rw [if_neg inside] at valid
    rw [if_neg start]
    refine ⟨by omega, ?_⟩
    exact (evident.slots parent.slot).notar parent.hash valid.2

theorem Evident.not_final_of_fresh
    (lawful : Lawful deployment.committee deployment.parentOf log) (correct : deployment.correct index)
    (low : view.first ≤ slot) (fresh : (view.slots slot).voted = false) : .newFinal slot index ∉ log := by
  intro final
  have positive := evident.slot_pos low fresh
  obtain ⟨earlier, part, first | ⟨hash, notar, _⟩⟩ := lawful.of_mem final correct
  · exact absurd first (ne_of_gt positive)
  · exact (evident.records.none_of_fresh low fresh).1 _ (mem_ownVotes.mpr ⟨part notar, rfl⟩) rfl

theorem Evident.not_final_of_active (low : view.first ≤ slot)
    (active : (view.slots slot).retired = false) : .newFinal slot index ∉ log := by
  intro final
  have retired := (evident.slots slot).retired low final
  rw [active] at retired
  cases retired

end

end VotorView

namespace VotorView

variable {view after : VotorView}

/-- A vote that is not final, by a validator that has cast no final vote for
the slot unless the vote is a notar vote. -/
theorem not_final_alone {vote : Vote} (lawful : Lawful deployment.committee deployment.parentOf log)
    (correct : deployment.correct vote.signer) (notFinal : ∀ slot, vote ≠ .newFinal slot vote.signer)
    (compatible : (∃ hash, vote = .newNotar vote.slot hash vote.signer) ∨ .newFinal vote.slot vote.signer ∉ log) :
    ∀ slot, .newFinal slot vote.signer ∈ log ++ [vote] → ¬ Dissents (log ++ [vote]) slot vote.signer := by
  intro slot final dissents
  have final : .newFinal slot vote.signer ∈ log := by
    obtain before | new := mem_append.mp final
    · exact before
    · exact absurd (mem_singleton.mp new).symm (notFinal slot)
  have old : ∀ other : Vote, other.slot = slot → other ∈ log ++ [vote] →
      (∀ hash, other ≠ .newNotar other.slot hash other.signer) → other ∈ log := by
    intro other here member notNotar
    obtain before | new := mem_append.mp member
    · exact before
    have same := mem_singleton.mp new
    subst same
    obtain ⟨hash, notar⟩ | none := compatible
    · exact absurd notar (notNotar hash)
    · rw [here] at none
      exact absurd final none
  apply lawful.finalAlone correct final
  obtain skip | skipFallback | ⟨hash, fallback⟩ := dissents
  · exact .inl (old _ rfl skip fun hash => by simp [Vote.newSkip, Vote.newNotar])
  · exact .inr (.inl (old _ rfl skipFallback fun hash => by simp [Vote.newSkipFallback, Vote.newNotar]))
  · exact .inr (.inr ⟨hash, old _ rfl fallback fun hash => by simp [Vote.newNotarFallback, Vote.newNotar]⟩)

section

variable (evident : view.Evident deployment index log)
  (lawful : Lawful deployment.committee deployment.parentOf log) (correct : deployment.correct index)

include evident lawful correct

theorem Evident.castNotar {block parent : BlockId} (low : view.first ≤ slot) (fresh : (view.slots slot).voted = false)
    (content : deployment.parentOf ⟨slot, block.hash⟩ = parent) (valid : view.ValidParent slot parent)
    (records : Records index
      (view.set slot { view.slots slot with voted := true, votedNotar := some block.hash, pendingBlock := none })
      (ownVotes index (log ++ [.newNotar slot block.hash index]))) :
    (view.set slot { view.slots slot with voted := true, votedNotar := some block.hash, pendingBlock := none }).Evident
        deployment index (log ++ [.newNotar slot block.hash index]) ∧
      Lawful deployment.committee deployment.parentOf (log ++ [.newNotar slot block.hash index]) := by
  have grows {vote : Vote} : log ⊆ log ++ [vote] := subset_append_left _ _
  have before := evident.slots slot
  refine ⟨evident.set records (by simp [Vote.newNotar, Vote.slot]) (fun _ => rfl) ?_, ?_⟩
  · refine ⟨?_, ?_, ?_, fun _ _ waiting => (by cases waiting), ?_, ?_⟩
    · exact fun parent member => (before.ready parent member).imp_right (.mono grows)
    · intro hash voted
      cases voted
      exact .inr (mem_append_right _ mem_cons_self)
    · exact fun hash seen => (before.notarized hash seen).imp_right (.mono grows)
    · intro low dissents
      apply before.bad low
      simpa [Dissents, Vote.newSkip, Vote.newSkipFallback, Vote.newNotarFallback, Vote.newNotar] using dissents
    · intro low final
      apply before.retired low
      simpa [Vote.newFinal, Vote.newNotar] using final
  · refine lawful.snoc (evident.notar_justified low fresh content valid) records.honest ?_
    exact not_final_alone lawful correct (by simp [Vote.newNotar, Vote.newFinal]) (.inl ⟨_, rfl⟩)

theorem Evident.castFinal {hash : BlockHash} (low : view.first ≤ slot)
    (notarized : (view.slots slot).blockNotarized = some hash) (voted : (view.slots slot).votedNotar = some hash)
    (good : (view.slots slot).badWindow = false)
    (records : Records index (view.set slot { view.slots slot with retired := true })
      (ownVotes index (log ++ [.newFinal slot index]))) :
    (view.set slot { view.slots slot with retired := true }).Evident deployment index
        (log ++ [.newFinal slot index]) ∧
      Lawful deployment.committee deployment.parentOf (log ++ [.newFinal slot index]) := by
  have before := evident.slots slot
  have united : ¬ Dissents log slot index := by
    intro dissents
    have bad := before.bad low dissents
    rw [good] at bad
    cases bad
  have same : ∀ other, Dissents (log ++ [.newFinal slot index]) other index → Dissents log other index := by
    intro other dissents
    simpa [Dissents, Vote.newSkip, Vote.newSkipFallback, Vote.newNotarFallback, Vote.newFinal] using dissents
  refine ⟨evident.set records (by simp [Vote.newFinal, Vote.slot]) id
    (before.flag _ (fun low dissents => before.bad low (same slot dissents)) fun _ _ => rfl), ?_⟩
  refine lawful.snoc ?_ records.honest ?_
  · obtain genesis | cast := before.notar hash voted
    · exact .inl (congrArg BlockId.slot genesis)
    · obtain genesis | seen := before.notarized hash notarized
      · exact .inl (congrArg BlockId.slot genesis)
      · exact .inr ⟨hash, cast, seen⟩
  · intro other final dissents
    obtain old | new := mem_append.mp final
    · exact lawful.finalAlone correct old (same other dissents)
    · cases mem_singleton.mp new
      exact united (same slot dissents)

/-- A skip or fallback vote marks the window, and no final vote has been cast. -/
theorem Evident.castDissent {voted : Bool} (own : vote.signer = index)
    (keeps : (view.slots vote.slot).voted = true → voted = true) (notFinal : ∀ slot, vote ≠ .newFinal slot index)
    (unfinished : .newFinal vote.slot index ∉ log)
    (justified : Justified deployment.committee deployment.parentOf log vote)
    (records : Records index (view.set vote.slot { view.slots vote.slot with voted := voted, badWindow := true })
      (ownVotes index (log ++ [vote]))) :
    (view.set vote.slot { view.slots vote.slot with voted := voted, badWindow := true }).Evident deployment index
        (log ++ [vote]) ∧
      Lawful deployment.committee deployment.parentOf (log ++ [vote]) := by
  subst own
  have before := evident.slots vote.slot
  refine ⟨evident.set records (by simp) keeps (before.flag _ (fun _ _ => rfl) ?_), ?_⟩
  · intro low final
    obtain old | new := mem_append.mp final
    · exact before.retired low old
    · exact absurd (mem_singleton.mp new).symm (notFinal vote.slot)
  · exact lawful.snoc justified records.honest (not_final_alone lawful correct notFinal (.inr unfinished))

variable (asked : input.Evident deployment log)

include asked

theorem Evident.act (act : Act index input view votes after) : after.Evident deployment index (log ++ votes) ∧
      Lawful deployment.committee deployment.parentOf (log ++ votes) := by
  have repeats : Records.Repeats input (ownVotes index log) := by
    rintro slot bundle rfl vote member
    have none : bundle = [] := asked
    rw [none] at member
    cases member
  have recorded := evident.records.act repeats act
  have one : ∀ vote : Vote, vote.signer = index →
      Records index after (ownVotes index log ++ [vote]) → Records index after (ownVotes index (log ++ [vote])) := by
    intro vote own records
    have alone : ownVotes index [vote] = [vote] := by simp [ownVotes, own]
    rw [ownVotes_append, alone]
    exact records
  cases act with
  | @notar slot block parent low fresh offered valid =>
      refine evident.castNotar lawful correct low fresh ?_ valid (one _ rfl recorded)
      obtain waiting | rfl := offered
      · exact (evident.slots slot).pending block parent waiting
      · exact asked
  | @final slot hash low notarized voted good =>
      exact evident.castFinal lawful correct low notarized voted good (one _ rfl recorded)
  | @skip slot low fresh =>
      exact evident.castDissent lawful correct rfl (fun _ => rfl) (by simp [Vote.newSkip, Vote.newFinal])
        (evident.not_final_of_fresh lawful correct low fresh) trivial (one _ rfl recorded)
  | @notarFallback block ordered low active =>
      subst ordered
      exact evident.castDissent lawful correct rfl id (by simp [Vote.newNotarFallback, Vote.newFinal])
        (evident.not_final_of_active low active) asked (one _ rfl recorded)
  | @skipFallback slot ordered low active =>
      subst ordered
      exact evident.castDissent lawful correct rfl id (by simp [Vote.newSkipFallback, Vote.newFinal])
        (evident.not_final_of_active low active) asked (one _ rfl recorded)
  | @ready slot parent ordered =>
      rw [append_nil] at recorded ⊢
      have before := evident.slots slot
      subst ordered
      refine ⟨evident.note recorded id { before with ready := ?_ }, lawful⟩
      intro other member
      obtain old | new := mem_append.mp member
      · exact before.ready other old
      · rw [mem_singleton.mp new]
        exact .inr asked
  | @notarized cert ordered =>
      rw [append_nil] at recorded ⊢
      have before := evident.slots cert.slot
      subst ordered
      refine ⟨evident.note recorded id { before with notarized := ?_ }, lawful⟩
      intro hash seen
      cases seen
      exact .inr asked
  | @pruned first above =>
      rw [append_nil] at recorded ⊢
      refine ⟨⟨recorded, ?_, ?_⟩, lawful⟩
      · intro zero
        subst zero
        exact evident.genesis (Nat.le_zero.mp above)
      · intro slot
        dsimp only
        split
        · exact (evident.slots slot).raise above
        · next below => exact .blank fun low => absurd low below
  | @received slot =>
      rw [append_nil] at recorded ⊢
      have before := evident.slots slot
      exact ⟨evident.note recorded id { before with }, lawful⟩
  | @pending slot block parent low fresh ordered =>
      rw [append_nil] at recorded ⊢
      have before := evident.slots slot
      subst ordered
      refine ⟨evident.note recorded id { before with pending := ?_ }, lawful⟩
      intro waiting above held
      cases held
      exact asked
  | @repeated slot bundle vote ordered member =>
      subst ordered
      have none : bundle = [] := asked
      rw [none] at member
      cases member

theorem Evident.acts (acts : Acts index input view votes after) : after.Evident deployment index (log ++ votes) ∧
      Lawful deployment.committee deployment.parentOf (log ++ votes) := by
  induction acts generalizing log with
  | none =>
      rw [append_nil]
      exact ⟨evident, lawful⟩
  | next act _ ih =>
      obtain ⟨evident, lawful⟩ := evident.act lawful correct asked act
      rw [← append_assoc]
      exact ih evident lawful (asked.grow _)

end

theorem signer_of_acts (asked : input.Evident deployment log) (acts : Acts index input view votes after) :
    ∀ vote ∈ votes, vote.signer = index := by
  induction acts with
  | none => exact fun vote member => absurd member not_mem_nil
  | next act _ ih =>
      intro vote member
      obtain now | later := mem_append.mp member
      · cases act with
        | repeated ordered listed =>
            subst ordered
            cases (show _ = [] from asked)
            cases listed
        | notar | final | skip | notarFallback | skipFallback =>
            rw [mem_singleton.mp now]
            rfl
        | ready | notarized | pruned | received | pending => cases now
      · exact ih vote later

theorem Evident.others (evident : view.Evident deployment index log)
    (others : ∀ vote ∈ votes, vote.signer ≠ index) : view.Evident deployment index (log ++ votes) := by
  have none : ownVotes index votes = [] :=
    filter_eq_nil_iff.mpr fun vote member => by simpa using others vote member
  refine ⟨?_, evident.genesis, fun slot => (evident.slots slot).grow ?_⟩
  · rw [ownVotes_append, none, append_nil]
    exact evident.records
  · exact fun vote member own => absurd own (others vote member)

theorem Evident.initial (index : Nat) : (Votor.initial index).view.Evident deployment index [] := by
  refine ⟨.initial index, ?_, ?_⟩
  · intro _
    rw [Votor.initial_slots, if_pos rfl]
  · intro slot
    rw [Votor.initial_slots]
    split
    · rename_i zero
      subst zero
      refine ⟨fun _ _ => .inl rfl, ?_, ?_, fun _ _ waiting => (by cases waiting), ?_, fun _ _ => rfl⟩
      · intro hash voted
        cases voted
        exact .inl rfl
      · intro hash seen
        cases seen
        exact .inl rfl
      · intro _ dissents
        simp [Dissents] at dissents
    · exact .blank fun _ => rfl

end VotorView

end Karstflow.Alpenglow
