import Karstflow.Alpenglow.Network

namespace Karstflow.Alpenglow

open Data Protocol

/-! The blocks that correct validators finalize are one chain, and their pools
report nothing that leads off it. -/

namespace Protocol.Lawful

variable (lawful : Lawful committee parentOf log)

include lawful

theorem settled_descends (first : Settled committee parentOf log block)
    (second : Settled committee parentOf log other) (above : block.slot ≤ other.slot) :
    Descends parentOf other block := by
  obtain ⟨final, finalized, line⟩ := first
  obtain ⟨final', finalized', line'⟩ := second
  obtain before | before := le_total final.slot final'.slot
  · exact ((lawful.finalized_descends finalized finalized' before).trans line).linear line' above
  · exact line.linear ((lawful.finalized_descends finalized' finalized before).trans line') above

theorem ready_descends (finalized : Finalized committee log block)
    (ready : Ready committee parentOf log slot parent) (before : block.slot < slot) :
    Descends parentOf parent block := by
  have settled : Settled committee parentOf log block := ⟨block, finalized, .refl⟩
  obtain ⟨_, usable, bypassed⟩ := ready
  obtain left | above := lt_or_ge parent.slot block.slot
  · -- a parent that leaves the block out needs its slot bypassed
    obtain skipped | passed := bypassed block.slot left before
    · exact absurd skipped (lawful.not_skipped finalized (Nat.zero_lt_of_lt left))
    · exact absurd passed (lawful.settled_not_passedOver settled)
  · obtain certified | onChain := usable
    · exact lawful.certified_descends finalized certified above
    · exact lawful.settled_descends settled onChain above

end Protocol.Lawful

/-- The event is compatible with the block being final. -/
def VotorPoolEvent.Respects (parentOf : BlockId → BlockId) (block : BlockId) : VotorPoolEvent → Prop
  | .parentReady slot parent => block.slot < slot → Descends parentOf parent block
  | .certCreated (.skip cert) => cert.slot = block.slot → block.slot = 0
  | .certCreated (.notar cert) => cert.slot = block.slot → cert.blockHash = block.hash
  | .certCreated (.notarFallback cert) => cert.slot = block.slot → cert.blockHash = block.hash
  | .certCreated (.fastFinal cert) => cert.slot = block.slot → cert.blockHash = block.hash
  | _ => True

theorem VotorPoolEvent.Evident.respects {event : VotorPoolEvent} (evident : event.Evident deployment log)
    (lawful : Lawful deployment.committee deployment.parentOf log)
    (finalized : Finalized deployment.committee log block) : event.Respects deployment.parentOf block := by
  have unique : ∀ {slot hash}, FallbackCertified deployment.committee log ⟨slot, hash⟩ → slot = block.slot →
      hash = block.hash := by
    intro slot hash certified same
    subst same
    exact lawful.certified_unique finalized certified
  cases event with
  | parentReady slot parent => exact lawful.ready_descends finalized evident
  | safeToNotar | safeToSkip | standstill => trivial
  | certCreated cert =>
      cases cert with
      | notar cert => exact unique (Notarized.fallbackCertified evident)
      | notarFallback cert => exact unique evident
      | fastFinal cert =>
          exact unique (Notarized.fallbackCertified (Committee.Reaches.fewer evident (by decide : 3 ≤ 4)))
      | final cert => trivial
      | skip cert =>
          intro same
          by_contra later
          exact lawful.not_skipped finalized (Nat.pos_of_ne_zero later) (same ▸ evident)

namespace Network

/-- Of two blocks that correct validators report, the later one descends from the other. -/
def OneChain (deployment : Deployment) (network : Network) : Prop :=
  ∀ one other, deployment.correct one → deployment.correct other →
    ∀ report ∈ (network.nodes one).reports, ∀ report' ∈ (network.nodes other).reports,
      ∀ block ∈ report.reported, ∀ block' ∈ report'.reported, block.slot ≤ block'.slot →
        Descends deployment.parentOf block' block

section

variable (deployment : Deployment) (summable : deployment.Summable) (steps : List Step)
  (admissible : (initial deployment.info).Along (Admissible deployment) steps)
  (guarded : (initial deployment.info).Along Guarded steps)

include summable admissible guarded

theorem one_chain_of_guarded : ((initial deployment.info).run steps).OneChain deployment := by
  intro one other correct correct' report member report' member' block reported block' reported' above
  have evident := (Evident.initial deployment).run summable admissible guarded
  have settled := ((evident.nodes one correct).reports report member).reported block reported
  have settled' := ((evident.nodes other correct').reports report' member').reported block' reported'
  exact evident.lawful.settled_descends settled settled' above

/-- A parent that a correct validator may build on descends from every block final by then. -/
theorem events_respect_finalized {id : Nat} (correct : deployment.correct id)
    (finalized : Finalized deployment.committee ((initial deployment.info).run steps).log block) :
    ∀ event ∈ (((initial deployment.info).run steps).nodes id).events,
      event.Respects deployment.parentOf block := by
  intro event member
  have evident := (Evident.initial deployment).run summable admissible guarded
  exact ((evident.nodes id correct).events event member).respects evident.lawful finalized

end

theorem oneBlock_one_chain : ((initial threeValidators.info).run oneBlock).OneChain threeValidators :=
  one_chain_of_guarded threeValidators threeValidators_summable oneBlock (by decide +kernel) oneBlock_guarded

/-- The block of slot 1 is fast-final, and every event of a pool respects it. -/
theorem oneBlock_events_respect :
    Finalized threeValidators.committee ((initial threeValidators.info).run oneBlock).log ⟨1, 1⟩ ∧
    (((initial threeValidators.info).run oneBlock).nodes 0).events ≠ [] ∧
    ∀ event ∈ (((initial threeValidators.info).run oneBlock).nodes 0).events,
      event.Respects threeValidators.parentOf ⟨1, 1⟩ := by
  have voted : .newNotar 1 1 0 ∈ ((initial threeValidators.info).run oneBlock).log := by
    decide +kernel
  have finalized : Finalized threeValidators.committee ((initial threeValidators.info).run oneBlock).log ⟨1, 1⟩ := by
    have first : Committee.Reaches threeValidators.committee 4 fun id => id = 0 := by
      simp [Committee.Reaches, Deployment.committee, threeValidators, weigh, Finset.sum_range_succ, EpochInfo.stakeAt,
        EpochInfo.validatorCnt]
    refine .inr (.inl (first.mono ?_))
    rintro id _ _ rfl
    exact voted
  exact ⟨finalized, by decide +kernel, events_respect_finalized threeValidators threeValidators_summable oneBlock
    (by decide +kernel) oneBlock_guarded rfl finalized⟩

end Network

end Karstflow.Alpenglow
