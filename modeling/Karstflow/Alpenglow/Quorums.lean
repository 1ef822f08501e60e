import Karstflow.Alpenglow.PoolCertificates
import Karstflow.Alpenglow.PoolTracking

namespace Karstflow.Alpenglow

open Data List

/-! # The totals and the quorums of a pool that is given votes -/

theorem EpochInfo.quorums_meet {info : EpochInfo}
    (bounded : (info.validators.map ValidatorInfo.stake).sum ≤ u64Max) (staked : 0 < info.totalStake)
    (first : info.isQuorum (info.stakeOf p) = true) (second : info.isQuorum (info.stakeOf q) = true) :
    ∃ id, p id ∧ q id := by
  by_contra apart
  have everyone := info.sum_filter_stake fun _ => true
  simp only [filter_true] at everyone
  have total := totalStake_eq (by simpa [everyone] using bounded)
  have both : info.stakeOf p + info.stakeOf q ≤ info.stakeOf fun _ => True :=
    weigh_add_le (fun id _ left right => apart ⟨id, left, right⟩) (fun _ _ _ => trivial) fun _ _ _ => trivial
  simp only [isQuorum, Alpenglow.isQuorum, fractionIsMet, decide_eq_true_eq] at first second
  omega

namespace SlotState

variable {state : SlotState} {certs : List Cert}

/-- The certificates have quorums of voters, and who votes final does not skip. -/
structure Earned (info : EpochInfo) (certs : List Cert) (state : SlotState) : Prop where
  notar : ∀ cert, .notar cert ∈ certs →
    info.isQuorum (info.stakeOf fun id => state.votedNotar id = some cert.blockHash) = true
  skip : ∀ cert, .skip cert ∈ certs →
    info.isQuorum (info.stakeOf fun id => state.votedSkip id ∨ state.votedSkipFallback id) = true
  final : ∀ cert, .final cert ∈ certs → info.isQuorum (info.stakeOf state.votedFinal) = true
  finalNotSkip : ∀ id, state.votedFinal id → ¬ (state.votedSkip id ∨ state.votedSkipFallback id)

theorem Earned.new (info : EpochInfo) (slot ownId : Nat) : Earned info [] (.new slot ownId) := by
  constructor <;> simp [votedFinal, SlotState.new, vv, ValidatorVotes.default]

theorem Earned.finalNotSkip_withVote (earned : Earned info certs state)
    (accepts : state.Accepts vote) (final : (state.withVote vote stake).votedFinal voter) :
    ¬ ((state.withVote vote stake).votedSkip voter ∨ (state.withVote vote stake).votedSkipFallback voter) := by
  have before := earned.finalNotSkip voter
  have innocent := accepts.1
  rw [votedSkip_withVote, votedSkipFallback_withVote]
  rw [votedFinal_withVote] at final
  cases vote with
  | notar cast | notarFallback cast => exact before final
  | skip cast =>
    rintro ((rfl | skipped) | skipped)
    · exact absurd ((if_pos final).symm.trans innocent) (Option.some_ne_none _)
    · exact before final (.inl skipped)
    · exact before final (.inr skipped)
  | skipFallback cast =>
    rintro (skipped | rfl | skipped)
    · exact before final (.inl skipped)
    · exact absurd ((if_pos final).symm.trans innocent) (Option.some_ne_none _)
    · exact before final (.inr skipped)
  | final cast =>
    obtain rfl | earlier := final
    · intro skipped
      exact absurd ((if_pos skipped).symm.trans innocent) (Option.some_ne_none _)
    · exact before earlier

theorem Earned.withVote (earned : Earned info certs state) (sound : state.Sound info [] vote.slot)
    (accepts : state.Accepts vote) (known : vote.signer < info.validatorCnt)
    (created : ∀ cert ∈ made, Created info (state.tallied vote (info.stakeAt vote.signer)) cert) :
    Earned info (certs ++ made) (state.withVote vote (info.stakeAt vote.signer)) := by
  have later := sound.counts.withVote accepts known rfl
  have backs := fun cert member => ((created cert member).backs (sound.votes.tallied accepts sound.slot.symm)).2
  have grows : ∀ {p q : Nat → Prop}, (∀ voter, p voter → q voter) → info.isQuorum (info.stakeOf p) = true →
      info.isQuorum (info.stakeOf q) = true :=
    fun weaker => fractionIsMet_mono (weigh_mono fun voter _ => weaker voter)
  refine ⟨fun cert member => ?_, fun cert member => ?_, fun cert member => ?_,
    fun voter => earned.finalNotSkip_withVote accepts⟩
  · obtain old | new := mem_append.mp member
    · refine grows (fun voter voted => ?_) (earned.notar cert old)
      rw [votedNotar_withVote]
      cases vote with
      | notar cast =>
        refine (if_neg ?_).trans voted
        rintro rfl
        rw [votedNotar, accepts.fresh.1] at voted
        cases voted
      | _ => exact voted
    · rw [← later.notar]
      cases vote <;> exact (backs _ new).1
  · obtain old | new := mem_append.mp member
    · refine grows (fun voter => ?_) (earned.skip cert old)
      rw [votedSkip_withVote, votedSkipFallback_withVote]
      cases vote with
      | skip cast => exact .imp_left .inr
      | skipFallback cast => exact .imp_right .inr
      | _ => exact id
    · have votes : StoredVotes (state.withVote vote (info.stakeAt vote.signer)) :=
        sound.votes.withVote accepts sound.slot.symm
      rw [EpochInfo.stakeOf, weigh_or fun voter _ => votes.skipOnce voter, ← EpochInfo.stakeOf, ← EpochInfo.stakeOf,
        ← later.skip, ← later.skipFallback]
      cases vote <;> exact (backs _ new).1
  · obtain old | new := mem_append.mp member
    · refine grows (fun voter => ?_) (earned.final cert old)
      rw [votedFinal_withVote]
      cases vote with
      | final cast => exact .inr
      | _ => exact id
    · rw [← later.final]
      cases vote <;> exact (backs _ new).1

end SlotState

namespace PoolInput

variable {votes : List Vote}

def certsAt (outs : List PoolOut) (slot : Nat) : List Cert := (outs.flatMap PoolOut.certs).filter (·.slot = slot)

/-- What upkeep and votes that are taken preserve holds of every slot, in the
last state in which it was tracked. -/
theorem run_slots {Inv : List Cert → SlotState → Prop} (new : ∀ slot, Inv [] (.new slot ownId))
    (upkeep : ∀ {certs before after}, SlotState.Upkeep before after → Inv certs before → Inv certs after)
    (taken : ∀ {certs made : List Cert} {state : SlotState} {vote : Vote}, Inv certs state →
      state.Sound info [] vote.slot → state.Accepts vote → vote.signer < info.validatorCnt →
      (∀ cert ∈ made, SlotState.Created info (state.tallied vote (info.stakeAt vote.signer)) cert) →
      Inv (certs ++ made) (state.withVote vote (info.stakeAt vote.signer)))
    (ran : run ownId info (votes.map .vote) = .ok (pool, outs)) (slot : Nat) :
    ∃ state, Inv (certsAt outs slot) state ∧ (pool.firstUnprunedSlot ≤ slot → state = pool.slotState slot) := by
  induction votes using reverseRecOn generalizing pool outs with
  | nil =>
    cases ran
    exact ⟨_, new slot, fun _ => rfl⟩
  | append_singleton votes vote ih =>
    rw [map_append] at ran
    obtain ⟨before, earlier, out, ranBefore, stepped, rfl⟩ := runSteps_append_eq_ok.mp ran
    obtain ⟨⟨answer, after, out₁⟩, added, done⟩ := bind_eq_ok.mp stepped
    cases done
    obtain ⟨sound, rfl⟩ := run_sound ranBefore
    obtain ⟨state, held, same⟩ := ih ranBefore
    obtain ⟨_, first, tracks⟩ := Pool.addVote_tracks added
    have made := (sound.addVote rfl added).2.2.1
    have settle : ∀ {certs last}, Inv certs last →
        (pool.firstUnprunedSlot ≤ slot → SlotState.Upkeep last (pool.slotState slot)) →
        ∃ state, Inv certs state ∧ (pool.firstUnprunedSlot ≤ slot → state = pool.slotState slot) := by
      intro certs last holds kept
      by_cases tracked : pool.firstUnprunedSlot ≤ slot
      · exact ⟨_, upkeep (kept tracked) holds, fun _ => rfl⟩
      · exact ⟨last, holds, fun inside => absurd inside tracked⟩
    have split : certsAt (earlier ++ [out]) slot = certsAt earlier slot ++ out.certs.filter (·.slot = slot) := by
      rw [certsAt, flatMap_append, flatMap_singleton, filter_append, certsAt]
    rw [split]
    by_cases here : slot = vote.slot ∧ before.Admits vote
    · obtain ⟨rfl, admits⟩ := here
      rw [same (Pool.slotInBounds_spec admits.1)] at held
      refine settle (taken held (sound _) admits.2.2 admits.2.1 fun cert member =>
        (made cert (mem_filter.mp member).1).2.2) fun tracked => ?_
      obtain ⟨other, _⟩ | ⟨_, kept⟩ := tracks _ tracked
      · exact absurd ⟨rfl, admits⟩ other
      · exact kept
    · have none : out.certs.filter (·.slot = slot) = [] := by
        apply filter_eq_nil_iff.mpr
        intro cert member there
        exact here ⟨(of_decide_eq_true there).symm.trans (made cert member).2.1, (made cert member).1⟩
      rw [none, append_nil]
      refine settle held fun tracked => ?_
      rw [same (le_trans first tracked)]
      obtain ⟨_, kept⟩ | ⟨taken, _⟩ := tracks slot tracked
      · exact kept
      · exact absurd taken here

/-- The totals of every tracked slot are exact, and whatever vote is taken next,
the totals that are then tested can be subtracted. -/
theorem totals_exact (ownId : Nat) (info : EpochInfo) (votes : List Vote) (pool : Pool) (outs : List PoolOut)
    (ran : run ownId info (votes.map .vote) = .ok (pool, outs)) (slot : Nat) (tracked : pool.firstUnprunedSlot ≤ slot) :
    (pool.slotState slot).Counts info ∧ (pool.slotState slot).Attained ∧
      (pool.slotState slot).topNotarStake ≤ (pool.slotState slot).notarOrSkipStake ∧
      ∀ vote, vote.slot = slot → pool.Admits vote →
        ((pool.slotState slot).tallied vote (info.stakeAt vote.signer)).topNotarStake ≤
          ((pool.slotState slot).tallied vote (info.stakeAt vote.signer)).notarOrSkipStake := by
  obtain ⟨sound, same⟩ := run_sound ran
  have counts := (sound slot).counts
  rw [same] at counts
  refine ⟨counts, counts.attained, counts.top_le, ?_⟩
  rintro vote rfl admits
  have known := admits.2.1
  rw [same] at known
  have later := (counts.withVote admits.2.2 known rfl).top_le
  cases vote <;> exact later

theorem skipVotes_totals : ∃ pool outs, run 0 fiveEqual skipVotes = .ok (pool, outs) ∧
    pool.firstUnprunedSlot ≤ 4 ∧ (pool.slotState 4).Counts fiveEqual := by
  obtain ⟨⟨pool, outs⟩, ran, first⟩ := map_eq_ok.mp skipVotes_first
  have tracked := le_trans (le_of_eq first) (Nat.zero_le 4)
  exact ⟨pool, outs, ran, tracked, (totals_exact 0 fiveEqual [.newSkip 4 0, .newSkipFallback 4 1, .newSkip 4 2]
    pool outs ran 4 tracked).1⟩

/-- The certificates that a pool makes of votes name one block per slot, and do
not both skip and finalize a slot. -/
theorem certs_consistent (ownId : Nat) (info : EpochInfo) (votes : List Vote) (pool : Pool) (outs : List PoolOut)
    (bounded : (info.validators.map ValidatorInfo.stake).sum < 2 ^ 64) (staked : 0 < info.totalStake)
    (ran : run ownId info (votes.map .vote) = .ok (pool, outs)) :
    (∀ first second, .notar first ∈ outs.flatMap PoolOut.certs → .notar second ∈ outs.flatMap PoolOut.certs →
      first.slot = second.slot → first.blockHash = second.blockHash) ∧
    ∀ skip final, .skip skip ∈ outs.flatMap PoolOut.certs → .final final ∈ outs.flatMap PoolOut.certs →
      skip.slot ≠ final.slot := by
  have earned := fun slot => @run_slots _ _ _ _ _ (SlotState.Earned info)
    (fun slot => .new info slot ownId) (fun kept held => by
      obtain ⟨_, _, _, _, _, rfl⟩ := kept
      exact ⟨held.notar, held.skip, held.final, held.finalNotSkip⟩) SlotState.Earned.withVote ran slot
  have bounded := Nat.le_of_lt_succ bounded
  constructor
  · intro first second firstMade secondMade same
    obtain ⟨state, held, _⟩ := earned first.slot
    have left := held.notar first (mem_filter.mpr ⟨firstMade, decide_eq_true rfl⟩)
    have right := held.notar second (mem_filter.mpr ⟨secondMade, decide_eq_true same.symm⟩)
    obtain ⟨voter, one, other⟩ := EpochInfo.quorums_meet bounded staked left right
    exact Option.some.inj (one.symm.trans other)
  · intro skip final skipMade finalMade same
    obtain ⟨state, held, _⟩ := earned skip.slot
    have left := held.skip skip (mem_filter.mpr ⟨skipMade, decide_eq_true rfl⟩)
    have right := held.final final (mem_filter.mpr ⟨finalMade, decide_eq_true same.symm⟩)
    obtain ⟨voter, skipped, voted⟩ := EpochInfo.quorums_meet bounded staked left right
    exact held.finalNotSkip voter voted skipped

theorem skipVotes_certs_consistent : ∃ pool outs, run 0 fiveEqual skipVotes = .ok (pool, outs) ∧
    ∀ skip final, .skip skip ∈ outs.flatMap PoolOut.certs → .final final ∈ outs.flatMap PoolOut.certs →
      skip.slot ≠ final.slot := by
  obtain ⟨⟨pool, outs⟩, ran, _⟩ := map_eq_ok.mp skipVotes_first
  exact ⟨pool, outs, ran, (certs_consistent 0 fiveEqual [.newSkip 4 0, .newSkipFallback 4 1, .newSkip 4 2]
    pool outs (by decide) (by decide) ran).2⟩

def unstaked : EpochInfo where
  validators := [⟨0, 0⟩, ⟨1, 0⟩]
  totalStake := 0
  nonempty := by decide
  idIsIndex := by decide
  total := by decide

/-- Where nobody has stake, every vote is a quorum. -/
theorem unstaked_skip_and_final : (run 0 unstaked [.vote (.newSkip 4 0), .vote (.newFinal 4 1)]).map
    (·.2.flatMap PoolOut.certs) = .ok [.skip ⟨4, some ⟨2, 1⟩, none, 0⟩, .final ⟨4, ⟨2, 2⟩, 0⟩] := by
  decide +kernel

end PoolInput

end Karstflow.Alpenglow
