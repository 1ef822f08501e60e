import Karstflow.Alpenglow.CertValidity
import Karstflow.Alpenglow.TrackerEvidence

namespace Karstflow.Alpenglow

open Data Protocol Option List Table

/-! # What the pool of a correct validator stands for

A pool counts the votes and takes the certificates that reach it. As long as no
validator's votes for a block are counted twice, whatever it concludes and
reports is true of the votes that correct validators have cast.
-/

/-- The validators of an epoch with those that are correct, and the blocks that
hashes stand for. -/
structure Deployment where
  info : EpochInfo
  parentOf : BlockId → BlockId
  correct : Nat → Bool
  majority : 4 * info.stakeOf (fun _ => True) < 5 * info.stakeOf fun id => correct id = true

namespace Deployment

def committee (deployment : Deployment) : Committee Nat where
  members := .range deployment.info.validatorCnt
  weight := deployment.info.stakeAt
  correct := fun id => deployment.correct id = true
  majority := deployment.majority

/-- The total of the epoch is the sum of the stakes, not cut off. -/
def Summable (deployment : Deployment) : Prop := deployment.info.stakeOf (fun _ => True) ≤ u64Max

variable {deployment : Deployment}

theorem Summable.reaches (summable : deployment.Summable)
    (met : fractionIsMet (deployment.info.stakeOf voted) deployment.info.totalStake fifths 5 = true)
    (cast : ∀ id, id < deployment.info.validatorCnt → deployment.correct id → voted id → p id) :
    deployment.committee.Reaches fifths p := by
  rw [fractionIsMet, decide_eq_true_iff, EpochInfo.totalStake_eq summable, mul_comm, mul_comm _ 5] at met
  refine le_trans met (Nat.mul_le_mul_left 5 (weigh_mono ?_))
  intro id known holds correct
  exact cast id (mem_range.mp known) correct holds

end Deployment

/-- What the validator has voted if it is a signer of the certificate. -/
def Cert.SignedBy (log : List Vote) (id : Nat) : Cert → Prop
  | notar cert => .newNotar cert.slot cert.blockHash id ∈ log
  | notarFallback cert =>
    .newNotar cert.slot cert.blockHash id ∈ log ∨ .newNotarFallback cert.slot cert.blockHash id ∈ log
  | skip cert => .newSkip cert.slot id ∈ log ∨ .newSkipFallback cert.slot id ∈ log
  | fastFinal cert => .newNotar cert.slot cert.blockHash id ∈ log
  | final cert => .newFinal cert.slot id ∈ log

/-- No correct validator is a signer without its vote. -/
def Cert.Unforged (deployment : Deployment) (log : List Vote) (cert : Cert) : Prop :=
  ∀ id, id < deployment.info.validatorCnt → deployment.correct id → cert.isSigner id = true → cert.SignedBy log id

def Cert.fifths : Cert → Nat
  | fastFinal _ => 4
  | _ => 3

def Cert.Evident (deployment : Deployment) (log : List Vote) (cert : Cert) : Prop :=
  deployment.committee.Reaches cert.fifths fun id => cert.SignedBy log id

def VotorPoolEvent.Evident (deployment : Deployment) (log : List Vote) : VotorPoolEvent → Prop
  | parentReady slot parent => Ready deployment.committee deployment.parentOf log slot parent
  | safeToNotar block =>
    Supported deployment.committee log block ∧
      FallbackCertified deployment.committee log (deployment.parentOf block)
  | safeToSkip slot => Split deployment.committee log slot
  | certCreated cert => cert.Evident deployment log
  | standstill _ bundle => bundle = []

structure PoolOut.Evident (deployment : Deployment) (log : List Vote) (out : PoolOut) : Prop where
  events : ∀ event ∈ out.events, event.Evident deployment log
  finalizations : ∀ event ∈ out.finalizations, event.Evident deployment.committee deployment.parentOf log

variable {log : List Vote}

theorem Cert.Evident.mono {cert : Cert} (evident : cert.Evident deployment log) (grows : log ⊆ log') :
    cert.Evident deployment log' := by
  refine Committee.Reaches.mono evident fun id _ _ signed => ?_
  cases cert with
  | notar cert | fastFinal cert | final cert => exact grows signed
  | notarFallback cert | skip cert => exact signed.imp (@grows _) (@grows _)

theorem VotorPoolEvent.Evident.mono {event : VotorPoolEvent} (evident : event.Evident deployment log)
    (grows : log ⊆ log') : event.Evident deployment log' := by
  cases event with
  | parentReady slot parent => exact Ready.mono grows evident
  | safeToNotar block => exact ⟨evident.1.mono grows, evident.2.mono grows⟩
  | safeToSkip slot => exact Split.mono grows evident
  | certCreated cert => exact Cert.Evident.mono evident grows
  | standstill slot bundle => exact evident

/-- A certificate that passes the threshold check stands for the votes of its
signers. -/
theorem Cert.Valid.evident {cert : Cert} (summable : deployment.Summable) (valid : cert.Valid deployment.info)
    (unforged : cert.Unforged deployment log) : cert.Evident deployment log := by
  have met := (valid_iff.mp valid).2
  cases cert <;> exact summable.reaches met unforged

namespace PoolOut.Evident

variable {out : PoolOut}

theorem empty : empty.Evident deployment log :=
  ⟨fun _ member => absurd member not_mem_nil, fun _ member => absurd member not_mem_nil⟩

section

variable (evident : out.Evident deployment log)

include evident

theorem addEvents {events : List VotorPoolEvent} {repairs : List BlockId}
    (new : ∀ event ∈ events, event.Evident deployment log) :
    Evident deployment log { out with events := out.events ++ events, repairs } :=
  ⟨fun event member => (mem_append.mp member).elim (evident.events event) (new event), evident.finalizations⟩

theorem pushEvent (new : event.Evident deployment log) : (out.pushEvent event).Evident deployment log := by
  refine evident.addEvents fun other member => ?_
  rw [mem_singleton.mp member]
  exact new

theorem pushParents (new : ∀ entry ∈ parents, entry.Evident deployment.committee deployment.parentOf log) :
    (out.pushParents parents).Evident deployment log := by
  refine evident.addEvents fun event member => ?_
  obtain ⟨entry, listed, rfl⟩ := mem_map.mp member
  exact new entry listed

theorem pushFinalization (new : event.Evident deployment.committee deployment.parentOf log) :
    (out.pushFinalization event).Evident deployment log := by
  refine ⟨evident.events, fun other member => ?_⟩
  obtain old | last := mem_append.mp member
  · exact evident.finalizations other old
  · rw [mem_singleton.mp last]
    exact new

end

end PoolOut.Evident

/-- The votes of a slot are counted right and have been cast, and what it holds
about blocks follows from them. -/
structure SlotState.Evident (deployment : Deployment) (log : List Vote) (state : SlotState) : Prop where
  stored : state.StoredVotes
  counts : state.Counts deployment.info
  cast : ∀ id vote, state.Holds id vote → deployment.correct id → vote ∈ log
  once : ∀ id hash, state.votedNotar id = some hash → ¬ state.votedFallback id hash
  fallbacks : ∀ hash, state.isNotarFallback hash = true →
    FallbackCertified deployment.committee log ⟨state.slot, hash⟩
  parents : ∀ hash, state.parents.get hash = some .certified →
    FallbackCertified deployment.committee log (deployment.parentOf ⟨state.slot, hash⟩)

namespace SlotState

variable {state after : SlotState} {id : Nat} {hash : BlockHash}

/-- The vote makes the slot count a voter for a block twice. -/
def CountsTwice (state : SlotState) : Vote → Prop
  | .notar vote => state.votedFallback vote.signer vote.blockHash
  | .notarFallback vote => state.votedNotar vote.signer = some vote.blockHash
  | _ => False

instance (state : SlotState) : (vote : Vote) → Decidable (state.CountsTwice vote)
  | .notar vote => inferInstanceAs (Decidable (state.nfVotes.contains (vote.signer, vote.blockHash) = true))
  | .notarFallback vote => inferInstanceAs (Decidable (state.votedNotar vote.signer = some vote.blockHash))
  | .skip _ | .skipFallback _ | .final _ => inferInstanceAs (Decidable False)

namespace Evident

theorem mono (evident : state.Evident deployment log) (grows : log ⊆ log') : state.Evident deployment log' where
  stored := evident.stored
  counts := evident.counts
  cast id vote held correct := grows (evident.cast id vote held correct)
  once := evident.once
  fallbacks hash certified := (evident.fallbacks hash certified).mono grows
  parents hash certified := (evident.parents hash certified).mono grows

theorem new (slot ownId : Nat) : (new slot ownId).Evident deployment log where
  stored := .new slot ownId
  counts := .new deployment.info slot ownId
  cast id vote held := by cases vote <;> simp [Holds, SlotState.new, vv, ValidatorVotes.default] at held
  once id hash voted := by simp [votedNotar, SlotState.new, vv, ValidatorVotes.default] at voted
  fallbacks hash certified := by simp [isNotarFallback, SlotState.new] at certified
  parents hash certified := by simp [SlotState.new] at certified

theorem upkeep (evident : state.Evident deployment log) (upkeep : Upkeep state after)
    (fallbacks : ∀ hash, after.isNotarFallback hash = true →
      FallbackCertified deployment.committee log ⟨state.slot, hash⟩)
    (parents : ∀ hash, after.parents.get hash = some .certified →
      FallbackCertified deployment.committee log (deployment.parentOf ⟨state.slot, hash⟩)) :
    after.Evident deployment log := by
  have stored := upkeep.storedVotes evident.stored
  have counts := upkeep.counts evident.counts
  have cast : ∀ id vote, after.Holds id vote → deployment.correct id → vote ∈ log :=
    fun id vote held => evident.cast id vote (upkeep.holds held)
  obtain ⟨_, _, _, _, _, rfl⟩ := upkeep
  exact ⟨stored, counts, cast, evident.once, fallbacks, parents⟩

theorem marks (evident : state.Evident deployment log) (marks : Marks state after) : after.Evident deployment log := by
  obtain ⟨upkeep, certs, parents⟩ := marks.upkeep
  refine evident.upkeep upkeep ?_ ?_
  · intro hash certified
    rw [isNotarFallback, certs] at certified
    exact evident.fallbacks hash certified
  · intro hash certified
    rw [parents] at certified
    exact evident.parents hash certified

/-! The stored votes of correct validators, by kind. -/

variable (evident : state.Evident deployment log)
include evident

section

variable (correct : deployment.correct id)

include correct

theorem cast_notar (voted : state.votedNotar id = some hash) : .newNotar state.slot hash id ∈ log := by
  rw [votedNotar, map_eq_some_iff] at voted
  obtain ⟨vote, held, rfl⟩ := voted
  have own := evident.stored.own id (.notar vote) held
  rw [← own.1, ← own.2]
  exact evident.cast id (.notar vote) held correct

theorem cast_fallback (voted : state.votedFallback id hash) : .newNotarFallback state.slot hash id ∈ log := by
  rw [votedFallback, Table.contains, isSome_iff_exists] at voted
  obtain ⟨vote, held⟩ := voted
  have same := evident.stored.fallbackHash id hash vote held
  have held : state.Holds id (.notarFallback vote) := by rw [Holds, same]; exact held
  have own := evident.stored.own id (.notarFallback vote) held
  rw [← own.1, ← own.2, ← same]
  exact evident.cast id (.notarFallback vote) held correct

theorem cast_skip (voted : state.votedSkip id) : .newSkip state.slot id ∈ log := by
  obtain ⟨vote, held⟩ := isSome_iff_exists.mp voted
  have own := evident.stored.own id (.skip vote) held
  rw [← own.1, ← own.2]
  exact evident.cast id (.skip vote) held correct

theorem cast_skipFallback (voted : state.votedSkipFallback id) : .newSkipFallback state.slot id ∈ log := by
  obtain ⟨vote, held⟩ := isSome_iff_exists.mp voted
  have own := evident.stored.own id (.skipFallback vote) held
  rw [← own.1, ← own.2]
  exact evident.cast id (.skipFallback vote) held correct

theorem cast_final (voted : state.votedFinal id) : .newFinal state.slot id ∈ log := by
  obtain ⟨vote, held⟩ := isSome_iff_exists.mp voted
  have own := evident.stored.own id (.final vote) held
  rw [← own.1, ← own.2]
  exact evident.cast id (.final vote) held correct

end

/-! The running stakes. -/

variable (summable : deployment.Summable)
include summable

theorem notar_reaches (met : fractionIsMet (state.notarStakeOf hash) deployment.info.totalStake fifths 5 = true) :
    deployment.committee.Reaches fifths fun id => .newNotar state.slot hash id ∈ log := by
  rw [evident.counts.notar] at met
  exact summable.reaches met fun id _ correct voted => evident.cast_notar correct voted

theorem certified_of_stake (quorum : deployment.info.isQuorum (state.nfStakeOf hash + state.notarStakeOf hash) = true) :
    FallbackCertified deployment.committee log ⟨state.slot, hash⟩ := by
  have both : state.nfStakeOf hash + state.notarStakeOf hash =
      deployment.info.stakeOf fun id => state.votedNotar id = some hash ∨ state.votedFallback id hash := by
    rw [evident.counts.notar, evident.counts.fallback, add_comm]
    exact (weigh_or fun id _ notar fallback => evident.once id hash notar fallback).symm
  rw [both] at quorum
  refine summable.reaches quorum fun id _ correct voted => ?_
  exact voted.imp (evident.cast_notar correct) (evident.cast_fallback correct)

theorem skipped_of_stake (quorum : deployment.info.isQuorum (state.skipStake + state.skipFallbackStake) = true) :
    Protocol.Skipped deployment.committee log state.slot := by
  have both : state.skipStake + state.skipFallbackStake =
      deployment.info.stakeOf fun id => state.votedSkip id ∨ state.votedSkipFallback id := by
    rw [evident.counts.skip, evident.counts.skipFallback]
    exact (weigh_or fun id _ => evident.stored.skipOnce id).symm
  rw [both] at quorum
  refine summable.reaches quorum fun id _ correct voted => ?_
  exact voted.imp (evident.cast_skip correct) (evident.cast_skipFallback correct)

theorem supported (safe : state.FallbackSafe deployment.info hash) :
    Supported deployment.committee log ⟨state.slot, hash⟩ := by
  obtain ⟨weakest, weak | both, _⟩ := safe
  · exact ⟨evident.notar_reaches summable weakest, .inl (evident.notar_reaches summable weak)⟩
  refine ⟨evident.notar_reaches summable weakest, .inr ?_⟩
  have sum : state.notarStakeOf hash + state.skipStake =
      deployment.info.stakeOf fun id => state.votedNotar id = some hash ∨ state.votedSkip id := by
    rw [evident.counts.notar, evident.counts.skip]
    refine (weigh_or fun id _ voted => ?_).symm
    exact evident.stored.notarNotSkip id (notar_isSome_iff.mpr (by rw [voted]; rfl))
  rw [sum] at both
  refine summable.reaches both fun id _ correct voted => ?_
  exact voted.imp (evident.cast_notar correct) (evident.cast_skip correct)

theorem split (weak : deployment.info.isWeakQuorum (state.notarOrSkipStake - state.topNotarStake) = true) :
    Split deployment.committee log state.slot := by
  intro hash
  have most := evident.counts.top hash
  have parts : state.notarOrSkipStake ≤ state.notarStakeOf hash +
      deployment.info.stakeOf fun id => state.votedSkip id ∨
        ∃ other, other ≠ hash ∧ state.votedNotar id = some other := by
    rw [evident.counts.notarOrSkip, evident.counts.notar]
    refine le_trans (weigh_mono ?_) (weigh_or_le _ _ _ _)
    intro id _ voted
    obtain notar | skip := voted
    · obtain ⟨other, voted⟩ := isSome_iff_exists.mp (notar_isSome_iff.mp notar)
      by_cases same : other = hash
      · exact .inl (same ▸ voted)
      · exact .inr (.inr ⟨other, same, voted⟩)
    · exact .inr (.inl skip)
  have enough : state.notarOrSkipStake - state.topNotarStake ≤
      deployment.info.stakeOf fun id => state.votedSkip id ∨
        ∃ other, other ≠ hash ∧ state.votedNotar id = some other := by
    omega
  refine summable.reaches (fractionIsMet_mono enough weak) fun id _ correct voted => ?_
  obtain skip | ⟨other, different, voted⟩ := voted
  · exact .inl (evident.cast_skip correct skip)
  · exact .inr ⟨other, different, evident.cast_notar correct voted⟩

theorem event {event : PoolEvent} (justified : Justifies deployment.info state event) :
    event.toVotor.Evident deployment log := by
  cases event with
  | safeToNotar block =>
    obtain ⟨slot, hash⟩ := block
    obtain ⟨here, safe⟩ := justified
    subst here
    exact ⟨evident.supported summable safe, evident.parents hash safe.2.2⟩
  | safeToSkip slot =>
    obtain ⟨rfl, weak⟩ := justified
    exact evident.split summable weak

end Evident

theorem Evident.withVote (evident : state.Evident deployment log) (accepts : state.Accepts vote)
    (here : vote.slot = state.slot) (known : vote.signer < deployment.info.validatorCnt)
    (paid : stake = deployment.info.stakeAt vote.signer) (single : ¬ state.CountsTwice vote)
    (cast : deployment.correct vote.signer → vote ∈ log) :
    (state.withVote vote stake).Evident deployment log where
  stored := evident.stored.withVote accepts here
  counts := evident.counts.withVote accepts known paid
  cast id other held correct := by
    obtain ⟨rfl, rfl⟩ | before := holds_withVote held
    · exact cast correct
    · exact evident.cast id other before correct
  once id hash voted fallback := by
    rw [votedNotar_withVote] at voted
    rw [votedFallback_withVote] at fallback
    cases vote with
    | notar vote =>
      dsimp only at voted
      split at voted
      · rename_i voter
        cases voted
        subst voter
        exact single fallback
      · exact evident.once id hash voted fallback
    | notarFallback vote =>
      obtain ⟨rfl, rfl⟩ | before := fallback
      · exact single voted
      · exact evident.once id hash voted before
    | _ => exact evident.once id hash voted fallback
  fallbacks hash certified := by
    rw [isNotarFallback, certs_withVote] at certified
    rw [slot_withVote]
    exact evident.fallbacks hash certified
  parents hash certified := by
    have same : (state.withVote vote stake).parents = state.parents := by cases vote <;> rfl
    rw [same] at certified
    rw [slot_withVote]
    exact evident.parents hash certified

theorem Evident.created (evident : (state.withVote vote stake).Evident deployment log)
    (summable : deployment.Summable) (stored : StoredVotes (state.tallied vote stake))
    (created : Created deployment.info (state.tallied vote stake) cert) : cert.Evident deployment log := by
  obtain ⟨slot, backs⟩ := created.backs stored
  have here : (state.tallied vote stake).slot = (state.withVote vote stake).slot := by cases vote <;> rfl
  have stakes := state.stakes_tallied vote stake
  have slot := slot.trans here
  cases cert with
  | notar cert | fastFinal cert =>
    have quorum := backs.1
    rw [(stakes _).1] at quorum
    have reaches := evident.notar_reaches summable quorum
    rw [← slot] at reaches
    exact reaches
  | notarFallback cert =>
    have quorum := backs.1
    rw [(stakes _).1, (stakes _).2] at quorum
    have certified := evident.certified_of_stake summable quorum
    rw [← slot] at certified
    exact certified
  | skip cert =>
    have same : (state.tallied vote stake).skipStake + (state.tallied vote stake).skipFallbackStake =
        (state.withVote vote stake).skipStake + (state.withVote vote stake).skipFallbackStake := by
      cases vote <;> rfl
    have skipped := evident.skipped_of_stake summable (same ▸ backs.1)
    rw [← slot] at skipped
    exact skipped
  | final cert =>
    have same : (state.tallied vote stake).finalizeStake = (state.withVote vote stake).finalizeStake := by
      cases vote <;> rfl
    have quorum := backs.1
    rw [same, evident.counts.final] at quorum
    have reaches := summable.reaches quorum fun id _ correct voted => evident.cast_final correct voted
    rw [← slot] at reaches
    exact reaches

end SlotState

def PoolCause.Evident (deployment : Deployment) (log : List Vote) : PoolCause → Prop
  | certStored cert => cert.Evident deployment log
  | blockAdded block parent => deployment.parentOf block = parent

theorem PoolCause.Evident.call {cause : PoolCause} {call : FinalityCall} (evident : cause.Evident deployment log)
    (asked : cause.call = some call) : call.Evident deployment.committee deployment.parentOf log := by
  cases cause with
  | blockAdded block parent =>
    cases asked
    exact evident
  | certStored cert =>
    cases cert with
    | notar cert | fastFinal cert | final cert =>
      cases asked
      exact evident
    | notarFallback cert | skip cert => cases asked

theorem PoolCause.Evident.certified {cause : PoolCause} (evident : cause.Evident deployment log)
    (asked : cause.certified = some block) : FallbackCertified deployment.committee log block := by
  cases cause with
  | blockAdded block parent => cases asked
  | certStored cert =>
    cases cert with
    | notar cert =>
      cases asked
      exact Notarized.fallbackCertified evident
    | notarFallback cert =>
      cases asked
      exact evident
    | skip cert | fastFinal cert | final cert => cases asked

theorem PoolCause.Evident.skipped {cause : PoolCause} (evident : cause.Evident deployment log)
    (asked : cause.skipped = some slot) : Protocol.Skipped deployment.committee log slot := by
  cases cause with
  | blockAdded block parent => cases asked
  | certStored cert =>
    cases cert with
    | skip cert =>
      cases asked
      exact evident
    | notar cert | notarFallback cert | fastFinal cert | final cert => cases asked

structure Pool.Evident (deployment : Deployment) (log : List Vote) (pool : Pool) : Prop where
  info : pool.epochInfo = deployment.info
  slots : ∀ slot, (pool.slotState slot).slot = slot ∧ (pool.slotState slot).Evident deployment log
  waiting : ∀ parent child, pool.s2nWaiting.get parent = some child → deployment.parentOf child = parent
  finality : pool.finality.Evident deployment.committee deployment.parentOf log
  parentReady : pool.parentReady.Evident deployment.committee deployment.parentOf log

namespace Pool

variable {pool after : Pool} {out : PoolOut}

theorem Evident.mono (evident : pool.Evident deployment log) (grows : log ⊆ log') :
    pool.Evident deployment log' where
  info := evident.info
  slots slot := ⟨(evident.slots slot).1, (evident.slots slot).2.mono grows⟩
  waiting := evident.waiting
  finality := evident.finality.mono grows
  parentReady := evident.parentReady.mono grows

theorem Evident.new (ownId : Nat) : (new ownId deployment.info).Evident deployment log where
  info := rfl
  slots slot := ⟨rfl, .new slot ownId⟩
  waiting parent child held := by simp [Pool.new] at held
  finality := .default
  parentReady := .default

theorem Evident.setState (evident : pool.Evident deployment log)
    (here : state.slot = slot) (new : state.Evident deployment log) :
    (pool.setState slot state).Evident deployment log where
  info := evident.info
  slots other := by
    rw [slotState_setState]
    split
    · next same => exact ⟨here.trans same.symm, new⟩
    · exact evident.slots other
  waiting := evident.waiting
  finality := evident.finality
  parentReady := evident.parentReady

theorem Evident.prune (evident : pool.Evident deployment log) : pool.prune.Evident deployment log where
  info := evident.info
  slots slot := by
    rw [slotState_prune]
    split
    · exact evident.slots slot
    · exact ⟨rfl, .new slot pool.ownId⟩
  waiting := evident.waiting
  finality := evident.finality
  parentReady := evident.parentReady.prune _

theorem evident_sendParentReady (evident : out.Evident deployment log)
    (new : ∀ entry, ready = some entry → entry.Evident deployment.committee deployment.parentOf log)
    (sent : sendParentReady out ready = .ok out') : out'.Evident deployment log := by
  cases ready with
  | none =>
    cases sent
    exact evident
  | some entry =>
    obtain ⟨_, _, done⟩ := bind_eq_ok.mp sent
    cases done
    refine evident.pushParents fun other member => ?_
    rw [mem_singleton.mp member]
    exact new entry rfl

theorem Evident.storeCert (evident : pool.Evident deployment log) (true : cert.Evident deployment log) :
    (pool.storeCert cert).Evident deployment log := by
  have slots : ∀ slot, ((pool.storeCert cert).slotState slot).slot = slot ∧
      ((pool.storeCert cert).slotState slot).Evident deployment log := by
    intro slot
    obtain ⟨here, slotEvident⟩ := evident.slots slot
    rw [slotState_storeCert]
    split
    · rename_i same
      have upkeep := (pool.slotState slot).addCert_upkeep cert
      refine ⟨upkeep.slot.trans here, slotEvident.upkeep upkeep ?_ ?_⟩
      · intro hash held
        cases cert with
        | notarFallback cert =>
          rw [SlotState.addCert] at held
          split at held
          · exact slotEvident.fallbacks hash held
          simp only [SlotState.isNotarFallback, any_append, any_cons, any_nil, Bool.or_false,
            Bool.or_eq_true, decide_eq_true_eq] at held
          obtain before | rfl := held
          · exact slotEvident.fallbacks hash before
          · rw [here, same]
            exact true
        | notar cert | skip cert | fastFinal cert | final cert => exact slotEvident.fallbacks hash held
      · intro hash held
        apply slotEvident.parents hash
        have same : ((pool.slotState slot).addCert cert).parents = (pool.slotState slot).parents := by
          cases cert with
          | notarFallback cert =>
            rw [SlotState.addCert]
            split <;> rfl
          | notar cert | skip cert | fastFinal cert | final cert => rfl
        rwa [same] at held
    · exact ⟨here, slotEvident⟩
  exact ⟨evident.info, slots, evident.waiting, evident.finality, evident.parentReady⟩

section

variable (evident : pool.Evident deployment log) (reports : out.Evident deployment log) (summable : deployment.Summable)

include evident reports summable

theorem Evident.told {state : SlotState} {notify : NotifyParent}
    (certified : FallbackCertified deployment.committee log (deployment.parentOf child))
    (ran : (pool.slotState child.slot).notifyParentCertified child.hash pool.epochInfo = .ok (state, notify)) :
    (pool.setState child.slot state).Evident deployment log ∧ (pushNotify out notify).Evident deployment log := by
  obtain ⟨here, slotEvident⟩ := evident.slots child.slot
  rw [evident.info] at ran
  obtain ⟨marks, justified⟩ := SlotState.notifyParentCertified_spec ran
  have told : SlotState.Evident deployment log { pool.slotState child.slot with
      parents := (pool.slotState child.slot).parents.insert child.hash .certified } := by
    refine slotEvident.upkeep ⟨_, _, _, _, _, rfl⟩ slotEvident.fallbacks ?_
    intro hash held
    rw [get_insert] at held
    split at held
    · rename_i same
      rw [here, same]
      exact certified
    · exact slotEvident.parents hash held
  refine ⟨evident.setState (marks.upkeep.1.slot.trans here) (told.marks marks), ?_⟩
  cases notify with
  | none => exact reports
  | repair block => exact ⟨reports.events, reports.finalizations⟩
  | event event => exact reports.pushEvent (told.event summable (justified event rfl))

theorem Evident.act (because : cause.Evident deployment log)
    (act : PoolAct cause pool out after out') : after.Evident deployment log ∧ out'.Evident deployment log := by
  cases act with
  | finality asked ran =>
    obtain ⟨finality, event⟩ := evident.finality.apply (because.call asked) ran
    exact ⟨{ evident with finality }, reports.pushFinalization event⟩
  | finalized reported ran sent =>
    have event := reports.finalizations _ reported
    obtain ⟨parentReady, ready⟩ := evident.parentReady.handleFinalization event.reported event.skipped ran
    exact ⟨{ evident with parentReady }, evident_sendParentReady reports ready sent⟩
  | pruned => exact ⟨evident.prune, reports⟩
  | @known block parent asked =>
    obtain ⟨here, slotEvident⟩ := evident.slots block.slot
    obtain ⟨upkeep, certs⟩ := SlotState.notifyParentKnown_upkeep (pool.slotState block.slot) block.hash
    refine ⟨evident.setState (upkeep.slot.trans here) (slotEvident.upkeep upkeep ?_ ?_), reports⟩
    · intro hash held
      rw [SlotState.isNotarFallback, certs] at held
      exact slotEvident.fallbacks hash held
    · intro hash held
      apply slotEvident.parents hash
      rw [SlotState.notifyParentKnown] at held
      split at held
      · exact held
      · rw [get_insert] at held
        split at held
        · cases held
        · exact held
  | @parked block parent asked =>
    subst asked
    refine ⟨{ evident with waiting := ?_ }, reports⟩
    intro above child held
    rw [get_insert] at held
    split at held
    · rename_i same
      cases held
      exact because.trans same.symm
    · exact evident.waiting above child held
  | @unparked parent =>
    refine ⟨{ evident with waiting := ?_ }, reports⟩
    intro above child held
    by_cases same : above = parent
    · rw [same, get_erase_self] at held
      cases held
    · rw [get_erase_ne same] at held
      exact evident.waiting above child held
  | @told child parent state notify certified ran =>
    refine evident.told reports summable ?_ ran
    obtain ⟨asked, waiting⟩ | ⟨rfl, stored⟩ := certified
    · rw [evident.waiting parent child waiting]
      exact because.certified asked
    obtain ⟨here, slotEvident⟩ := evident.slots parent.slot
    have certified := slotEvident.fallbacks parent.hash stored
    rw [here] at certified
    have link := because
    rw [link]
    exact certified
  | certified asked ran =>
    obtain ⟨parentReady, entries⟩ := evident.parentReady.markNotarFallback (.inl (because.certified asked)) ran
    exact ⟨{ evident with parentReady }, reports.pushParents entries⟩
  | skipped asked ran =>
    obtain ⟨parentReady, entries⟩ := evident.parentReady.markSkipped (.inl (because.skipped asked)) ran
    exact ⟨{ evident with parentReady }, reports.pushParents entries⟩
  | repaired => exact ⟨evident, reports.events, reports.finalizations⟩

theorem Evident.acts (because : cause.Evident deployment log)
    (acts : PoolActs cause pool out after out') : after.Evident deployment log ∧ out'.Evident deployment log := by
  induction acts with
  | none => exact ⟨evident, reports⟩
  | next act _ ih =>
    obtain ⟨evident, reports⟩ := evident.act reports summable because act
    exact ih evident reports

theorem Evident.addValidCert (true : cert.Evident deployment log)
    (ran : pool.addValidCert cert out = .ok (after, out')) :
    after.Evident deployment log ∧ out'.Evident deployment log := by
  obtain ⟨out₁, acts, rfl⟩ := addValidCert_acts ran
  have because : (PoolCause.certStored cert).Evident deployment log := true
  obtain ⟨evident, reports⟩ := (evident.storeCert true).acts reports summable because acts
  exact ⟨evident, reports.pushEvent true⟩

theorem Evident.addValidCerts (true : ∀ cert ∈ certs, cert.Evident deployment log)
    (ran : pool.addValidCerts certs out = .ok (after, out')) :
    after.Evident deployment log ∧ out'.Evident deployment log := by
  induction certs generalizing pool out with
  | nil =>
    cases ran
    exact ⟨evident, reports⟩
  | cons first rest ih =>
    obtain ⟨⟨middle, out₁⟩, added, ran⟩ := bind_eq_ok.mp ran
    obtain ⟨evident, reports⟩ := evident.addValidCert reports summable (true first mem_cons_self) added
    exact ih evident reports (fun cert member => true cert (mem_cons_of_mem _ member)) ran

theorem Evident.addCert (unforged : cert.Unforged deployment log)
    (ran : pool.addCert cert out = .ok (answer, after, out')) :
    after.Evident deployment log ∧ out'.Evident deployment log := by
  obtain ⟨rfl, rfl⟩ | ⟨valid, added⟩ := addCert_cases ran
  · exact ⟨evident, reports⟩
  · rw [evident.info] at valid
    exact evident.addValidCert reports summable (Cert.Valid.evident summable valid unforged) added

theorem Evident.addBlock (content : deployment.parentOf block = parent)
    (ran : pool.addBlock block parent out = .ok (after, out')) :
    after.Evident deployment log ∧ out'.Evident deployment log := by
  have because : (PoolCause.blockAdded block parent).Evident deployment log := content
  exact evident.acts reports summable because (addBlock_acts ran)

/-- The pool takes the vote and counts its voter twice for a block. -/
def CountsTwice (pool : Pool) (vote : Vote) : Prop :=
  pool.Admits vote ∧ (pool.slotState vote.slot).CountsTwice vote

theorem Evident.addVote (single : ¬ pool.CountsTwice vote)
    (unforged : deployment.correct vote.signer → vote ∈ log) (ran : pool.addVote vote out = .ok (answer, after, out')) :
    after.Evident deployment log ∧ out'.Evident deployment log := by
  obtain ⟨_, rfl, rfl⟩ | ⟨admits, state, outputs, counted, adding⟩ := addVote_cases ran
  · exact ⟨evident, reports⟩
  obtain ⟨here, slotEvident⟩ := evident.slots vote.slot
  have single : ¬ (pool.slotState vote.slot).CountsTwice vote := fun twice => single ⟨admits, twice⟩
  obtain ⟨_, known, accepts⟩ := admits
  rw [evident.info] at known counted
  have added := SlotState.addVote_added counted
  have counted := slotEvident.withVote accepts here.symm known rfl single unforged
  have set := evident.setState (added.marks.upkeep.1.slot.trans ((SlotState.slot_withVote _ _ _).trans here))
    (counted.marks added.marks)
  have recorded : (pool.withCounted vote state).Evident deployment log := by
    rw [withCounted, recordOwn]
    split
    · exact ⟨set.info, set.slots, set.waiting, set.finality, set.parentReady⟩
    · exact set
  refine recorded.addValidCerts ?_ summable ?_ adding
  · refine reports.addEvents fun event member => ?_
    obtain ⟨sent, listed, rfl⟩ := mem_map.mp member
    have justified := added.events sent listed
    refine counted.event summable ?_
    cases vote <;> cases sent <;> exact justified
  · intro cert member
    exact counted.created summable (slotEvident.stored.tallied accepts here.symm) (added.certs cert member)

end

end Pool

end Karstflow.Alpenglow
