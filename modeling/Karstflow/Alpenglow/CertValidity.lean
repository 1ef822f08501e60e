import Karstflow.Alpenglow.PoolRules

namespace Karstflow.Alpenglow

open Data List

/-! # Are the certificates of a pool valid certificates?

The pool makes a certificate when the running stake of a slot completes a
quorum. Skip and final votes are stored before they are counted, so the
certificate has them all. Notar and notar-fallback votes are stored after they
are counted: the certificate lacks the vote that completed the quorum, and
without this vote there was no quorum.
-/

def Cert.Valid (info : EpochInfo) (cert : Cert) : Prop := cert.checkThreshold info = .ok true

theorem Cert.valid_iff {cert : Cert} :
    cert.Valid info ↔ info.stakeOf (fun id => cert.isSigner id = true) ≤ u64Max ∧
      match cert with
      | .fastFinal _ => info.isStrongQuorum (info.stakeOf fun id => cert.isSigner id = true) = true
      | _ => info.isQuorum (info.stakeOf fun id => cert.isSigner id = true) = true := by
  rw [Valid, checkThreshold, bind_eq_ok]
  simp only [signedStake_eq_ok]
  constructor
  · rintro ⟨stake, ⟨rfl, bounded⟩, met⟩
    refine ⟨bounded, ?_⟩
    cases cert <;> exact Except.ok.inj met
  · rintro ⟨bounded, met⟩
    refine ⟨_, ⟨rfl, bounded⟩, ?_⟩
    cases cert <;> exact congrArg Except.ok met

namespace SlotState

variable {state after : SlotState}

/-- A quorum of stored votes has its certificate, or it is in `pending`. -/
structure Certified (info : EpochInfo) (pending : List Cert) (state : SlotState) : Prop where
  notar : state.certs.notar = none → (∀ cert, .notar cert ∉ pending) →
    ∀ id hash, state.votedNotar id = some hash → info.isQuorum (state.notarStakeOf hash) = false
  fast : state.certs.fastFinalize = none → (∀ cert, .fastFinal cert ∉ pending) →
    ∀ id hash, state.votedNotar id = some hash → info.isStrongQuorum (state.notarStakeOf hash) = false
  fallback : ∀ hash, state.isNotarFallback hash = false →
    (∀ cert, .notarFallback cert ∈ pending → cert.blockHash ≠ hash) →
    ∀ id, state.votedNotar id = some hash ∨ state.votedFallback id hash →
      info.isQuorum (state.nfStakeOf hash + state.notarStakeOf hash) = false

structure Sound (info : EpochInfo) (pending : List Cert) (slot : Nat) (state : SlotState) : Prop where
  slot : state.slot = slot
  votes : StoredVotes state
  counts : Counts info state
  certified : Certified info pending state

theorem Certified.upkeep (certified : Certified info pending before)
    (upkeep : Upkeep before after) (same : after.certs = before.certs) : Certified info pending after := by
  obtain ⟨_, _, _, _, _, rfl⟩ := upkeep
  subst same
  exact ⟨certified.notar, certified.fast, certified.fallback⟩

theorem Sound.upkeep {slot : Nat} (sound : Sound info pending slot state)
    (upkeep : Upkeep state after) (same : after.certs = state.certs) : Sound info pending slot after :=
  ⟨upkeep.slot.trans sound.slot, upkeep.storedVotes sound.votes, upkeep.counts sound.counts,
    sound.certified.upkeep upkeep same⟩

theorem Sound.new (info : EpochInfo) (pending : List Cert) (slot ownId : Nat) :
    Sound info pending slot (.new slot ownId) := by
  refine ⟨rfl, .new slot ownId, .new info slot ownId, ?_⟩
  have unvoted : ∀ id hash, ¬ (SlotState.new slot ownId).votedNotar id = some hash := by
    simp [votedNotar, vv, SlotState.new, ValidatorVotes.default]
  have noFallback : ∀ id hash, ¬ (SlotState.new slot ownId).votedFallback id hash := by
    simp [votedFallback, SlotState.new, Table.contains]
  constructor
  · exact fun _ _ id hash voted => absurd voted (unvoted id hash)
  · exact fun _ _ id hash voted => absurd voted (unvoted id hash)
  · rintro hash _ _ id (voted | voted)
    · exact absurd voted (unvoted id hash)
    · exact absurd voted (noFallback id hash)

theorem Certified.weaken (certified : Certified info pending state)
    (part : ∀ cert ∈ pending, cert ∈ more) : Certified info more state := by
  refine ⟨?_, ?_, ?_⟩
  · exact fun missing absent => certified.notar missing fun cert member => absent cert (part _ member)
  · exact fun missing absent => certified.fast missing fun cert member => absent cert (part _ member)
  · exact fun hash missing absent => certified.fallback hash missing fun cert member => absent cert (part _ member)

theorem missing_of_addCert (state : SlotState) (cert : Cert) :
    ((state.addCert cert).certs.notar = none → state.certs.notar = none ∧ ∀ other, cert ≠ .notar other) ∧
    ((state.addCert cert).certs.fastFinalize = none →
      state.certs.fastFinalize = none ∧ ∀ other, cert ≠ .fastFinal other) ∧
    ∀ hash, (state.addCert cert).isNotarFallback hash = false →
      state.isNotarFallback hash = false ∧ ∀ other, cert = .notarFallback other → other.blockHash ≠ hash := by
  cases cert with
  | notarFallback cert =>
    rw [addCert]
    split
    · rename_i known
      refine ⟨by simp, by simp, fun hash missing => ?_⟩
      refine ⟨missing, ?_⟩
      rintro other same rfl
      cases same
      rw [known] at missing
      cases missing
    · refine ⟨by simp, by simp, fun hash missing => ?_⟩
      simp only [isNotarFallback, any_append, any_cons, any_nil, Bool.or_false,
        Bool.or_eq_false_iff, decide_eq_false_iff_not] at missing
      refine ⟨missing.1, ?_⟩
      rintro other same
      cases same
      exact missing.2
  | _ => simp [addCert, isNotarFallback]

theorem Certified.addCert {rest : List Cert} (certified : Certified info (cert :: rest) state) :
    Certified info rest (state.addCert cert) := by
  have missingBefore := state.missing_of_addCert cert
  have upkeep := state.addCert_upkeep cert
  generalize state.addCert cert = after at missingBefore upkeep ⊢
  obtain ⟨_, _, _, _, _, rfl⟩ := upkeep
  obtain ⟨notar, fast, fallback⟩ := missingBefore
  refine ⟨?_, ?_, ?_⟩
  · intro missing absent
    have before := notar missing
    exact certified.notar before.1 (by simpa [eq_comm, before.2] using absent)
  · intro missing absent
    have before := fast missing
    exact certified.fast before.1 (by simpa [eq_comm, before.2] using absent)
  · intro hash missing absent
    have before := fallback hash missing
    refine certified.fallback hash before.1 fun other member => ?_
    obtain same | later := mem_cons.mp member
    · exact before.2 other same.symm
    · exact absent other later

/-- The vote completes a quorum of notar or notar-fallback votes that has no
certificate yet. -/
def Completes (info : EpochInfo) (state : SlotState) (stake : Nat) : Vote → Prop
  | .notar vote =>
    let notarStake := state.notarStakeOf vote.blockHash + stake
    info.isQuorum (state.nfStakeOf vote.blockHash + notarStake) = true ∧
        state.isNotarFallback vote.blockHash = false ∨
      info.isQuorum notarStake = true ∧ state.certs.notar = none ∨
      info.isStrongQuorum notarStake = true ∧ state.certs.fastFinalize = none
  | .notarFallback vote =>
    info.isQuorum (state.nfStakeOf vote.blockHash + stake + state.notarStakeOf vote.blockHash) = true ∧
      state.isNotarFallback vote.blockHash = false
  | _ => False

section

variable (state vote stake)

theorem certs_withVote : (state.withVote vote stake).certs = state.certs := by
  cases vote <;> rfl

theorem certs_tallied : (state.tallied vote stake).certs = state.certs := by
  cases vote <;> rfl

theorem stakes_tallied (hash : BlockHash) :
    (state.tallied vote stake).notarStakeOf hash = (state.withVote vote stake).notarStakeOf hash ∧
      (state.tallied vote stake).nfStakeOf hash = (state.withVote vote stake).nfStakeOf hash := by
  cases vote <;> exact ⟨rfl, rfl⟩

theorem votedNotar_tallied (id : Nat) : (state.tallied vote stake).votedNotar id = state.votedNotar id := by
  have written := state.votedNotar_withVote vote stake id
  cases vote with
  | notar cast | notarFallback cast => rfl
  | _ => exact written

theorem votedFallback_tallied (id : Nat) (hash : BlockHash) :
    (state.tallied vote stake).votedFallback id hash ↔ state.votedFallback id hash := by
  cases vote <;> exact .rfl

theorem slotVotes_tallied {id : Nat} :
    ((state.tallied vote stake).votedSkip id ↔ (state.withVote vote stake).votedSkip id) ∧
      ((state.tallied vote stake).votedSkipFallback id ↔ (state.withVote vote stake).votedSkipFallback id) ∧
      ((state.tallied vote stake).votedFinal id ↔ (state.withVote vote stake).votedFinal id) := by
  cases vote with
  | notar cast =>
    exact ⟨(state.votedSkip_withVote (.notar cast) stake id).symm,
      (state.votedSkipFallback_withVote (.notar cast) stake id).symm,
      (state.votedFinal_withVote (.notar cast) stake id).symm⟩
  | _ => exact ⟨.rfl, .rfl, .rfl⟩

theorem slotStakes_tallied : (state.tallied vote stake).skipStake = (state.withVote vote stake).skipStake ∧
      (state.tallied vote stake).skipFallbackStake = (state.withVote vote stake).skipFallbackStake ∧
      (state.tallied vote stake).finalizeStake = (state.withVote vote stake).finalizeStake := by
  cases vote <;> exact ⟨rfl, rfl, rfl⟩

end

/-- A voter for `hash` is new only if the vote is for `hash`; otherwise the
stake is as before. -/
theorem votedNotar_cases {id : Nat} {hash : BlockHash} (voted : (state.withVote vote stake).votedNotar id = some hash) :
    (∃ cast, vote = .notar cast ∧ cast.blockHash = hash) ∨ state.votedNotar id = some hash ∧
        (state.withVote vote stake).notarStakeOf hash = state.notarStakeOf hash := by
  rw [votedNotar_withVote] at voted
  rw [notarStakeOf_withVote]
  cases vote with
  | notar cast =>
    by_cases same : cast.blockHash = hash
    · exact .inl ⟨cast, rfl, same⟩
    refine .inr ⟨?_, if_neg fun equal => same equal.symm⟩
    dsimp only at voted
    split at voted
    · exact absurd (Option.some.inj voted) same
    · exact voted
  | _ => exact .inr ⟨voted, rfl⟩

theorem votedFor_cases {id : Nat} {hash : BlockHash} (voted : (state.withVote vote stake).votedNotar id = some hash ∨
      (state.withVote vote stake).votedFallback id hash) :
    (∃ cast, (vote = .notar cast ∨ vote = .notarFallback cast) ∧ cast.blockHash = hash) ∨
      (state.votedNotar id = some hash ∨ state.votedFallback id hash) ∧
        (state.withVote vote stake).notarStakeOf hash = state.notarStakeOf hash ∧
        (state.withVote vote stake).nfStakeOf hash = state.nfStakeOf hash := by
  rw [votedNotar_withVote, votedFallback_withVote] at voted
  rw [notarStakeOf_withVote, nfStakeOf_withVote]
  cases vote with
  | notar cast =>
    by_cases same : cast.blockHash = hash
    · exact .inl ⟨cast, .inl rfl, same⟩
    refine .inr ⟨?_, if_neg fun equal => same equal.symm, rfl⟩
    refine voted.imp_left ?_
    intro voted
    dsimp only at voted
    split at voted
    · exact absurd (Option.some.inj voted) same
    · exact voted
  | notarFallback cast =>
    by_cases same : cast.blockHash = hash
    · exact .inl ⟨cast, .inr rfl, same⟩
    refine .inr ⟨?_, rfl, if_neg fun equal => same equal.symm⟩
    refine voted.imp_right ?_
    rintro (⟨_, equal⟩ | voted)
    · exact absurd equal.symm same
    · exact voted
  | _ => exact .inr ⟨voted, rfl, rfl⟩

/-- The quorums for which the vote is not responsible have not changed. -/
theorem Certified.withVote {certs : List Cert} (certified : Certified info [] state)
    (votes : StoredVotes (state.tallied vote stake)) (makes : Makes info (state.tallied vote stake) vote certs) :
    Certified info certs (state.withVote vote stake) := by
  have stakes := state.stakes_tallied vote stake
  have none : ∀ {cert : Cert}, cert ∉ ([] : List Cert) := not_mem_nil
  refine ⟨?_, ?_, ?_⟩
  · intro missing absent id hash voted
    rw [certs_withVote] at missing
    obtain ⟨cast, rfl, rfl⟩ | ⟨before, same⟩ := votedNotar_cases voted
    · apply Bool.eq_false_iff.mpr
      intro quorum
      obtain ⟨cert, _, member⟩ := makes.2.1 quorum (by rw [certs_tallied]; exact missing)
      exact absent cert member
    · rw [same]
      exact certified.notar missing (fun _ => none) id hash before
  · intro missing absent id hash voted
    rw [certs_withVote] at missing
    obtain ⟨cast, rfl, rfl⟩ | ⟨before, same⟩ := votedNotar_cases voted
    · apply Bool.eq_false_iff.mpr
      intro quorum
      obtain ⟨cert, _, member⟩ := makes.2.2 quorum (by rw [certs_tallied]; exact missing)
      exact absent cert member
    · rw [same]
      exact certified.fast missing (fun _ => none) id hash before
  · intro hash missing absent id voted
    have missing : (state.tallied vote stake).isNotarFallback hash = false ∧ state.isNotarFallback hash = false := by
      rw [isNotarFallback, certs_withVote] at missing
      exact ⟨by rw [isNotarFallback, certs_tallied]; exact missing, missing⟩
    obtain ⟨cast, responsible, rfl⟩ | ⟨before, sameNotar, sameNf⟩ := votedFor_cases voted
    · rw [← (stakes cast.blockHash).1, ← (stakes cast.blockHash).2]
      apply Bool.eq_false_iff.mpr
      intro quorum
      have made : MakesFallback info (state.tallied vote stake) cast.blockHash certs := by
        obtain rfl | rfl := responsible
        · exact makes.1
        · exact makes
      obtain ⟨cert, made, member⟩ := made quorum missing.1
      exact absent cert member (votes.fallbackCert_own made).2
    · rw [sameNotar, sameNf]
      exact certified.fallback hash missing.2 (fun _ member => absurd member none) id before

theorem StoredVotes.tallied (votes : StoredVotes state) (accepts : state.Accepts vote)
    (here : vote.slot = state.slot) : StoredVotes (state.tallied vote stake) := by
  cases vote with
  | notar cast | notarFallback cast =>
    refine ⟨?_, votes.fallbackHash, votes.notarNotSkip, votes.skipOnce⟩
    intro id other held
    exact votes.own id other (by cases other <;> exact held)
  | skip cast | skipFallback cast | final cast => exact votes.withVote accepts here

theorem Sound.withVote {slot : Nat} (sound : Sound info [] slot state)
    (accepts : state.Accepts vote) (here : vote.slot = slot) (known : vote.signer < info.validatorCnt)
    (added : Added info state vote (info.stakeAt vote.signer) after out) : Sound info out.certs slot after := by
  have here := here.trans sound.slot.symm
  have votes : StoredVotes (state.withVote vote (info.stakeAt vote.signer)) := sound.votes.withVote accepts here
  have whole : Sound info out.certs slot (state.withVote vote (info.stakeAt vote.signer)) :=
    ⟨(state.slot_withVote vote _).trans sound.slot, votes, sound.counts.withVote accepts known rfl,
      sound.certified.withVote (sound.votes.tallied accepts here) added.makes⟩
  obtain ⟨upkeep, certs, _⟩ := added.marks.upkeep
  exact whole.upkeep upkeep certs

theorem fractionIsMet_mono (ordered : less ≤ more)
    (met : fractionIsMet less total numer denom = true) : fractionIsMet more total numer denom = true := by
  simp only [fractionIsMet, decide_eq_true_eq] at met ⊢
  exact le_trans met (Nat.mul_le_mul_right denom ordered)

section CreatedCerts

variable {slot : Nat} (sound : Sound info [] slot state)
  (votes : StoredVotes (state.tallied vote stake)) (created : Created info (state.tallied vote stake) cert)
include sound votes created

/-- Notar, notar-fallback and fast-final certificates lack the vote that completed them. -/
theorem Created.not_valid (late : (∀ skip, cert ≠ .skip skip) ∧ ∀ final, cert ≠ .final final) : ¬ cert.Valid info := by
  have none : ∀ {cert : Cert}, cert ∉ ([] : List Cert) := not_mem_nil
  have backs := (created.backs votes).2
  rw [Cert.valid_iff]
  rintro ⟨_, met⟩
  cases cert with
  | notar cert =>
    obtain ⟨_, missing, ⟨id, voted⟩, signers⟩ := backs
    rw [votedNotar_tallied] at voted
    simp only [votedNotar_tallied] at signers
    rw [EpochInfo.stakeOf_congr signers, ← sound.counts.notar] at met
    rw [sound.certified.notar (state.certs_tallied vote stake ▸ missing) (fun _ => none) id _ voted] at met
    cases met
  | fastFinal cert =>
    obtain ⟨_, missing, ⟨id, voted⟩, signers⟩ := backs
    rw [votedNotar_tallied] at voted
    simp only [votedNotar_tallied] at signers
    rw [EpochInfo.stakeOf_congr signers, ← sound.counts.notar] at met
    rw [sound.certified.fast (state.certs_tallied vote stake ▸ missing) (fun _ => none) id _ voted] at met
    cases met
  | notarFallback cert =>
    obtain ⟨_, missing, ⟨id, voted⟩, signers⟩ := backs
    rw [votedNotar_tallied, votedFallback_tallied] at voted
    simp only [votedNotar_tallied, votedFallback_tallied] at signers
    have missing : state.isNotarFallback cert.blockHash = false := by
      rw [isNotarFallback, ← certs_tallied]
      exact missing
    have less : info.stakeOf (fun id => Cert.isSigner (.notarFallback cert) id = true) ≤
        state.nfStakeOf cert.blockHash + state.notarStakeOf cert.blockHash := by
      rw [EpochInfo.stakeOf_congr signers, sound.counts.notar, sound.counts.fallback, add_comm]
      exact weigh_or_le _ _ _ _
    have quorum : info.isQuorum (state.nfStakeOf cert.blockHash + state.notarStakeOf cert.blockHash) = true :=
      fractionIsMet_mono less met
    rw [sound.certified.fallback _ missing (fun _ member => absurd member none) id voted] at quorum
    cases quorum
  | skip cert => exact late.1 cert rfl
  | final cert => exact late.2 cert rfl

theorem Created.valid (accepts : state.Accepts vote) (known : vote.signer < info.validatorCnt)
    (paid : stake = info.stakeAt vote.signer) (here : vote.slot = slot)
    (early : (∃ skip, cert = .skip skip) ∨ ∃ final, cert = .final final) : cert.Valid info := by
  have counts := sound.counts.withVote accepts known paid
  have whole : StoredVotes (state.withVote vote stake) :=
    sound.votes.withVote accepts (here.trans sound.slot.symm)
  obtain ⟨skipStake, skipFallbackStake, finalizeStake⟩ := state.slotStakes_tallied vote stake
  have backs := (created.backs votes).2
  rw [Cert.valid_iff]
  obtain ⟨cert, rfl⟩ | ⟨cert, rfl⟩ := early
  · obtain ⟨quorum, bounded, signers⟩ := backs
    have signed : info.stakeOf (fun id => Cert.isSigner (.skip cert) id = true) =
        (state.tallied vote stake).skipStake + (state.tallied vote stake).skipFallbackStake := by
      rw [skipStake, skipFallbackStake, counts.skip, counts.skipFallback]
      refine (EpochInfo.stakeOf_congr ?_).trans (weigh_or fun id _ => whole.skipOnce id)
      intro id
      rw [signers id, (state.slotVotes_tallied vote stake).1, (state.slotVotes_tallied vote stake).2.1]
    rw [signed]
    exact ⟨bounded, quorum⟩
  · obtain ⟨quorum, bounded, signers⟩ := backs
    have signed : info.stakeOf (fun id => Cert.isSigner (.final cert) id = true) =
        (state.tallied vote stake).finalizeStake := by
      rw [finalizeStake, counts.final]
      apply EpochInfo.stakeOf_congr
      intro id
      rw [signers id, (state.slotVotes_tallied vote stake).2.2]
    rw [signed]
    exact ⟨bounded, quorum⟩

theorem Created.completes (late : (∀ skip, cert ≠ .skip skip) ∧ ∀ final, cert ≠ .final final) :
    Completes info state stake vote := by
  have none : ∀ {cert : Cert}, cert ∉ ([] : List Cert) := not_mem_nil
  have stakes := state.stakes_tallied vote stake
  have backs := (created.backs votes).2
  cases cert with
  | notar cert =>
    obtain ⟨quorum, missing, ⟨id, voted⟩, _⟩ := backs
    rw [votedNotar_tallied] at voted
    rw [(stakes _).1, notarStakeOf_withVote] at quorum
    rw [certs_tallied] at missing
    have old := sound.certified.notar missing (fun _ => none) id _ voted
    cases vote with
    | notar cast =>
      dsimp only at quorum
      split at quorum
      · next same => exact .inr (.inl ⟨same ▸ quorum, missing⟩)
      · rw [old] at quorum
        cases quorum
    | _ =>
      rw [old] at quorum
      cases quorum
  | fastFinal cert =>
    obtain ⟨quorum, missing, ⟨id, voted⟩, _⟩ := backs
    rw [votedNotar_tallied] at voted
    rw [(stakes _).1, notarStakeOf_withVote] at quorum
    rw [certs_tallied] at missing
    have old := sound.certified.fast missing (fun _ => none) id _ voted
    cases vote with
    | notar cast =>
      dsimp only at quorum
      split at quorum
      · next same => exact .inr (.inr ⟨same ▸ quorum, missing⟩)
      · rw [old] at quorum
        cases quorum
    | _ =>
      rw [old] at quorum
      cases quorum
  | notarFallback cert =>
    obtain ⟨quorum, missing, ⟨id, voted⟩, _⟩ := backs
    rw [votedNotar_tallied, votedFallback_tallied] at voted
    rw [(stakes _).1, (stakes _).2, notarStakeOf_withVote, nfStakeOf_withVote] at quorum
    have missing : state.isNotarFallback cert.blockHash = false := by
      rw [isNotarFallback, ← certs_tallied]
      exact missing
    have old := sound.certified.fallback _ missing (fun _ member => absurd member none) id voted
    cases vote with
    | notar cast =>
      dsimp only at quorum
      split at quorum
      · next same => exact .inl ⟨same ▸ quorum, same ▸ missing⟩
      · rw [old] at quorum
        cases quorum
    | notarFallback cast =>
      dsimp only at quorum
      split at quorum
      · next same => exact ⟨same ▸ quorum, same ▸ missing⟩
      · rw [old] at quorum
        cases quorum
    | _ =>
      rw [old] at quorum
      cases quorum
  | skip cert => exact absurd rfl (late.1 cert)
  | final cert => exact absurd rfl (late.2 cert)

end CreatedCerts

theorem Completes.creates (completes : Completes info state stake vote)
    (added : Added info state vote stake after out) :
    ∃ cert ∈ out.certs, (∀ skip, cert ≠ .skip skip) ∧ ∀ final, cert ≠ .final final := by
  have makes := added.makes
  have stakes := state.stakes_tallied vote stake
  cases vote with
  | notar cast =>
    have notarStake : (state.tallied (.notar cast) stake).notarStakeOf cast.blockHash =
        state.notarStakeOf cast.blockHash + stake := by
      rw [(stakes _).1, notarStakeOf_withVote]
      exact if_pos rfl
    obtain ⟨fallback, notar, fast⟩ := makes
    obtain ⟨quorum, missing⟩ | ⟨quorum, missing⟩ | ⟨quorum, missing⟩ := completes
    · obtain ⟨cert, _, member⟩ := fallback (by rw [notarStake]; exact quorum) missing
      exact ⟨_, member, fun skip => by simp, fun final => by simp⟩
    · obtain ⟨cert, _, member⟩ := notar (by rw [notarStake]; exact quorum) missing
      exact ⟨_, member, fun skip => by simp, fun final => by simp⟩
    · obtain ⟨cert, _, member⟩ := fast (by rw [notarStake]; exact quorum) missing
      exact ⟨_, member, fun skip => by simp, fun final => by simp⟩
  | notarFallback cast =>
    have nfStake : (state.tallied (.notarFallback cast) stake).nfStakeOf cast.blockHash =
        state.nfStakeOf cast.blockHash + stake := by
      rw [(stakes _).2, nfStakeOf_withVote]
      exact if_pos rfl
    obtain ⟨cert, _, member⟩ := makes (by rw [nfStake]; exact completes.1) completes.2
    exact ⟨_, member, fun skip => by simp, fun final => by simp⟩
  | _ => exact completes.elim

end SlotState

end Karstflow.Alpenglow
