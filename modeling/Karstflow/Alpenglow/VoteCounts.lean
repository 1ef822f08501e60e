import Karstflow.Alpenglow.Counting

namespace Karstflow.Alpenglow

open Data List Table
open Option hiding mem_map

/-! # The running stakes

The running stakes of a slot are the stakes of the validators whose votes are
stored, and a certificate made of the stored votes has these validators as its
signers.
-/

namespace EpochInfo

variable {info : EpochInfo}

theorem stakeOf_congr (same : ∀ id, p id ↔ q id) : info.stakeOf p = info.stakeOf q :=
  weigh_congr fun id _ => same id

end EpochInfo

namespace SlotState

section

variable (state : SlotState) (validator : Nat)

def votedNotar : Option BlockHash :=
  (state.vv validator).notar.map BlockVote.blockHash

def votedFallback (hash : BlockHash) : Prop :=
  state.nfVotes.contains (validator, hash) = true

def votedSkip : Prop := (state.vv validator).skip.isSome = true

def votedSkipFallback : Prop :=
  (state.vv validator).skipFallback.isSome = true

def votedFinal : Prop := (state.vv validator).finalize.isSome = true

def Holds : Vote → Prop
  | .notar vote => (state.vv validator).notar = some vote
  | .notarFallback vote => state.nfVotes.get (validator, vote.blockHash) = some vote
  | .skip vote => (state.vv validator).skip = some vote
  | .skipFallback vote => (state.vv validator).skipFallback = some vote
  | .final vote => (state.vv validator).finalize = some vote

end

variable {info : EpochInfo} {state after : SlotState} {hash : BlockHash}

/-- The stored votes are the voters' own, for this slot, and no voter has two
votes that exclude each other. -/
structure StoredVotes (state : SlotState) : Prop where
  own : ∀ id vote, state.Holds id vote → vote.slot = state.slot ∧ vote.signer = id
  fallbackHash : ∀ id hash vote, state.nfVotes.get (id, hash) = some vote → vote.blockHash = hash
  notarNotSkip : ∀ id, (state.vv id).notar.isSome = true → ¬ state.votedSkip id
  skipOnce : ∀ id, state.votedSkip id → ¬ state.votedSkipFallback id

/-- The top stake is the stake of a block. -/
def Attained (state : SlotState) : Prop := ∃ hash, state.notarStakeOf hash = state.topNotarStake

/-- The running stakes are those of the voters. -/
structure Counts (info : EpochInfo) (state : SlotState) : Prop where
  notar : ∀ hash, state.notarStakeOf hash = info.stakeOf fun id => state.votedNotar id = some hash
  fallback : ∀ hash, state.nfStakeOf hash = info.stakeOf fun id => state.votedFallback id hash
  skip : state.skipStake = info.stakeOf state.votedSkip
  skipFallback : state.skipFallbackStake = info.stakeOf state.votedSkipFallback
  final : state.finalizeStake = info.stakeOf state.votedFinal
  notarOrSkip : state.notarOrSkipStake =
    info.stakeOf fun id => (state.vv id).notar.isSome = true ∨ state.votedSkip id
  top : ∀ hash, state.notarStakeOf hash ≤ state.topNotarStake
  attained : state.Attained

/-- Neither a duplicate nor an offence. -/
def Accepts (state : SlotState) (vote : Vote) : Prop :=
  state.checkSlashableOffence vote = none ∧ state.shouldIgnoreVote vote = false

theorem Accepts.fresh (accepts : state.Accepts vote) :
    match vote with
    | .notar vote => (state.vv vote.signer).notar = none ∧ (state.vv vote.signer).skip = none
    | .notarFallback vote => ¬ state.votedFallback vote.signer vote.blockHash
    | .skip vote => (state.vv vote.signer).notar = none ∧ (state.vv vote.signer).skip = none ∧
        (state.vv vote.signer).skipFallback = none
    | .skipFallback vote => (state.vv vote.signer).skip = none ∧ (state.vv vote.signer).skipFallback = none
    | .final vote => (state.vv vote.signer).finalize = none := by
  obtain ⟨innocent, new⟩ := accepts
  cases vote with
  | notar vote =>
    simp only [checkSlashableOffence, Vote.signer] at innocent
    simp only [shouldIgnoreVote, Vote.signer] at new
    refine ⟨isNone_iff_eq_none.mp (by simpa using new), ?_⟩
    cases skipped : (state.vv vote.signer).skip with
    | none => rfl
    | some skip => simp [skipped] at innocent
  | notarFallback vote =>
    simp only [shouldIgnoreVote, Vote.signer] at new
    exact Bool.eq_false_iff.mp new
  | skip vote =>
    simp only [checkSlashableOffence, Vote.signer] at innocent
    simp only [shouldIgnoreVote, Vote.signer, Bool.or_eq_false_iff, isSome_eq_false_iff, isNone_iff_eq_none] at new
    refine ⟨?_, new⟩
    cases notarized : (state.vv vote.signer).notar with
    | none => rfl
    | some notar =>
      simp only [notarized, isSome_some, if_true] at innocent
      split at innocent <;> cases innocent
  | skipFallback vote =>
    simp only [shouldIgnoreVote, Vote.signer, Bool.or_eq_false_iff, isSome_eq_false_iff, isNone_iff_eq_none] at new
    exact new
  | final vote =>
    simp only [shouldIgnoreVote, Vote.signer, isSome_eq_false_iff, isNone_iff_eq_none] at new
    exact new

theorem StoredVotes.new (slot ownId : Nat) : StoredVotes (.new slot ownId) := by
  refine ⟨?_, ?_, ?_, ?_⟩
  · intro id vote held
    cases vote <;> simp [Holds, SlotState.new, vv, ValidatorVotes.default] at held
  all_goals simp [SlotState.new, vv, votedSkip, ValidatorVotes.default]

theorem Counts.new (info : EpochInfo) (slot ownId : Nat) : Counts info (.new slot ownId) := by
  have none : ∀ p : Nat → Prop, (∀ id, ¬ p id) → 0 = info.stakeOf p :=
    fun p never => (weigh_eq_zero fun id _ => never id).symm
  constructor
  · exact fun hash => none _ (by simp [votedNotar, SlotState.new, vv, ValidatorVotes.default])
  · exact fun hash => none _ (by simp [votedFallback, SlotState.new, Table.contains])
  · exact none _ (by simp [votedSkip, SlotState.new, vv, ValidatorVotes.default])
  · exact none _ (by simp [votedSkipFallback, SlotState.new, vv, ValidatorVotes.default])
  · exact none _ (by simp [votedFinal, SlotState.new, vv, ValidatorVotes.default])
  · exact none _ (by simp [votedSkip, SlotState.new, vv, ValidatorVotes.default])
  · exact fun hash => le_refl _
  · exact ⟨0, rfl⟩

/-- Only the parents, the certificates and the marks on events differ. -/
def Upkeep (before after : SlotState) : Prop :=
  ∃ parents pendingS2n sentS2n sentSafeToSkip certs,
    after = { before with parents, pendingS2n, sentS2n, sentSafeToSkip, certs }

namespace Upkeep

theorem refl (state : SlotState) : Upkeep state state := ⟨_, _, _, _, _, rfl⟩

theorem trans (first : Upkeep before middle) (second : Upkeep middle after) : Upkeep before after := by
  obtain ⟨_, _, _, _, _, rfl⟩ := first
  obtain ⟨parents, pending, sent, skip, certs, rfl⟩ := second
  exact ⟨parents, pending, sent, skip, certs, rfl⟩

section

variable (upkeep : Upkeep before after)

include upkeep

theorem slot : after.slot = before.slot := by
  obtain ⟨_, _, _, _, _, rfl⟩ := upkeep
  rfl

theorem holds {id : Nat} (held : after.Holds id vote) : before.Holds id vote := by
  obtain ⟨_, _, _, _, _, rfl⟩ := upkeep
  cases vote <;> exact held

theorem storedVotes (stored : StoredVotes before) : StoredVotes after := by
  have own : ∀ id vote, after.Holds id vote → vote.slot = after.slot ∧ vote.signer = id := by
    intro id vote held
    rw [upkeep.slot]
    exact stored.own id vote (upkeep.holds held)
  obtain ⟨_, _, _, _, _, rfl⟩ := upkeep
  exact ⟨own, stored.fallbackHash, stored.notarNotSkip, stored.skipOnce⟩

theorem counts (counts : Counts info before) : Counts info after := by
  obtain ⟨_, _, _, _, _, rfl⟩ := upkeep
  exact ⟨counts.notar, counts.fallback, counts.skip, counts.skipFallback, counts.final, counts.notarOrSkip, counts.top,
    counts.attained⟩

end

end Upkeep

theorem Marks.upkeep (marks : Marks before after) :
    Upkeep before after ∧ after.certs = before.certs ∧ after.parents = before.parents := by
  obtain ⟨pending, sent, skip, rfl⟩ := marks
  exact ⟨⟨_, pending, sent, skip, _, rfl⟩, rfl, rfl⟩

theorem addCert_upkeep (state : SlotState) (cert : Cert) : Upkeep state (state.addCert cert) := by
  cases cert with
  | notarFallback cert =>
    rw [addCert]
    split
    · exact .refl state
    · exact ⟨_, _, _, _, _, rfl⟩
  | _ => exact ⟨_, _, _, _, _, rfl⟩

theorem notifyParentKnown_upkeep (state : SlotState) (hash : BlockHash) :
    Upkeep state (state.notifyParentKnown hash) ∧ (state.notifyParentKnown hash).certs = state.certs := by
  rw [notifyParentKnown]
  split
  · exact ⟨.refl state, rfl⟩
  · exact ⟨⟨_, _, _, _, _, rfl⟩, rfl⟩

theorem notifyParentCertified_spec (ran : state.notifyParentCertified hash info = .ok (after, notify)) :
    Marks { state with parents := state.parents.insert hash .certified } after ∧
      ∀ event, notify = .event event →
        Justifies info { state with parents := state.parents.insert hash .certified } event := by
  obtain ⟨_, _, ran⟩ := bind_eq_ok.mp ran
  dsimp only at ran
  split at ran
  · cases ran
    exact ⟨.refl _, fun event other => by cases other⟩
  obtain ⟨⟨checked, answer⟩, answered, done⟩ := bind_eq_ok.mp ran
  obtain ⟨marks, safe⟩ := checkSafeToNotar_spec answered
  have here : checked.slot = state.slot := by
    obtain ⟨_, _, _, rfl⟩ := marks
    rfl
  cases answer with
  | safeToNotar =>
    cases done
    refine ⟨marks, fun event sent => ?_⟩
    cases sent
    exact ⟨here, safe rfl⟩
  | missingBlock | awaiting =>
    cases done
    exact ⟨marks, fun event other => by cases other⟩

theorem notifyParentCertified_upkeep (ran : state.notifyParentCertified hash info = .ok (after, notify)) :
    Upkeep state after ∧ after.certs = state.certs := by
  obtain ⟨pending, sent, skip, rfl⟩ := (notifyParentCertified_spec ran).1
  exact ⟨⟨_, pending, sent, skip, _, rfl⟩, rfl⟩

/-- The voter's votes with one more; a notar-fallback vote is stored elsewhere. -/
def castVote (votes : ValidatorVotes) : Vote → ValidatorVotes
  | .notar vote => { votes with notar := some vote }
  | .notarFallback _ => votes
  | .skip vote => { votes with skip := some vote }
  | .skipFallback vote => { votes with skipFallback := some vote }
  | .final vote => { votes with finalize := some vote }

/-- The state after the vote, without the marks. -/
def withVote (state : SlotState) (vote : Vote) (stake : Nat) : SlotState :=
  (state.tallied vote stake).stored vote

section

variable (state vote stake) (id : Nat)

theorem slot_withVote : (state.withVote vote stake).slot = state.slot := by
  cases vote <;> rfl

theorem vv_withVote : (state.withVote vote stake).vv id =
      if id = vote.signer then castVote (state.vv id) vote else state.vv id := by
  have set : ∀ (changed : SlotState) (votes : ValidatorVotes), votes = castVote (state.vv vote.signer) vote →
      changed.votes = (state.setVotes vote.signer votes).votes →
      changed.vv id = if id = vote.signer then castVote (state.vv id) vote else state.vv id := by
    intro changed votes cast same
    have lookup : (state.setVotes vote.signer votes).vv id = if id = vote.signer then votes else state.vv id := by
      simp only [vv, setVotes, get_insert]
      split <;> rfl
    rw [vv, ← same] at lookup
    rw [vv, lookup, cast]
    split
    · next here => rw [here]
    · rfl
  cases vote with
  | notar vote | skip vote | skipFallback vote | final vote => exact set _ _ rfl rfl
  | notarFallback vote => exact (ite_self _).symm

theorem nfVotes_withVote : (state.withVote vote stake).nfVotes.get key =
      match vote with
      | .notarFallback vote => if key = (vote.signer, vote.blockHash) then some vote else state.nfVotes.get key
      | _ => state.nfVotes.get key := by
  cases vote with
  | notarFallback vote => exact get_insert _ _ _ _
  | _ => rfl

theorem votedNotar_withVote : (state.withVote vote stake).votedNotar id =
      match vote with
      | .notar cast => if id = cast.signer then some cast.blockHash else state.votedNotar id
      | _ => state.votedNotar id := by
  rw [votedNotar, votedNotar, vv_withVote]
  split
  · cases vote <;> simp_all [castVote, Vote.signer]
  · cases vote <;> simp_all [Vote.signer]

theorem votedFallback_withVote : (state.withVote vote stake).votedFallback id hash ↔
      match vote with
      | .notarFallback cast => id = cast.signer ∧ hash = cast.blockHash ∨ state.votedFallback id hash
      | _ => state.votedFallback id hash := by
  rw [votedFallback, Table.contains, nfVotes_withVote]
  cases vote with
  | notarFallback cast =>
    dsimp only
    split
    · rename_i same
      cases same
      simp
    · rename_i different
      rw [or_iff_right fun both => different (by rw [both.1, both.2])]
      rfl
  | _ => rfl

theorem votedSkip_withVote : (state.withVote vote stake).votedSkip id ↔
      match vote with
      | .skip cast => id = cast.signer ∨ state.votedSkip id
      | _ => state.votedSkip id := by
  rw [votedSkip, votedSkip, vv_withVote]
  split
  · cases vote <;> simp_all [castVote, Vote.signer]
  · cases vote <;> simp_all [Vote.signer]

theorem votedSkipFallback_withVote : (state.withVote vote stake).votedSkipFallback id ↔
      match vote with
      | .skipFallback cast => id = cast.signer ∨ state.votedSkipFallback id
      | _ => state.votedSkipFallback id := by
  rw [votedSkipFallback, votedSkipFallback, vv_withVote]
  split
  · cases vote <;> simp_all [castVote, Vote.signer]
  · cases vote <;> simp_all [Vote.signer]

theorem votedFinal_withVote : (state.withVote vote stake).votedFinal id ↔
      match vote with
      | .final cast => id = cast.signer ∨ state.votedFinal id
      | _ => state.votedFinal id := by
  rw [votedFinal, votedFinal, vv_withVote]
  split
  · cases vote <;> simp_all [castVote, Vote.signer]
  · cases vote <;> simp_all [Vote.signer]

theorem notarStakeOf_withVote : (state.withVote vote stake).notarStakeOf hash =
      match vote with
      | .notar cast => if hash = cast.blockHash then state.notarStakeOf hash + stake else state.notarStakeOf hash
      | _ => state.notarStakeOf hash := by
  cases vote with
  | notar cast =>
    simp only [withVote, stored, tallied, setVotes, notarStakeOf, get_insert]
    split
    · next same => rw [same, getD_some]
    · rfl
  | _ => rfl

theorem nfStakeOf_withVote : (state.withVote vote stake).nfStakeOf hash =
      match vote with
      | .notarFallback cast => if hash = cast.blockHash then state.nfStakeOf hash + stake else state.nfStakeOf hash
      | _ => state.nfStakeOf hash := by
  cases vote with
  | notarFallback cast =>
    simp only [withVote, stored, tallied, nfStakeOf, get_insert]
    split
    · next same => rw [same, getD_some]
    · rfl
  | _ => rfl

end

theorem holds_withVote {id : Nat} (held : (state.withVote vote stake).Holds id other) :
    other = vote ∧ id = vote.signer ∨ state.Holds id other := by
  cases other with
  | notarFallback other =>
    rw [Holds, nfVotes_withVote] at held
    cases vote with
    | notarFallback vote =>
      dsimp only at held
      split at held
      · rename_i same
        cases held
        cases same
        exact .inl ⟨rfl, rfl⟩
      · exact .inr held
    | _ => exact .inr held
  | _ =>
    simp only [Holds, vv_withVote] at held
    split at held
    · rename_i same
      cases vote <;> first
        | exact .inr held
        | (cases held; exact .inl ⟨rfl, same⟩)
    · exact .inr held

theorem notar_isSome_iff {id : Nat} : (state.vv id).notar.isSome = true ↔ (state.votedNotar id).isSome = true := by
  rw [votedNotar, isSome_map]

theorem StoredVotes.withVote (storedVotes : StoredVotes state) (accepts : state.Accepts vote)
    (here : vote.slot = state.slot) : StoredVotes (state.withVote vote stake) := by
  have fresh := accepts.fresh
  refine ⟨?_, ?_, ?_, ?_⟩
  · intro id other held
    rw [slot_withVote]
    obtain ⟨rfl, rfl⟩ | before := holds_withVote held
    · exact ⟨here, rfl⟩
    · exact storedVotes.own id other before
  · intro id hash other held
    rw [nfVotes_withVote] at held
    cases vote with
    | notarFallback vote =>
      dsimp only at held
      split at held
      · rename_i same
        cases held
        cases same
        rfl
      · exact storedVotes.fallbackHash id hash other held
    | _ => exact storedVotes.fallbackHash id hash other held
  · intro id
    rw [votedSkip, vv_withVote]
    split
    · have before := storedVotes.notarNotSkip vote.signer
      cases vote <;> simp_all [castVote, votedSkip, Vote.signer]
    · exact storedVotes.notarNotSkip id
  · intro id
    rw [votedSkip, votedSkipFallback, vv_withVote]
    split
    · have before := storedVotes.skipOnce vote.signer
      cases vote <;> simp_all [castVote, votedSkip, votedSkipFallback, Vote.signer]
    · exact storedVotes.skipOnce id

theorem Attained.withVote (attained : state.Attained) (vote : Vote) (stake : Nat) :
    (state.withVote vote stake).Attained := by
  obtain ⟨top, attained⟩ := attained
  cases vote with
  | notar cast =>
    have raised : (state.withVote (.notar cast) stake).topNotarStake =
        max state.topNotarStake (state.notarStakeOf cast.blockHash + stake) := rfl
    by_cases higher : state.topNotarStake ≤ state.notarStakeOf cast.blockHash + stake
    · refine ⟨cast.blockHash, ?_⟩
      rw [raised, Nat.max_eq_right higher, notarStakeOf_withVote]
      exact if_pos rfl
    have different : top ≠ cast.blockHash := by
      rintro rfl
      omega
    refine ⟨top, ?_⟩
    rw [raised, Nat.max_eq_left (by omega), notarStakeOf_withVote, ← attained]
    exact if_neg different
  | _ => exact ⟨top, attained⟩

theorem Counts.top_le (counts : Counts info state) : state.topNotarStake ≤ state.notarOrSkipStake := by
  obtain ⟨hash, attained⟩ := counts.attained
  rw [← attained, counts.notar, counts.notarOrSkip]
  apply weigh_mono
  intro id _ voted
  exact .inl (notar_isSome_iff.mpr (by rw [voted]; rfl))

section WithVote

variable (counts : Counts info state) (accepts : state.Accepts vote)
  (known : vote.signer < info.validatorCnt) (paid : stake = info.stakeAt vote.signer)
include counts accepts known paid

omit counts accepts in
theorem add_stake {counted : Nat} {p q : Nat → Prop} (before : counted = info.stakeOf p)
    (unvoted : ¬ p vote.signer) (same : ∀ id, q id ↔ id = vote.signer ∨ p id) : counted + stake = info.stakeOf q := by
  rw [EpochInfo.stakeOf_congr same, before, paid, add_comm]
  exact (weigh_insert (mem_range.mpr known) unvoted).symm

theorem Counts.notar_withVote (hash : BlockHash) : (state.withVote vote stake).notarStakeOf hash =
      info.stakeOf fun id => (state.withVote vote stake).votedNotar id = some hash := by
  simp only [notarStakeOf_withVote, votedNotar_withVote]
  cases vote with
  | notar cast =>
    have unvoted : state.votedNotar cast.signer = none := by
      rw [votedNotar, accepts.fresh.1]
      rfl
    dsimp only
    split
    · rename_i same
      apply add_stake known paid (counts.notar hash)
      · simp [Vote.signer, unvoted]
      · intro id
        by_cases voter : id = cast.signer <;> simp [voter, same, Vote.signer]
    · rename_i different
      rw [counts.notar]
      apply EpochInfo.stakeOf_congr
      intro id
      by_cases voter : id = cast.signer
      · simp [voter, unvoted, Ne.symm different]
      · simp [voter]
  | _ => exact counts.notar hash

theorem Counts.fallback_withVote (hash : BlockHash) : (state.withVote vote stake).nfStakeOf hash =
      info.stakeOf fun id => (state.withVote vote stake).votedFallback id hash := by
  simp only [nfStakeOf_withVote, votedFallback_withVote]
  cases vote with
  | notarFallback cast =>
    dsimp only
    split
    · rename_i same
      apply add_stake known paid (counts.fallback hash)
      · rw [same]
        exact accepts.fresh
      · simp [same, Vote.signer]
    · rename_i different
      rw [counts.fallback]
      apply EpochInfo.stakeOf_congr
      simp [different]
  | _ => exact counts.fallback hash

theorem Counts.skip_withVote :
    (state.withVote vote stake).skipStake = info.stakeOf (state.withVote vote stake).votedSkip := by
  rw [EpochInfo.stakeOf_congr (state.votedSkip_withVote vote stake)]
  cases vote with
  | skip cast =>
    have unvoted : ¬ state.votedSkip cast.signer := by simp [votedSkip, accepts.fresh.2.1]
    exact add_stake known paid counts.skip unvoted fun id => .rfl
  | _ => exact counts.skip

theorem Counts.skipFallback_withVote : (state.withVote vote stake).skipFallbackStake =
      info.stakeOf (state.withVote vote stake).votedSkipFallback := by
  rw [EpochInfo.stakeOf_congr (state.votedSkipFallback_withVote vote stake)]
  cases vote with
  | skipFallback cast =>
    have unvoted : ¬ state.votedSkipFallback cast.signer := by simp [votedSkipFallback, accepts.fresh.2]
    exact add_stake known paid counts.skipFallback unvoted fun id => .rfl
  | _ => exact counts.skipFallback

theorem Counts.final_withVote :
    (state.withVote vote stake).finalizeStake = info.stakeOf (state.withVote vote stake).votedFinal := by
  rw [EpochInfo.stakeOf_congr (state.votedFinal_withVote vote stake)]
  cases vote with
  | final cast =>
    have fresh := accepts.fresh
    have unvoted : ¬ state.votedFinal cast.signer := by simp [votedFinal, fresh]
    exact add_stake known paid counts.final unvoted fun id => .rfl
  | _ => exact counts.final

theorem Counts.notarOrSkip_withVote : (state.withVote vote stake).notarOrSkipStake = info.stakeOf fun id =>
      ((state.withVote vote stake).vv id).notar.isSome = true ∨ (state.withVote vote stake).votedSkip id := by
  simp only [notar_isSome_iff, votedNotar_withVote, votedSkip_withVote]
  have before := counts.notarOrSkip
  simp only [notar_isSome_iff] at before
  cases vote with
  | notar cast =>
    have unvoted : ¬ ((state.votedNotar cast.signer).isSome = true ∨ state.votedSkip cast.signer) := by
      simp [votedNotar, votedSkip, accepts.fresh]
    apply add_stake known paid before unvoted
    intro id
    by_cases voter : id = cast.signer <;> simp [voter, Vote.signer]
  | skip cast =>
    have unvoted : ¬ ((state.votedNotar cast.signer).isSome = true ∨ state.votedSkip cast.signer) := by
      simp [votedNotar, votedSkip, accepts.fresh]
    exact add_stake known paid before unvoted fun id => or_left_comm
  | _ => exact before

omit accepts known paid in
theorem Counts.top_withVote (hash : BlockHash) :
    (state.withVote vote stake).notarStakeOf hash ≤ (state.withVote vote stake).topNotarStake := by
  rw [notarStakeOf_withVote]
  cases vote with
  | notar cast =>
    have raised : (state.withVote (.notar cast) stake).topNotarStake =
        max state.topNotarStake (state.notarStakeOf cast.blockHash + stake) := rfl
    have before := counts.top hash
    dsimp only
    rw [raised]
    split
    · rename_i same
      rw [same]
      exact Nat.le_max_right _ _
    · exact Nat.le_trans before (Nat.le_max_left _ _)
  | _ => exact counts.top hash

theorem Counts.withVote : Counts info (state.withVote vote stake) :=
  ⟨counts.notar_withVote accepts known paid, counts.fallback_withVote accepts known paid,
    counts.skip_withVote accepts known paid, counts.skipFallback_withVote accepts known paid,
    counts.final_withVote accepts known paid, counts.notarOrSkip_withVote accepts known paid, counts.top_withVote,
    counts.attained.withVote _ _⟩

end WithVote

theorem mem_filterMap_votes {α : Type} {field : ValidatorVotes → Option α} {value : α}
    (unset : field .default = none) : value ∈ state.votes.entries.filterMap (fun entry => field entry.2) ↔
      ∃ id, field (state.vv id) = some value := by
  rw [mem_filterMap]
  constructor
  · rintro ⟨⟨id, votes⟩, member, found⟩
    refine ⟨id, ?_⟩
    rw [vv, get_eq_some_iff_mem.mpr member]
    exact found
  · rintro ⟨id, found⟩
    cases held : state.votes.get id with
    | none =>
      rw [vv, held, getD_none, unset] at found
      cases found
    | some votes =>
      rw [vv, held, getD_some] at found
      exact ⟨(id, votes), get_eq_some_iff_mem.mp held, found⟩

theorem mem_collectNotar {cast : BlockVote} :
    cast ∈ state.collectNotar hash ↔ ∃ id, (state.vv id).notar = some cast ∧ cast.blockHash = hash := by
  rw [collectNotar, bySigner, mem_insertionSort, mem_filter, mem_filterMap_votes rfl]
  simp

theorem mem_collectNf {cast : BlockVote} :
    cast ∈ state.collectNf hash ↔ ∃ id, state.nfVotes.get (id, hash) = some cast := by
  rw [collectNf, bySigner, mem_insertionSort, mem_map]
  constructor
  · rintro ⟨⟨⟨id, voted⟩, other⟩, member, rfl⟩
    rw [mem_filter] at member
    have same : voted = hash := of_decide_eq_true member.2
    subst same
    exact ⟨id, get_eq_some_iff_mem.mpr member.1⟩
  · rintro ⟨id, held⟩
    refine ⟨((id, hash), cast), mem_filter.mpr ⟨get_eq_some_iff_mem.mp held, ?_⟩, rfl⟩
    exact decide_eq_true rfl

namespace StoredVotes

variable (storedVotes : StoredVotes state)
include storedVotes

theorem notarSigner_iff {id : Nat} :
    (∃ cast ∈ state.collectNotar hash, cast.signer = id) ↔ state.votedNotar id = some hash := by
  simp only [mem_collectNotar, votedNotar, map_eq_some_iff]
  constructor
  · rintro ⟨cast, ⟨other, held, same⟩, rfl⟩
    have own : cast.signer = other := (storedVotes.own other (.notar cast) held).2
    rw [own]
    exact ⟨cast, held, same⟩
  · rintro ⟨cast, held, same⟩
    exact ⟨cast, ⟨id, held, same⟩, (storedVotes.own id (.notar cast) held).2⟩

theorem fallbackSigner_iff {id : Nat} :
    (∃ cast ∈ state.collectNf hash, cast.signer = id) ↔ state.votedFallback id hash := by
  have own : ∀ {other : Nat} {cast : BlockVote}, state.nfVotes.get (other, hash) = some cast →
      cast.signer = other := by
    intro other cast held
    have same := storedVotes.fallbackHash other hash cast held
    exact (storedVotes.own other (.notarFallback cast) (by rw [Holds, same]; exact held)).2
  simp only [mem_collectNf, votedFallback, Table.contains_iff]
  constructor
  · rintro ⟨cast, ⟨other, held⟩, rfl⟩
    exact ⟨cast, by rw [own held]; exact held⟩
  · rintro ⟨cast, held⟩
    exact ⟨cast, ⟨id, held⟩, own held⟩

omit storedVotes in
theorem slotSigner_iff {field : ValidatorVotes → Option SlotVote} {id : Nat} (unset : field .default = none)
    (own : ∀ other cast, field (state.vv other) = some cast → cast.signer = other) :
    (∃ cast ∈ slotVotesBySigner (state.votes.entries.filterMap fun entry => field entry.2), cast.signer = id) ↔
      (field (state.vv id)).isSome = true := by
  simp only [slotVotesBySigner, mem_insertionSort, mem_filterMap_votes unset, isSome_iff_exists]
  constructor
  · rintro ⟨cast, ⟨other, held⟩, rfl⟩
    exact ⟨cast, by rw [own other cast held]; exact held⟩
  · rintro ⟨cast, held⟩
    exact ⟨cast, ⟨id, held⟩, own id cast held⟩

theorem skipSigner_iff {id : Nat} : (∃ cast ∈ state.collectSkip, cast.signer = id) ↔ state.votedSkip id :=
  slotSigner_iff rfl fun other cast held => (storedVotes.own other (.skip cast) held).2

theorem skipFallbackSigner_iff {id : Nat} :
    (∃ cast ∈ state.collectSkipFallback, cast.signer = id) ↔ state.votedSkipFallback id :=
  slotSigner_iff rfl fun other cast held => (storedVotes.own other (.skipFallback cast) held).2

theorem finalSigner_iff {id : Nat} : (∃ cast ∈ state.collectFinal, cast.signer = id) ↔ state.votedFinal id :=
  slotSigner_iff rfl fun other cast held => (storedVotes.own other (.final cast) held).2

theorem slot_of_mem_collectNotar {cast : BlockVote} (member : cast ∈ state.collectNotar hash) :
    cast.slot = state.slot ∧ cast.blockHash = hash := by
  obtain ⟨id, held, same⟩ := mem_collectNotar.mp member
  exact ⟨(storedVotes.own id (.notar cast) held).1, same⟩

theorem slot_of_mem_collectNf {cast : BlockVote} (member : cast ∈ state.collectNf hash) :
    cast.slot = state.slot ∧ cast.blockHash = hash := by
  obtain ⟨id, held⟩ := mem_collectNf.mp member
  have same := storedVotes.fallbackHash id hash cast held
  exact ⟨(storedVotes.own id (.notarFallback cast) (by rw [Holds, same]; exact held)).1, same⟩

theorem slot_of_mem_collectSkip {cast : SlotVote} (member : cast ∈ state.collectSkip ++ state.collectSkipFallback) :
    cast.slot = state.slot := by
  simp only [collectSkip, collectSkipFallback, slotVotesBySigner, mem_append, mem_insertionSort] at member
  obtain skip | fallback := member
  · obtain ⟨id, held⟩ := (@mem_filterMap_votes state _ ValidatorVotes.skip cast rfl).mp skip
    exact (storedVotes.own id (.skip cast) held).1
  · obtain ⟨id, held⟩ := (@mem_filterMap_votes state _ ValidatorVotes.skipFallback cast rfl).mp fallback
    exact (storedVotes.own id (.skipFallback cast) held).1

theorem slot_of_mem_collectFinal {cast : SlotVote} (member : cast ∈ state.collectFinal) : cast.slot = state.slot := by
  simp only [collectFinal, slotVotesBySigner, mem_insertionSort] at member
  obtain ⟨id, held⟩ := (@mem_filterMap_votes state _ ValidatorVotes.finalize cast rfl).mp member
  exact (storedVotes.own id (.final cast) held).1

theorem notarCert_own {slot : Nat} {signature : AggregateSignature} (spec : state.collectNotar hash ≠ [] ∧
      (∀ vote ∈ state.collectNotar hash, vote.slot = slot ∧ vote.blockHash = named) ∧
      ∀ id, signature.isSigner id = true ↔ ∃ vote ∈ state.collectNotar hash, vote.signer = id) :
    slot = state.slot ∧ named = hash ∧ (∃ id, state.votedNotar id = some hash) ∧
      ∀ id, signature.isSigner id = true ↔ state.votedNotar id = some hash := by
  obtain ⟨some, uniform, signers⟩ := spec
  obtain ⟨first, member⟩ := exists_mem_of_ne_nil _ some
  have own := storedVotes.slot_of_mem_collectNotar member
  have same := uniform first member
  exact ⟨same.1.symm.trans own.1, same.2.symm.trans own.2,
    ⟨first.signer, storedVotes.notarSigner_iff.mp ⟨first, member, rfl⟩⟩,
    fun id => (signers id).trans storedVotes.notarSigner_iff⟩

theorem fallbackCert_own
    (made : NotarFallbackCert.tryNew (state.collectNotar hash) (state.collectNf hash) info.validators =
      .ok (.ok cert)) : cert.slot = state.slot ∧ cert.blockHash = hash := by
  obtain ⟨some, uniform, _⟩ := NotarFallbackCert.tryNew_spec made
  obtain ⟨first, member⟩ := exists_mem_of_ne_nil _ some
  have own : first.slot = state.slot ∧ first.blockHash = hash := by
    obtain notar | fallback := mem_append.mp member
    · exact storedVotes.slot_of_mem_collectNotar notar
    · exact storedVotes.slot_of_mem_collectNf fallback
  exact ⟨(uniform first member).1.symm.trans own.1, (uniform first member).2.symm.trans own.2⟩

end StoredVotes

/-- The running stake that a certificate stands for, with the stored voters
that sign it. -/
def Backs (info : EpochInfo) (state : SlotState) : Cert → Prop
  | .notar cert => info.isQuorum (state.notarStakeOf cert.blockHash) = true ∧ state.certs.notar = none ∧
      (∃ id, state.votedNotar id = some cert.blockHash) ∧
      ∀ id, Cert.isSigner (.notar cert) id = true ↔ state.votedNotar id = some cert.blockHash
  | .fastFinal cert => info.isStrongQuorum (state.notarStakeOf cert.blockHash) = true ∧
      state.certs.fastFinalize = none ∧
      (∃ id, state.votedNotar id = some cert.blockHash) ∧
      ∀ id, Cert.isSigner (.fastFinal cert) id = true ↔ state.votedNotar id = some cert.blockHash
  | .notarFallback cert =>
    info.isQuorum (state.nfStakeOf cert.blockHash + state.notarStakeOf cert.blockHash) = true ∧
    state.isNotarFallback cert.blockHash = false ∧
    (∃ id, state.votedNotar id = some cert.blockHash ∨ state.votedFallback id cert.blockHash) ∧
    ∀ id, Cert.isSigner (.notarFallback cert) id = true ↔
      state.votedNotar id = some cert.blockHash ∨ state.votedFallback id cert.blockHash
  | .skip cert => info.isQuorum (state.skipStake + state.skipFallbackStake) = true ∧
      state.skipStake + state.skipFallbackStake ≤ u64Max ∧
      ∀ id, Cert.isSigner (.skip cert) id = true ↔ state.votedSkip id ∨ state.votedSkipFallback id
  | .final cert => info.isQuorum state.finalizeStake = true ∧ state.finalizeStake ≤ u64Max ∧
      ∀ id, Cert.isSigner (.final cert) id = true ↔ state.votedFinal id

theorem Created.backs (created : Created info state cert) (storedVotes : StoredVotes state) :
    cert.slot = state.slot ∧ state.Backs info cert := by
  cases created with
  | @notarFallback hash cert quorum missing made =>
    obtain ⟨some, _, signers⟩ := NotarFallbackCert.tryNew_spec made
    obtain ⟨first, member⟩ := exists_mem_of_ne_nil _ some
    obtain ⟨here, same⟩ := storedVotes.fallbackCert_own made
    have signed : ∀ id, Cert.isSigner (.notarFallback cert) id = true ↔
        state.votedNotar id = .some hash ∨ state.votedFallback id hash := by
      intro id
      rw [signers id, ← storedVotes.notarSigner_iff, ← storedVotes.fallbackSigner_iff]
      simp only [mem_append, or_and_right, exists_or]
    refine ⟨here, ?_⟩
    rw [Backs, same]
    exact ⟨quorum, missing, ⟨first.signer, (signed _).mp ((signers _).mpr ⟨first, member, rfl⟩)⟩, signed⟩
  | notar quorum missing made =>
    obtain ⟨here, rfl, signed⟩ := storedVotes.notarCert_own (NotarCert.tryNew_spec made)
    exact ⟨here, quorum, missing, signed⟩
  | fastFinal quorum missing made =>
    obtain ⟨here, rfl, signed⟩ := storedVotes.notarCert_own (FastFinalCert.tryNew_spec made)
    exact ⟨here, quorum, missing, signed⟩
  | @skip cert quorum bounded missing made =>
    obtain ⟨some, uniform, signers⟩ := SkipCert.tryNew_spec made
    obtain ⟨first, member⟩ := exists_mem_of_ne_nil _ some
    refine ⟨(uniform first member).symm.trans (storedVotes.slot_of_mem_collectSkip member), quorum, bounded, ?_⟩
    intro id
    rw [signers id, ← storedVotes.skipSigner_iff, ← storedVotes.skipFallbackSigner_iff]
    simp only [mem_append, or_and_right, exists_or]
  | @final cert quorum bounded missing made =>
    obtain ⟨some, uniform, signers⟩ := FinalCert.tryNew_spec made
    obtain ⟨first, member⟩ := exists_mem_of_ne_nil _ some
    refine ⟨(uniform first member).symm.trans (storedVotes.slot_of_mem_collectFinal member), quorum, bounded, ?_⟩
    intro id
    exact (signers id).trans storedVotes.finalSigner_iff

end SlotState

end Karstflow.Alpenglow
