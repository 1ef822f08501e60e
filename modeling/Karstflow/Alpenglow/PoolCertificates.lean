import Karstflow.Alpenglow.CertValidity

namespace Karstflow.Alpenglow

open Data List

/-! # The certificates of a pool over whole runs -/

def VotorPoolEvent.cert? : VotorPoolEvent → Option Cert
  | .certCreated cert => some cert
  | _ => none

def PoolOut.certs (out : PoolOut) : List Cert := out.events.filterMap VotorPoolEvent.cert?

namespace Pool

variable {after : Pool}

theorem certs_of_sendParentReady (sent : sendParentReady out ready = .ok out') : out'.certs = out.certs := by
  cases ready with
  | none =>
    cases sent
    rfl
  | some ready =>
    obtain ⟨_, _, done⟩ := bind_eq_ok.mp sent
    cases done
    simp [PoolOut.certs, PoolOut.pushParents, VotorPoolEvent.cert?]

theorem certs_pushParents (out : PoolOut) (parents : List ParentReady) :
    (out.pushParents parents).certs = out.certs := by
  simp [PoolOut.certs, PoolOut.pushParents, VotorPoolEvent.cert?, filterMap_map, Function.comp_def]

theorem certs_pushNotify (out : PoolOut) (notify : NotifyParent) : (pushNotify out notify).certs = out.certs := by
  cases notify with
  | none => rfl
  | repair block => rfl
  | event event => cases event <;> simp [PoolOut.certs, pushNotify, PoolOut.pushEvent, PoolEvent.toVotor,
      VotorPoolEvent.cert?]

theorem certs_of_acts (acts : PoolActs cause pool out after out') : out'.certs = out.certs := by
  induction acts with
  | none => rfl
  | next act _ ih =>
    rw [ih]
    cases act with
    | finalized reported ran sent => exact certs_of_sendParentReady sent
    | told certified ran => exact certs_pushNotify _ _
    | certified asked ran | skipped asked ran => exact certs_pushParents _ _
    | _ => rfl

/-- Every slot is sound, up to the certificates that are still to be stored. -/
def Sound (pending : List Cert) (pool : Pool) : Prop :=
  ∀ slot, (pool.slotState slot).Sound pool.epochInfo (pending.filter (·.slot = slot)) slot

theorem Sound.new (ownId : Nat) (info : EpochInfo) : Sound [] (.new ownId info) :=
  fun slot => .new info _ slot ownId

theorem Sound.keep (sound : Sound pending pool) (keeps : Keeps pool after) : Sound pending after := by
  intro slot
  rw [keeps.info]
  obtain ⟨base, rfl | rfl, upkeep, certs⟩ := keeps.slots slot
  · exact SlotState.Sound.upkeep (.new _ _ _ _) upkeep certs
  · exact (sound slot).upkeep upkeep certs

theorem Sound.addValidCert (sound : Sound (cert :: pending) pool)
    (ran : pool.addValidCert cert out = .ok (after, out')) :
    Sound pending after ∧ after.epochInfo = pool.epochInfo ∧ out'.certs = out.certs ++ [cert] := by
  obtain ⟨out₁, acts, rfl⟩ := addValidCert_acts ran
  have keeps := keeps_of_acts acts
  refine ⟨keep ?_ keeps, keeps.info, ?_⟩
  · intro slot
    have before := sound slot
    rw [slotState_storeCert]
    split
    · rename_i here
      have first : (cert :: pending).filter (·.slot = slot) = cert :: pending.filter (·.slot = slot) :=
        filter_cons_of_pos (decide_eq_true here.symm)
      rw [first] at before
      have upkeep := (pool.slotState slot).addCert_upkeep cert
      exact ⟨upkeep.slot.trans before.slot, upkeep.storedVotes before.votes, upkeep.counts before.counts,
        before.certified.addCert⟩
    · rename_i there
      have later : (cert :: pending).filter (·.slot = slot) = pending.filter (·.slot = slot) :=
        filter_cons_of_neg (by simpa using fun same => there same.symm)
      rw [later] at before
      exact before
  · rw [← certs_of_acts acts]
    simp [PoolOut.certs, PoolOut.pushEvent, VotorPoolEvent.cert?]

theorem Sound.addValidCerts (sound : Sound certs pool) (ran : pool.addValidCerts certs out = .ok (after, out')) :
    Sound [] after ∧ after.epochInfo = pool.epochInfo ∧ out'.certs = out.certs ++ certs := by
  induction certs generalizing pool out with
  | nil =>
    cases ran
    exact ⟨sound, rfl, (append_nil _).symm⟩
  | cons first rest ih =>
    obtain ⟨⟨middle, out₁⟩, added, ran⟩ := bind_eq_ok.mp ran
    obtain ⟨sound, info, certs⟩ := sound.addValidCert added
    obtain ⟨sound, info', certs'⟩ := ih sound ran
    exact ⟨sound, info'.trans info, by rw [certs', certs, append_assoc]; rfl⟩

theorem Sound.weaken (sound : Sound [] pool) (pending : List Cert) : Sound pending pool := by
  intro slot
  have before := sound slot
  exact ⟨before.slot, before.votes, before.counts, before.certified.weaken (by simp)⟩

theorem Sound.addCert (sound : Sound [] pool)
    (ran : pool.addCert cert out = .ok (answer, after, out')) : Sound [] after ∧ after.epochInfo = pool.epochInfo := by
  obtain ⟨rfl, _⟩ | ⟨_, added⟩ := addCert_cases ran
  · exact ⟨sound, rfl⟩
  · obtain ⟨sound, info, _⟩ := (sound.weaken [cert]).addValidCert added
    exact ⟨sound, info⟩

theorem Sound.addBlock (sound : Sound [] pool)
    (ran : pool.addBlock block parent out = .ok (after, out')) : Sound [] after ∧ after.epochInfo = pool.epochInfo := by
  have keeps := keeps_of_acts (addBlock_acts ran)
  exact ⟨sound.keep keeps, keeps.info⟩

/-- The vote is taken and completes a quorum of votes that are stored late. -/
def Premature (pool : Pool) (vote : Vote) : Prop :=
  pool.Admits vote ∧
    (pool.slotState vote.slot).Completes pool.epochInfo (pool.epochInfo.stakeAt vote.signer) vote

/-- What one vote does: the pool stays sound and reports certificates made of
votes, which are valid unless the vote was premature. -/
theorem Sound.addVote {answer : Except AddError Unit} (sound : Sound [] pool) (silent : out.certs = [])
    (ran : pool.addVote vote out = .ok (answer, after, out')) : Sound [] after ∧ after.epochInfo = pool.epochInfo ∧
      (∀ cert ∈ out'.certs, pool.Admits vote ∧ cert.slot = vote.slot ∧ SlotState.Created pool.epochInfo
        ((pool.slotState vote.slot).tallied vote (pool.epochInfo.stakeAt vote.signer)) cert) ∧
      ((∀ cert ∈ out'.certs, cert.Valid pool.epochInfo) ↔ ¬ pool.Premature vote) := by
  obtain ⟨refused, rfl, rfl⟩ | ⟨admits, state, outputs, counted, adding⟩ := addVote_cases ran
  · refine ⟨sound, rfl, ?_⟩
    rw [silent]
    exact ⟨fun cert member => absurd member not_mem_nil, fun _ premature => refused premature.1,
      fun _ cert member => absurd member not_mem_nil⟩
  · have before := sound vote.slot
    have added := SlotState.addVote_added counted
    have votes : SlotState.StoredVotes
        ((pool.slotState vote.slot).tallied vote (pool.epochInfo.stakeAt vote.signer)) :=
      before.votes.tallied admits.2.2 before.slot.symm
    have here : ∀ cert ∈ outputs.certs, cert.slot = vote.slot := by
      intro cert member
      have own := ((added.certs cert member).backs votes).1
      rw [own]
      have tallied : ((pool.slotState vote.slot).tallied vote (pool.epochInfo.stakeAt vote.signer)).slot =
          (pool.slotState vote.slot).slot := by cases vote <;> rfl
      exact tallied.trans before.slot
    have counting : Sound outputs.certs (pool.setState vote.slot state) := by
      intro slot
      rw [slotState_setState]
      split
      · rename_i same
        have all := filter_eq_self.mpr fun cert member => decide_eq_true ((here cert member).trans same.symm)
        rw [all, same]
        exact before.withVote admits.2.2 rfl admits.2.1 added
      · exact (sound.weaken outputs.certs) slot
    obtain ⟨soundAfter, info, certs⟩ := (counting.keep (pool.withCounted_keeps vote state)).addValidCerts adding
    refine ⟨soundAfter, info.trans (pool.withCounted_keeps vote state).info, ?_⟩
    have reported : out'.certs = outputs.certs := by
      rw [certs]
      have quiet : (outputs.events.map PoolEvent.toVotor).filterMap VotorPoolEvent.cert? = [] := by
        rw [filterMap_map]
        apply filterMap_eq_nil_iff.mpr
        intro event _
        cases event <;> rfl
      simp only [PoolOut.certs] at silent
      simp only [PoolOut.certs, filterMap_append, silent, quiet, nil_append]
    rw [reported]
    refine ⟨fun cert member => ⟨admits, here cert member, added.certs cert member⟩, ?_, ?_⟩
    · intro valid premature
      obtain ⟨cert, member, late⟩ := premature.2.creates added
      exact (added.certs cert member).not_valid before votes late (valid cert member)
    · intro timely cert member
      have created := added.certs cert member
      by_cases early : (∃ skip, cert = .skip skip) ∨ ∃ final, cert = .final final
      · exact created.valid before votes admits.2.2 admits.2.1 rfl rfl early
      · have late : (∀ skip, cert ≠ .skip skip) ∧ ∀ final, cert ≠ .final final := by
          simpa only [not_or, not_exists] using early
        exact absurd ⟨admits, created.completes before votes late⟩ timely

end Pool

inductive PoolInput where
  | vote (vote : Vote)
  | cert (cert : Cert)
  | block (block parent : BlockId)
deriving Repr, DecidableEq

namespace PoolInput

def apply (pool : Pool) : PoolInput → Except Panic (Pool × PoolOut)
  | vote cast => do
    let (_, pool, out) ← pool.addVote cast .empty
    return (pool, out)
  | cert received => do
    let (_, pool, out) ← pool.addCert received .empty
    return (pool, out)
  | block added parent => pool.addBlock added parent .empty

def run (ownId : Nat) (info : EpochInfo) (inputs : List PoolInput) : Except Panic (Pool × List PoolOut) :=
  runSteps (fun pool input => input.apply pool) (.new ownId info) inputs

theorem run_sound (ran : run ownId info inputs = .ok (pool, outs)) : pool.Sound [] ∧ pool.epochInfo = info := by
  induction inputs using reverseRecOn generalizing pool outs with
  | nil =>
    cases ran
    exact ⟨.new ownId info, rfl⟩
  | append_singleton inputs input ih =>
    obtain ⟨before, earlier, out, ranBefore, stepped, rfl⟩ := runSteps_append_eq_ok.mp ran
    obtain ⟨sound, info⟩ := ih ranBefore
    cases input with
    | vote vote =>
      obtain ⟨⟨answer, after, out₁⟩, added, done⟩ := bind_eq_ok.mp stepped
      cases done
      obtain ⟨sound, same, _⟩ := sound.addVote rfl added
      exact ⟨sound, same.trans info⟩
    | cert cert =>
      obtain ⟨⟨answer, after, out₁⟩, added, done⟩ := bind_eq_ok.mp stepped
      cases done
      obtain ⟨sound, same⟩ := sound.addCert added
      exact ⟨sound, same.trans info⟩
    | block block parent =>
      obtain ⟨sound, same⟩ := sound.addBlock stepped
      exact ⟨sound, same.trans info⟩

end PoolInput

/-- The certificate is valid, and no pool of the epoch refuses it for its stake. -/
def Cert.Holds (info : EpochInfo) (cert : Cert) : Prop :=
  cert.Valid info ∧ ∀ other : Pool, other.epochInfo = info → ∀ out answer after out',
    other.addCert cert out = .ok (answer, after, out') → answer ≠ .error .thresholdNotMet

theorem Cert.holds_iff_valid {cert : Cert} : cert.Holds info ↔ cert.Valid info := by
  refine ⟨And.left, fun valid => ⟨valid, ?_⟩⟩
  rintro other rfl out answer after out' ran rfl
  obtain ⟨bounds, _, ran⟩ := bind_eq_ok.mp ran
  split at ran
  · cases ran
  obtain ⟨met, threshold, ran⟩ := bind_eq_ok.mp ran
  rw [Valid.eq_1, threshold] at valid
  cases valid
  rw [if_neg (show ¬ (!true) = true from Bool.false_ne_true)] at ran
  split at ran
  · cases ran
  · split at ran
    · cases ran
    · obtain ⟨_, _, done⟩ := bind_eq_ok.mp ran
      cases done

namespace PoolInput

/-- Every certificate that a vote of the run makes the pool report is good. -/
def CertsHold (ownId : Nat) (info : EpochInfo) (inputs : List PoolInput) : Prop :=
  ∀ earlier cast, earlier ++ [.vote cast] <+: inputs → ∀ before sent after out,
    run ownId info earlier = .ok (before, sent) → (vote cast).apply before = .ok (after, out) →
      ∀ cert ∈ out.certs, cert.Holds info

/-- The certificates made of votes are valid exactly as long as no vote
completes a quorum of notar or notar-fallback votes. -/
theorem certsHold_iff_no_premature_vote (ownId : Nat) (info : EpochInfo) (inputs : List PoolInput)
    (returns : ∃ reached, run ownId info inputs = .ok reached) : CertsHold ownId info inputs ↔
      ∀ earlier cast, earlier ++ [.vote cast] <+: inputs → ∀ before sent,
        run ownId info earlier = .ok (before, sent) → ¬ before.Premature cast := by
  obtain ⟨reached, ran⟩ := returns
  simp only [CertsHold, Cert.holds_iff_valid]
  constructor
  · intro valid earlier cast inside before sent ranBefore
    obtain ⟨after, outs, ranAfter⟩ := runSteps_prefix inside ran
    obtain ⟨before', sent', out, ranBefore', stepped, rfl⟩ := runSteps_append_eq_ok.mp ranAfter
    cases ranBefore'.symm.trans ranBefore
    obtain ⟨sound, rfl⟩ := run_sound ranBefore
    have all := valid earlier cast inside before sent after out ranBefore stepped
    obtain ⟨⟨answer, after', out'⟩, added, done⟩ := bind_eq_ok.mp stepped
    cases done
    exact (sound.addVote rfl added).2.2.2.mp all
  · intro timely earlier cast inside before sent after out ranBefore stepped
    obtain ⟨sound, rfl⟩ := run_sound ranBefore
    obtain ⟨⟨answer, after', out'⟩, added, done⟩ := bind_eq_ok.mp stepped
    cases done
    exact (sound.addVote rfl added).2.2.2.mpr (timely earlier cast inside before sent ranBefore)

def fiveEqual : EpochInfo where
  validators := [⟨0, 20⟩, ⟨1, 20⟩, ⟨2, 20⟩, ⟨3, 20⟩, ⟨4, 20⟩]
  totalStake := 100
  nonempty := by decide
  idIsIndex := by decide
  total := by decide

def notarVotes : List PoolInput :=
  [.vote (.newNotar 4 9 0), .vote (.newNotar 4 9 1), .vote (.newNotar 4 9 2)]

/-- The third notar vote completes the quorum, and both certificates have two
signers. -/
theorem notarVotes_certs_below_threshold : (run 0 fiveEqual notarVotes).map (fun reached =>
        reached.2.map fun out => out.certs.map (·.checkThreshold fiveEqual)) =
        .ok [[], [], [.ok false, .ok false]] ∧ ¬ CertsHold 0 fiveEqual notarVotes := by
  have checks : (run 0 fiveEqual notarVotes).map (fun reached =>
      reached.2.map fun out => out.certs.map (·.checkThreshold fiveEqual)) =
      .ok [[], [], [.ok false, .ok false]] := by
    decide +kernel
  refine ⟨checks, fun hold => ?_⟩
  have split : notarVotes = [.vote (.newNotar 4 9 0), .vote (.newNotar 4 9 1)] ++ [.vote (.newNotar 4 9 2)] := rfl
  obtain ⟨reached, ran, list⟩ := map_eq_ok.mp checks
  rw [split] at ran
  obtain ⟨before, sent, out, ranBefore, stepped, outs⟩ := runSteps_append_eq_ok.mp ran
  have all := hold _ _ (split ▸ prefix_refl _) before sent _ out ranBefore stepped
  rw [outs, map_append] at list
  have last : out.certs.map (·.checkThreshold fiveEqual) = [.ok false, .ok false] := by
    have tail := congrArg getLast? list
    simpa using tail
  rcases mem_map.mp (last ▸ mem_cons_self :
    .ok false ∈ out.certs.map (·.checkThreshold fiveEqual)) with ⟨cert, member, refused⟩
  have valid := (all cert member).1
  rw [Cert.Valid.eq_1, refused] at valid
  cases valid

def skipVotes : List PoolInput :=
  [.vote (.newSkip 4 0), .vote (.newSkipFallback 4 1), .vote (.newSkip 4 2)]

theorem skipVotes_first : (run 0 fiveEqual skipVotes).map (·.1.firstUnprunedSlot) = .ok 0 := by
  decide +kernel

/-- Skip votes are stored before they are counted. -/
theorem skipVotes_certsHold : CertsHold 0 fiveEqual skipVotes := by
  have returns := (map_eq_ok.mp skipVotes_first).imp fun _ => And.left
  refine (certsHold_iff_no_premature_vote 0 fiveEqual skipVotes returns).mpr ?_
  intro earlier cast inside before sent _ premature
  have member : .vote cast ∈ skipVotes := inside.subset (mem_append_right _ mem_cons_self)
  simp only [skipVotes, mem_cons, PoolInput.vote.injEq, not_mem_nil, or_false] at member
  obtain rfl | rfl | rfl := member <;> exact premature.2

end PoolInput

end Karstflow.Alpenglow
