import Karstflow.Alpenglow.Signers
import Karstflow.Alpenglow.SlotState

namespace Karstflow.Alpenglow

open Data Option List

/-! # Counting votes

What `add_vote` does to the state of a slot, in two parts: the vote enters the
running stakes and the stored votes, and the checks that follow only mark
events as sent. Certificates and events are justified by the running stakes.
-/

namespace SlotState

variable {state after : SlotState}
  {hash : BlockHash}

def Marks (before after : SlotState) : Prop :=
  ∃ pendingS2n sentS2n sentSafeToSkip, after = { before with pendingS2n, sentS2n, sentSafeToSkip }

theorem Marks.refl (state : SlotState) : Marks state state := ⟨_, _, _, rfl⟩

theorem Marks.trans (first : Marks before middle) (second : Marks middle after) : Marks before after := by
  obtain ⟨_, _, _, rfl⟩ := first
  obtain ⟨pending, sent, skip, rfl⟩ := second
  exact ⟨pending, sent, skip, rfl⟩

/-- The stakes that make a fallback vote for the block safe. -/
def FallbackSafe (info : EpochInfo) (state : SlotState) (hash : BlockHash) : Prop :=
  info.isWeakestQuorum (state.notarStakeOf hash) = true ∧
    (info.isWeakQuorum (state.notarStakeOf hash) = true ∨
      info.isQuorum (state.notarStakeOf hash + state.skipStake) = true) ∧
    state.parents.get hash = some .certified

/-- What the state must hold for an event. -/
def Justifies (info : EpochInfo) (state : SlotState) : PoolEvent → Prop
  | .safeToNotar block => block.slot = state.slot ∧ state.FallbackSafe info block.hash
  | .safeToSkip slot => slot = state.slot ∧
      info.isWeakQuorum (state.notarOrSkipStake - state.topNotarStake) = true

/-- A certificate that the running stakes call for, made of the stored votes. -/
inductive Created (info : EpochInfo) (state : SlotState) : Cert → Prop
  | notarFallback {hash : BlockHash} {cert : NotarFallbackCert}
      (quorum : info.isQuorum (state.nfStakeOf hash + state.notarStakeOf hash) = true)
      (missing : state.isNotarFallback hash = false)
      (made : NotarFallbackCert.tryNew (state.collectNotar hash) (state.collectNf hash) info.validators =
        .ok (.ok cert)) :
      Created info state (.notarFallback cert)
  | notar {hash : BlockHash} {cert : NotarCert}
      (quorum : info.isQuorum (state.notarStakeOf hash) = true) (missing : state.certs.notar = none)
      (made : NotarCert.tryNew (state.collectNotar hash) info.validators = .ok (.ok cert)) :
      Created info state (.notar cert)
  | fastFinal {hash : BlockHash} {cert : FastFinalCert}
      (quorum : info.isStrongQuorum (state.notarStakeOf hash) = true)
      (missing : state.certs.fastFinalize = none)
      (made : FastFinalCert.tryNew (state.collectNotar hash) info.validators = .ok (.ok cert)) :
      Created info state (.fastFinal cert)
  | skip {cert : SkipCert}
      (quorum : info.isQuorum (state.skipStake + state.skipFallbackStake) = true)
      (bounded : state.skipStake + state.skipFallbackStake ≤ u64Max)
      (missing : state.certs.skip = none)
      (made : SkipCert.tryNew state.collectSkip state.collectSkipFallback info.validators = .ok (.ok cert)) :
      Created info state (.skip cert)
  | final {cert : FinalCert}
      (quorum : info.isQuorum state.finalizeStake = true) (bounded : state.finalizeStake ≤ u64Max)
      (missing : state.certs.finalize = none)
      (made : FinalCert.tryNew state.collectFinal info.validators = .ok (.ok cert)) :
      Created info state (.final cert)

/-- A part of `add_vote` that leaves votes and stakes alone. -/
structure Checked (info : EpochInfo) (before : SlotState) (out : SlotStateOutputs) (after : SlotState)
    (out' : SlotStateOutputs) : Prop where
  marks : Marks before after
  certs : ∀ cert ∈ out'.certs, cert ∈ out.certs ∨ Created info before cert
  kept : ∀ cert ∈ out.certs, cert ∈ out'.certs
  events : ∀ event ∈ out'.events, event ∈ out.events ∨ Justifies info before event

theorem Marks.created (marks : Marks before after) {cert : Cert} (created : Created info after cert) :
    Created info before cert := by
  obtain ⟨_, _, _, rfl⟩ := marks
  cases created with
  | notarFallback quorum missing made => exact .notarFallback quorum missing made
  | notar quorum missing made => exact .notar quorum missing made
  | fastFinal quorum missing made => exact .fastFinal quorum missing made
  | skip quorum bounded missing made => exact .skip quorum bounded missing made
  | final quorum bounded missing made => exact .final quorum bounded missing made

theorem Marks.justifies (marks : Marks before after)
    (justified : Justifies info after event) : Justifies info before event := by
  obtain ⟨_, _, _, rfl⟩ := marks
  cases event with
  | safeToNotar block | safeToSkip slot => exact justified

namespace Checked

theorem trans (first : Checked info before out middle out₁) (second : Checked info middle out₁ after out') :
    Checked info before out after out' := by
  refine ⟨first.marks.trans second.marks, ?_, fun cert member => second.kept cert (first.kept cert member), ?_⟩
  · intro cert member
    obtain earlier | created := second.certs cert member
    · exact first.certs cert earlier
    · exact .inr (first.marks.created created)
  · intro event member
    obtain earlier | justified := second.events event member
    · exact first.events event earlier
    · exact .inr (first.marks.justifies justified)

theorem marked (marks : Marks before after) : Checked info before out after out :=
  ⟨marks, fun _ => .inl, fun _ => id, fun _ => .inl⟩

theorem pushEvent (marks : Marks before after) (justified : Justifies info before event) :
    Checked info before out after (out.pushEvent event) := by
  refine ⟨marks, fun _ => .inl, fun _ => id, ?_⟩
  intro other member
  obtain earlier | new := mem_append.mp member
  · exact .inl earlier
  · rw [mem_singleton.mp new]
    exact .inr justified

theorem pushCert (created : Created info state cert) : Checked info state out state (out.pushCert cert) := by
  refine ⟨.refl state, ?_, fun _ => mem_append_left _, fun _ => .inl⟩
  intro other member
  obtain earlier | new := mem_append.mp member
  · exact .inl earlier
  · rw [mem_singleton.mp new]
    exact .inr created

end Checked

theorem hasSupport_spec (ran : state.hasSupport hash info = .ok true) :
    info.isWeakQuorum (state.notarStakeOf hash) = true ∨
      info.isQuorum (state.notarStakeOf hash + state.skipStake) = true := by
  rw [hasSupport] at ran
  split at ran
  · next weak => exact .inl weak
  · obtain ⟨both, added, done⟩ := bind_eq_ok.mp ran
    obtain ⟨rfl, _⟩ := addU64_eq_ok.mp added
    exact .inr (Except.ok.inj done)

theorem checkSafeToNotar_spec (ran : state.checkSafeToNotar hash info = .ok (after, answer)) :
    Marks state after ∧ (answer = .safeToNotar → state.FallbackSafe info hash) := by
  rw [checkSafeToNotar] at ran
  split at ran
  · cases ran
    exact ⟨.refl _, fun safe => by cases safe⟩
  rename_i weakest
  have weakest : info.isWeakestQuorum (state.notarStakeOf hash) = true := by simpa using weakest
  obtain ⟨enough, counted, ran⟩ := bind_eq_ok.mp ran
  split at ran
  · cases ran
    exact ⟨⟨_, _, _, rfl⟩, fun safe => by cases safe⟩
  rename_i holds
  have holds : enough = true := by simpa using holds
  have support := hasSupport_spec (holds ▸ counted)
  split at ran
  · cases ran
    exact ⟨.refl _, fun safe => by cases safe⟩
  · cases ran
    exact ⟨.refl _, fun safe => by cases safe⟩
  rename_i certified
  dsimp only at ran
  split at ran
  · cases ran
    exact ⟨⟨_, _, _, rfl⟩, fun _ => ⟨weakest, support, certified⟩⟩
  split at ran
  · split at ran
    · cases ran
      exact ⟨⟨_, _, _, rfl⟩, fun _ => ⟨weakest, support, certified⟩⟩
    · cases ran
      exact ⟨.refl _, fun safe => by cases safe⟩
  · cases ran
    exact ⟨⟨_, _, _, rfl⟩, fun safe => by cases safe⟩

theorem processPending_checked (ran : processPending info state out hash = .ok (after, out')) :
    Checked info state out after out' ∧ out'.certs = out.certs := by
  rw [processPending] at ran
  split at ran
  · cases ran
    exact ⟨.marked (.refl _), rfl⟩
  obtain ⟨⟨checked, answer⟩, answered, done⟩ := bind_eq_ok.mp ran
  cases done
  obtain ⟨marks, safe⟩ := checkSafeToNotar_spec answered
  cases answer with
  | safeToNotar =>
    refine ⟨.pushEvent marks ⟨?_, safe rfl⟩, rfl⟩
    obtain ⟨_, _, _, rfl⟩ := marks
    rfl
  | missingBlock => exact ⟨⟨marks, fun _ => .inl, fun _ => id, fun _ => .inl⟩, rfl⟩
  | awaiting => exact ⟨.marked marks, rfl⟩

theorem processPendingSafeToNotar_checked (ran : state.processPendingSafeToNotar info out = .ok (after, out')) :
    Checked info state out after out' ∧ out'.certs = out.certs := by
  rw [processPendingSafeToNotar] at ran
  -- the list is fixed before the loop, so it does not depend on the state
  generalize state.pendingS2n.filter (· ∉ state.sentS2n) = pending at ran
  induction pending generalizing state out with
  | nil =>
    cases ran
    exact ⟨.marked (.refl _), rfl⟩
  | cons first rest ih =>
    obtain ⟨⟨middle, out₁⟩, processed, ran⟩ := bind_eq_ok.mp ran
    obtain ⟨checked, same⟩ := processPending_checked processed
    obtain ⟨later, sameLater⟩ := ih ran
    exact ⟨checked.trans later, sameLater.trans same⟩

theorem checkSafeToSkip_checked (ran : state.checkSafeToSkip info out = .ok (after, out')) :
    Checked info state out after out' := by
  rw [checkSafeToSkip] at ran
  split at ran
  · cases ran
    exact .marked (.refl _)
  obtain ⟨others, subtracted, ran⟩ := bind_eq_ok.mp ran
  obtain ⟨rfl, _⟩ := subU64_eq_ok.mp subtracted
  split at ran
  · rename_i safe
    cases ran
    exact .pushEvent ⟨_, _, _, rfl⟩ ⟨rfl, safe.1⟩
  · cases ran
    exact .marked (.refl _)

theorem createCert_checked {made : Except Panic (Except CertError α)} {wrap : α → Cert}
    (created : due = true → ∀ cert, made = .ok (.ok cert) → Created info state (wrap cert))
    (ran : createCert due made wrap out = .ok out') : Checked info state out state out' ∧
      (due = true → ∃ cert, made = .ok (.ok cert) ∧ wrap cert ∈ out'.certs) := by
  rw [createCert] at ran
  split at ran
  · rename_i holds
    obtain ⟨cert, expected, done⟩ := bind_eq_ok.mp ran
    cases done
    have expected := expectCert_eq_ok.mp expected
    exact ⟨.pushCert (created holds cert expected), fun _ => ⟨cert, expected, mem_append_right _ mem_cons_self⟩⟩
  · rename_i idle
    cases ran
    exact ⟨.marked (.refl _), fun holds => absurd holds idle⟩

/-- A notar-fallback certificate is among `certs`, if it is due. -/
def MakesFallback (info : EpochInfo) (state : SlotState) (hash : BlockHash) (certs : List Cert) : Prop :=
  info.isQuorum (state.nfStakeOf hash + state.notarStakeOf hash) = true → state.isNotarFallback hash = false →
    ∃ cert, NotarFallbackCert.tryNew (state.collectNotar hash) (state.collectNf hash) info.validators =
      .ok (.ok cert) ∧ .notarFallback cert ∈ certs

def MakesNotar (info : EpochInfo) (state : SlotState) (hash : BlockHash) (certs : List Cert) : Prop :=
  info.isQuorum (state.notarStakeOf hash) = true → state.certs.notar = none →
    ∃ cert, NotarCert.tryNew (state.collectNotar hash) info.validators = .ok (.ok cert) ∧ .notar cert ∈ certs

def MakesFast (info : EpochInfo) (state : SlotState) (hash : BlockHash) (certs : List Cert) : Prop :=
  info.isStrongQuorum (state.notarStakeOf hash) = true → state.certs.fastFinalize = none →
    ∃ cert, FastFinalCert.tryNew (state.collectNotar hash) info.validators = .ok (.ok cert) ∧
      .fastFinal cert ∈ certs

theorem createNotarFallbackCert_checked (ran : state.createNotarFallbackCert hash info out = .ok out') :
    Checked info state out state out' ∧ MakesFallback info state hash out'.certs := by
  obtain ⟨both, added, ran⟩ := bind_eq_ok.mp ran
  obtain ⟨rfl, _⟩ := addU64_eq_ok.mp added
  have created : (info.isQuorum (state.nfStakeOf hash + state.notarStakeOf hash) &&
      !state.isNotarFallback hash) = true → ∀ cert,
      NotarFallbackCert.tryNew (state.collectNotar hash) (state.collectNf hash) info.validators = .ok (.ok cert) →
        Created info state (.notarFallback cert) := by
    intro due cert made
    rw [Bool.and_eq_true] at due
    exact .notarFallback due.1 (by simpa using due.2) made
  obtain ⟨checked, makes⟩ := createCert_checked created ran
  refine ⟨checked, ?_⟩
  intro quorum missing
  exact makes (by rw [quorum, missing]; rfl)

/-- The vote counted, with `stake` the voter's. Notar and notar-fallback votes
are stored later. -/
def tallied (state : SlotState) (vote : Vote) (stake : Nat) : SlotState :=
  match vote with
  | .notar vote =>
    let notarStake := state.notarStakeOf vote.blockHash + stake
    { state with
      notarStake := state.notarStake.insert vote.blockHash notarStake
      notarOrSkipStake := state.notarOrSkipStake + stake
      topNotarStake := max state.topNotarStake notarStake }
  | .notarFallback vote =>
    { state with nfStake := state.nfStake.insert vote.blockHash (state.nfStakeOf vote.blockHash + stake) }
  | .skip vote =>
    { state.setVotes vote.signer { state.vv vote.signer with skip := some vote } with
      notarOrSkipStake := state.notarOrSkipStake + stake
      skipStake := state.skipStake + stake }
  | .skipFallback vote =>
    { state.setVotes vote.signer { state.vv vote.signer with skipFallback := some vote } with
      skipFallbackStake := state.skipFallbackStake + stake }
  | .final vote =>
    { state.setVotes vote.signer { state.vv vote.signer with finalize := some vote } with
      finalizeStake := state.finalizeStake + stake }

def stored (state : SlotState) : Vote → SlotState
  | .notar vote => state.setVotes vote.signer { state.vv vote.signer with notar := some vote }
  | .notarFallback vote =>
    { state with nfVotes := state.nfVotes.insert (vote.signer, vote.blockHash) vote }
  | _ => state

def Makes (info : EpochInfo) (tallied : SlotState) (vote : Vote) (certs : List Cert) : Prop :=
  match vote with
  | .notar vote => MakesFallback info tallied vote.blockHash certs ∧ MakesNotar info tallied vote.blockHash certs ∧
      MakesFast info tallied vote.blockHash certs
  | .notarFallback vote => MakesFallback info tallied vote.blockHash certs
  | _ => True

theorem Marks.stored (marks : Marks before after) (vote : Vote) : Marks (before.stored vote) (after.stored vote) := by
  obtain ⟨pending, sent, skip, rfl⟩ := marks
  cases vote <;> exact ⟨pending, sent, skip, rfl⟩

theorem countNotarStake_checked {vote : BlockVote}
    (ran : state.countNotarStake vote.blockHash stake info out = .ok (after, out')) :
    Checked info (state.tallied (.notar vote) stake) out after out' ∧
      Makes info (state.tallied (.notar vote) stake) (.notar vote) out'.certs := by
  obtain ⟨notarStake, added, ran⟩ := bind_eq_ok.mp ran
  obtain ⟨both, addedBoth, ran⟩ := bind_eq_ok.mp ran
  obtain ⟨rfl, _⟩ := addU64_eq_ok.mp added
  obtain ⟨rfl, _⟩ := addU64_eq_ok.mp addedBoth
  obtain ⟨⟨pending, out₁⟩, processed, ran⟩ := bind_eq_ok.mp ran
  obtain ⟨⟨skipped, out₂⟩, checkedSkip, ran⟩ := bind_eq_ok.mp ran
  obtain ⟨out₃, fallback, ran⟩ := bind_eq_ok.mp ran
  obtain ⟨out₄, notar, ran⟩ := bind_eq_ok.mp ran
  obtain ⟨out₅, fast, done⟩ := bind_eq_ok.mp ran
  cases done
  have checks := (processPending_checked processed).1.trans (checkSafeToSkip_checked checkedSkip)
  have counted : after.notarStakeOf vote.blockHash = state.notarStakeOf vote.blockHash + stake := by
    obtain ⟨_, _, _, rfl⟩ := checks.marks
    simp only [notarStakeOf, Table.get_insert_self, getD_some]
  rw [← counted] at notar fast
  obtain ⟨fallbackChecked, makesFallback⟩ := createNotarFallbackCert_checked fallback
  rcases createCert_checked (fun due cert made => by
    rw [Bool.and_eq_true] at due
    exact .notar due.1 (isNone_iff_eq_none.mp due.2) made) notar with ⟨notarChecked, makesNotar⟩
  rcases createCert_checked (fun due cert made => by
    rw [Bool.and_eq_true] at due
    exact .fastFinal due.1 (isNone_iff_eq_none.mp due.2) made) fast with ⟨fastChecked, makesFast⟩
  refine ⟨(checks.trans (fallbackChecked.trans notarChecked)).trans fastChecked, ?_⟩
  have makes : MakesFallback info after vote.blockHash out'.certs ∧ MakesNotar info after vote.blockHash out'.certs ∧
      MakesFast info after vote.blockHash out'.certs := by
    refine ⟨?_, ?_, ?_⟩
    · intro quorum missing
      obtain ⟨cert, made, member⟩ := makesFallback quorum missing
      exact ⟨cert, made, fastChecked.kept _ (notarChecked.kept _ member)⟩
    · intro quorum missing
      obtain ⟨cert, made, member⟩ := makesNotar (by rw [quorum, missing]; rfl)
      exact ⟨cert, made, fastChecked.kept _ member⟩
    · intro quorum missing
      exact makesFast (by rw [quorum, missing]; rfl)
  obtain ⟨_, _, _, rfl⟩ := checks.marks
  exact makes

theorem countNotarFallbackStake_checked {vote : BlockVote}
    (ran : state.countNotarFallbackStake vote.blockHash stake info out = .ok (after, out')) :
    Checked info (state.tallied (.notarFallback vote) stake) out after out' ∧
      Makes info (state.tallied (.notarFallback vote) stake) (.notarFallback vote) out'.certs := by
  obtain ⟨nfStake, added, ran⟩ := bind_eq_ok.mp ran
  obtain ⟨rfl, _⟩ := addU64_eq_ok.mp added
  obtain ⟨out₁, fallback, done⟩ := bind_eq_ok.mp ran
  cases done
  exact createNotarFallbackCert_checked fallback

theorem countSkipStake_checked (ran : state.countSkipStake stake fallback info out = .ok (after, out')) :
    Checked info
      (if fallback then { state with skipFallbackStake := state.skipFallbackStake + stake }
      else { state with skipStake := state.skipStake + stake }) out after out' := by
  obtain ⟨counted, added, ran⟩ := bind_eq_ok.mp ran
  have shape : counted = if fallback then { state with skipFallbackStake := state.skipFallbackStake + stake }
      else { state with skipStake := state.skipStake + stake } := by
    cases fallback with
    | true | false =>
      obtain ⟨_, sum, done⟩ := bind_eq_ok.mp added
      obtain ⟨rfl, _⟩ := addU64_eq_ok.mp sum
      cases done
      rfl
  rw [← shape]
  obtain ⟨⟨pending, out₁⟩, processed, ran⟩ := bind_eq_ok.mp ran
  obtain ⟨total, addedTotal, ran⟩ := bind_eq_ok.mp ran
  obtain ⟨rfl, bounded⟩ := addU64_eq_ok.mp addedTotal
  obtain ⟨out₂, skip, checkedSkip⟩ := bind_eq_ok.mp ran
  rcases createCert_checked (fun due cert made => by
    rw [Bool.and_eq_true] at due
    exact .skip due.1 bounded (isNone_iff_eq_none.mp due.2) made) skip with ⟨created, _⟩
  exact (processPendingSafeToNotar_checked processed).1.trans
    (created.trans (checkSafeToSkip_checked checkedSkip))

theorem countFinalizeStake_checked (ran : state.countFinalizeStake stake info out = .ok (after, out')) :
    Checked info { state with finalizeStake := state.finalizeStake + stake } out after out' := by
  obtain ⟨finalizeStake, added, ran⟩ := bind_eq_ok.mp ran
  obtain ⟨rfl, bounded⟩ := addU64_eq_ok.mp added
  obtain ⟨out₁, final, done⟩ := bind_eq_ok.mp ran
  cases done
  exact (createCert_checked (fun due cert made => by
    rw [Bool.and_eq_true] at due
    exact .final due.1 bounded (isNone_iff_eq_none.mp due.2) made) final).1

structure Added (info : EpochInfo) (state : SlotState) (vote : Vote) (stake : Nat) (after : SlotState)
    (out : SlotStateOutputs) : Prop where
  marks : Marks ((state.tallied vote stake).stored vote) after
  certs : ∀ cert ∈ out.certs, Created info (state.tallied vote stake) cert
  events : ∀ event ∈ out.events, Justifies info (state.tallied vote stake) event
  makes : Makes info (state.tallied vote stake) vote out.certs

theorem storeAndCount_added
    (ran : state.storeAndCount vote stake info = .ok (after, out)) : Added info state vote stake after out := by
  -- from the checks on the counted state to the stored one
  have whole : ∀ {checked : SlotState}, Checked info (state.tallied vote stake) .empty checked out →
      after = checked.stored vote → Makes info (state.tallied vote stake) vote out.certs →
      Added info state vote stake after out := by
    rintro checked ⟨marks, certs, _, events⟩ rfl makes
    refine ⟨marks.stored vote, ?_, ?_, makes⟩
    · intro cert member
      exact (certs cert member).resolve_left not_mem_nil
    · intro event member
      exact (events event member).resolve_left not_mem_nil
  cases vote with
  | notar vote =>
    obtain ⟨⟨checked, out₁⟩, counted, done⟩ := bind_eq_ok.mp ran
    cases done
    obtain ⟨checks, makes⟩ := countNotarStake_checked counted
    exact whole checks rfl makes
  | notarFallback vote =>
    obtain ⟨⟨checked, out₁⟩, counted, ran⟩ := bind_eq_ok.mp ran
    obtain ⟨_, _, done⟩ := bind_eq_ok.mp ran
    cases done
    obtain ⟨checks, makes⟩ := countNotarFallbackStake_checked counted
    exact whole checks rfl makes
  | skip vote =>
    obtain ⟨both, added, counted⟩ := bind_eq_ok.mp ran
    obtain ⟨rfl, _⟩ := addU64_eq_ok.mp added
    exact whole (countSkipStake_checked counted) rfl trivial
  | skipFallback vote => exact whole (countSkipStake_checked ran) rfl trivial
  | final vote => exact whole (countFinalizeStake_checked ran) rfl trivial

theorem addVote_added (ran : state.addVote vote stake info = .ok (after, out)) :
    Added info state vote stake after out := by
  obtain ⟨⟨stored, out₁⟩, counted, ran⟩ := bind_eq_ok.mp ran
  have added := storeAndCount_added counted
  dsimp only at ran
  split at ran
  · obtain ⟨checked, same⟩ := processPendingSafeToNotar_checked ran
    refine ⟨added.marks.trans checked.marks, by rw [same]; exact added.certs, ?_, by rw [same]; exact added.makes⟩
    intro event member
    obtain earlier | justified := checked.events event member
    · exact added.events event earlier
    · have told := added.marks.justifies justified
      cases vote <;> cases event <;> exact told
  · cases ran
    exact added

end SlotState

end Karstflow.Alpenglow
