import Karstflow.Sbpf.VoteProgram

namespace Karstflow.Sbpf.VoteProgram

open Data Karstflow.Types VoteAccount ExecutionContext List Table

open Consensus (Lockout maxLockoutHistory)

/-! Who has to sign for a change of a vote account. -/

/-- The forms that act for an authority through the base key it derives from. -/
def Instruction.seeded : Instruction → Bool
  | .authorizeWithSeed | .authorizeCheckedWithSeed => true
  | _ => false

/-- The authority signed; in the seeded forms, a base key that it derives from. -/
def Backed (host : Host) (context : ExecutionContext) (instruction : Instruction) (authority : Pubkey) :
    Prop :=
  if instruction.seeded = true then
    ∃ base ∈ context.signers, ∃ seed owner, Pubkey.createWithSeed host.sha256 base seed owner = .ok authority
  else authority ∈ context.signers

/-- The signatures cover the step from one vote state to another. -/
structure Permitted (host : Host) (context : ExecutionContext) (instruction : Instruction)
    (old new : VoteAccount) : Prop where
  voting : new.voting ≠ old.voting → old.authorizedVoter ∈ context.signers
  voter : new.authorizedVoter ≠ old.authorizedVoter →
    Backed host context instruction old.authorizedVoter ∨ Backed host context instruction old.authorizedWithdrawer
  withdrawer : new.authorizedWithdrawer ≠ old.authorizedWithdrawer →
    Backed host context instruction old.authorizedWithdrawer
  commission : new.commission ≠ old.commission → Backed host context instruction old.authorizedWithdrawer
  node : new.nodePubkey ≠ old.nodePubkey → Backed host context instruction old.authorizedWithdrawer

/-- The signatures cover what the modified accounts hold for the vote account. -/
def Covered (host : Host) (context : ExecutionContext) (instruction : Instruction)
    (entry : InstructionAccount) (old : VoteAccount) (modified : Modified) : Prop :=
  ∀ written, modified.get entry.pubkey = some written →
    (written.lamports < entry.account.lamports → Backed host context instruction old.authorizedWithdrawer) ∧
    ∀ new, deserialize written.data = some new → Permitted host context instruction old new

/-- The new authority that an authorize instruction names is covered. -/
def AuthorityBacked (host : Host) (context : ExecutionContext) (instruction : Instruction)
    (old : VoteAccount) (arguments : Nat × Pubkey) : Prop :=
  (arguments.1 = 0 → arguments.2 ≠ old.authorizedVoter →
    Backed host context instruction old.authorizedVoter ∨
      Backed host context instruction old.authorizedWithdrawer) ∧
  (arguments.1 = 1 → arguments.2 ≠ old.authorizedWithdrawer →
    Backed host context instruction old.authorizedWithdrawer)

/-- The signatures that a handler leaves to its caller, read off the arguments
and the stored state. -/
def Demands (host : Host) (context : ExecutionContext) (entry : InstructionAccount) (old : VoteAccount)
    (instruction : Instruction) : Prop :=
  match instruction with
  | .initializeAccount => ∃ arguments, initializeArguments context.instructionData = .ok arguments ∧
      Permitted host context instruction old arguments.state
  | .initializeAccountV2 => ∃ arguments, initializeV2Arguments context.instructionData = .ok arguments ∧
      Permitted host context instruction old arguments.state
  | .authorize => ∃ arguments, authorizeArguments context.instructionData = .ok arguments ∧
      AuthorityBacked host context instruction old arguments
  | .authorizeWithSeed => ∃ arguments, authorizeWithSeedArguments context.instructionData = .ok arguments ∧
      AuthorityBacked host context instruction old arguments
  | .authorizeChecked => ∃ arguments, checkedArguments "AuthorizeChecked" context = .ok arguments ∧
      AuthorityBacked host context instruction old arguments
  | .authorizeCheckedWithSeed =>
    ∃ arguments, checkedArguments "AuthorizeCheckedWithSeed" context = .ok arguments ∧
    AuthorityBacked host context instruction old arguments
  | .vote | .voteSwitch => old.authorizedVoter ∈ context.signers
  | .updateVoteState | .updateVoteStateSwitch | .compactUpdateVoteState | .compactUpdateVoteStateSwitch
  | .towerSync | .towerSyncSwitch =>
    ∃ arguments, updateArguments context.instructionData = .ok arguments ∧
    (arguments.2 ≠ old.voting.votes ∨ arguments.1 ≠ old.voting.rootSlot →
      old.authorizedVoter ∈ context.signers)
  | .updateValidatorIdentity => ∃ identity, context.accounts[1]? = some identity ∧
      (identity.pubkey ≠ old.nodePubkey → old.authorizedWithdrawer ∈ context.signers)
  | .withdraw =>
    -- A recipient that is the vote account itself is written over it, as it was listed.
    ∀ recipient, context.accounts[1]? = some recipient → recipient.pubkey = entry.pubkey →
      ∀ new, deserialize recipient.account.data = some new →
        Permitted host context instruction old new
  | .updateCommission | .updateCommissionCollector | .updateCommissionBps | .depositDelegatorRewards => True

section

variable {host : Host} {context : ExecutionContext}
variable {entry : InstructionAccount} {new state : VoteAccount}

theorem Permitted.refl (old : VoteAccount) : Permitted host context instruction old old :=
  ⟨absurd rfl, absurd rfl, absurd rfl, absurd rfl, absurd rfl⟩

theorem covered_store_iff (read : deserialize state.serialize = some new) :
    Covered host context instruction entry old (storeVoteState entry state) ↔
      Permitted host context instruction old new := by
  constructor
  · intro covered
    exact (covered _ (get_insert_self _ _ _)).2 new read
  · intro permitted written lookup
    rw [storeVoteState, get_insert_self] at lookup
    cases lookup
    refine ⟨fun less => absurd less (lt_irrefl _), ?_⟩
    intro other readOther
    cases read.symm.trans readOther
    exact permitted

theorem covered_store_same_iff (fits : state.voting.Fits)
    (unlanded : state.voting.votes.map .stored = state.voting.votes)
    (short : state.voting.epochCredits.length ≤ maxEpochCreditsHistory) :
    Covered host context instruction entry old (storeVoteState entry state) ↔
      Permitted host context instruction old state := by
  have read := deserialize_stored fits short
  rw [stored, unlanded] at read
  exact covered_store_iff read

theorem covered_store_kept_iff (stored : deserialize data = some old) (kept : state.voting = old.voting) :
    Covered host context instruction entry old (storeVoteState entry state) ↔
      Permitted host context instruction old state := by
  obtain ⟨fits, unlanded, short⟩ := deserialize_fits stored
  rw [← kept] at fits unlanded short
  exact covered_store_same_iff fits unlanded short

theorem readU64_lt (read : readU64 data offset = .ok value) : value < 256 ^ 8 := by
  simp only [readU64, bind_eq_ok, required, pure_eq_ok] at read
  obtain ⟨within, rfl⟩ := read
  have bounded := leValue_lt (data.extract offset (offset + 8))
  rwa [length_extract_of_le within, Nat.add_sub_cancel_left] at bounded

theorem readU32_lt (read : readU32 data offset = .ok value) : value < 256 ^ 4 := by
  simp only [readU32, bind_eq_ok, required, pure_eq_ok] at read
  obtain ⟨within, rfl⟩ := read
  have bounded := leValue_lt (data.extract offset (offset + 4))
  rwa [length_extract_of_le within, Nat.add_sub_cancel_left] at bounded

theorem voteStep_ok (stepped : voteStep host data state index = .ok new) :
    ∃ slot, slot < 256 ^ 8 ∧ state.voting.processVote slot = .ok new.voting ∧
      new = { state with voting := new.voting } := by
  simp only [voteStep, bind_eq_ok] at stepped
  obtain ⟨scaled, -, offset, -, slot, read, stepped⟩ := stepped
  split at stepped
  · rename_i voting voted
    cases stepped
    exact ⟨slot, readU64_lt read, voted, rfl⟩
  · cases stepped

def topSlot (state : VoteAccount) : Option Nat := state.voting.votes.getLast?.map LandedVote.slot

theorem topSlot_of_step (voted : state.voting.processVote slot = .ok new.voting) :
    topSlot new = some slot ∧ ∀ top, topSlot state = some top → top < slot := by
  obtain ⟨last, present, reached⟩ := VoteState.processVote_top voted
  obtain ⟨later, -⟩ := VoteState.processVote_ok voted
  refine ⟨by rw [topSlot, present, Option.map_some, reached], ?_⟩
  intro top above
  obtain ⟨last, present, rfl⟩ := Option.map_eq_some_iff.mp above
  exact later last present

/-- A run of votes keeps everything but the voting part, whose top rises with
every vote. -/
theorem voteSteps_ok (fits : state.voting.Fits) (ran : indices.foldlM (voteStep host data) state = .ok new) :
    new.voting.Fits ∧ new = { state with voting := new.voting } ∧
      (indices ≠ [] → ∃ slot, topSlot new = some slot ∧ ∀ top, topSlot state = some top → top < slot) := by
  induction indices generalizing state with
  | nil =>
    cases ran
    exact ⟨fits, rfl, absurd rfl⟩
  | cons index rest ih =>
    rw [foldlM_cons, bind_eq_ok] at ran
    obtain ⟨middle, stepped, ran⟩ := ran
    obtain ⟨slot, bounded, voted, kept⟩ := voteStep_ok stepped
    obtain ⟨reached, rising⟩ := topSlot_of_step voted
    obtain ⟨newFits, newKept, newTop⟩ := ih (VoteState.processVote_fits fits bounded voted) ran
    refine ⟨newFits, ?_, fun _ => ?_⟩
    · rw [newKept, kept]
    · cases rest with
      | nil =>
        cases ran
        exact ⟨slot, reached, rising⟩
      | cons second others =>
        obtain ⟨last, top, above⟩ := newTop (cons_ne_nil _ _)
        exact ⟨last, top, fun low below => (rising low below).trans (above slot reached)⟩

theorem parseVotes_fits {count : Nat}
    (read : parseVotes data count offset = .ok parsed) : ∀ vote ∈ parsed.1, vote.stored = vote ∧ vote.Fits := by
  induction count generalizing offset parsed with
  | zero =>
    cases read
    exact fun vote member => absurd member not_mem_nil
  | succ count ih =>
    simp only [parseVotes, bind_eq_ok, required, pure_eq_ok] at read
    obtain ⟨-, slot, slotRead, confirmations, countRead, rest, restRead, rfl⟩ := read
    exact forall_mem_cons.mpr ⟨⟨rfl, readU64_lt slotRead, readU32_lt countRead⟩, ih restRead⟩

theorem updateArguments_fits
    (parsed : updateArguments data = .ok arguments) : (∀ root, arguments.1 = some root → root < 256 ^ 8) ∧
      ∀ vote ∈ arguments.2, vote.stored = vote ∧ vote.Fits := by
  simp only [updateArguments, bind_eq_ok, required, pure_eq_ok] at parsed
  obtain ⟨root, rootRead, -, count, -, votes, votesRead, rfl⟩ := parsed
  refine ⟨?_, parseVotes_fits votesRead⟩
  intro slot present
  simp only [parseOptionalSlot, bind_eq_ok, required] at rootRead
  obtain ⟨-, tag, -, rootRead⟩ := rootRead
  split at rootRead
  · simp only [bind_eq_ok, pure_eq_ok] at rootRead
    obtain ⟨value, valueRead, rfl⟩ := rootRead
    cases present
    exact readU64_lt valueRead
  · cases rootRead
    cases present

theorem updated_fits {voting : VoteState} (fits : state.voting.Fits) (parsed : updateArguments data = .ok arguments)
    (updated : state.voting.applyVoteStateUpdate arguments.2 arguments.1 0 currentSlot = .ok voting) :
    voting.Fits ∧ voting.votes.map .stored = arguments.2 := by
  obtain ⟨rootFits, votesFit⟩ := updateArguments_fits parsed
  obtain ⟨few, votes, root, credits⟩ := VoteState.applyVoteStateUpdate_stored updated
  refine ⟨⟨?_, ?_, root ▸ rootFits, ?_⟩, ?_⟩
  · rw [votes, length_map]
    exact lt_of_le_of_lt few (by decide)
  · intro vote member
    rw [votes] at member
    obtain ⟨original, present, rfl⟩ := mem_map.mp member
    exact (votesFit original present).2
  · obtain kept | ⟨-, earned, grown⟩ := credits
    · rw [kept]
      exact fits.credits
    · rw [grown]
      exact VoteState.addEpochCredits_fits (by decide) fits.credits
  · rw [votes, map_map]
    exact (map_congr_left fun vote member => (votesFit vote member).1).trans (map_id' _)

section

variable (stored : VoteAccount.deserialize entry.account.data = some old)

include stored

theorem covered_authorizeTo_iff (moved : authorizeTo old arguments.1 arguments.2 = .ok state) :
    Covered host context instruction entry old (storeVoteState entry state) ↔
      AuthorityBacked host context instruction old arguments := by
  unfold authorizeTo at moved
  unfold AuthorityBacked
  split at moved
  · rename_i voter
    cases moved
    rw [voter]
    refine (covered_store_kept_iff stored ?_).trans ⟨?_, ?_⟩
    · rfl
    · intro permitted
      exact ⟨fun _ => permitted.voter, fun impossible => absurd impossible (by decide)⟩
    · intro backed
      exact ⟨absurd rfl, backed.1 rfl, absurd rfl, absurd rfl, absurd rfl⟩
  · split at moved
    · rename_i withdrawer
      cases moved
      rw [withdrawer]
      refine (covered_store_kept_iff stored ?_).trans ⟨?_, ?_⟩
      · rfl
      · intro permitted
        exact ⟨fun impossible => absurd impossible (by decide), fun _ => permitted.withdrawer⟩
      · intro backed
        exact ⟨absurd rfl, absurd rfl, backed.2 rfl, absurd rfl, absurd rfl⟩
    · cases moved

theorem covered_votes_iff (some : indices ≠ []) (voted : indices.foldlM (voteStep host data) old = .ok state) :
    Covered host context instruction entry old (storeVoteState entry state) ↔
      old.authorizedVoter ∈ context.signers := by
  obtain ⟨fits, -, -⟩ := deserialize_fits stored
  obtain ⟨votedFits, kept, rises⟩ := voteSteps_ok fits voted
  obtain ⟨slot, top, above⟩ := rises some
  rw [covered_store_iff (deserialize_serialize votedFits rfl), kept]
  constructor
  · intro permitted
    refine permitted.voting fun same => ?_
    have readTop : topSlot old = topSlot state := by
      rw [topSlot, ← same]
      simp only [VoteAccount.stored, getLast?_map, Option.map_map, topSlot]
      rfl
    exact absurd (above slot (readTop.trans top)) (lt_irrefl _)
  · intro signed
    exact ⟨fun _ => signed, absurd rfl, absurd rfl, absurd rfl, absurd rfl⟩

theorem covered_update_iff {voting : VoteState} (parsed : updateArguments data = .ok arguments)
    (updated : old.voting.applyVoteStateUpdate arguments.2 arguments.1 0 currentSlot = .ok voting) :
    Covered host context instruction entry old (storeVoteState entry { old with voting }) ↔
      (arguments.2 ≠ old.voting.votes ∨ arguments.1 ≠ old.voting.rootSlot → old.authorizedVoter ∈ context.signers) := by
  obtain ⟨fits, -, short⟩ := deserialize_fits stored
  obtain ⟨votingFits, storedVotes⟩ := updated_fits fits parsed updated
  obtain ⟨-, -, root, credits⟩ := VoteState.applyVoteStateUpdate_stored updated
  by_cases same : arguments.2 = old.voting.votes ∧ arguments.1 = old.voting.rootSlot
  · have kept : voting.epochCredits = old.voting.epochCredits := by
      rcases credits with kept | moved
      · exact kept
      · exact absurd same.2.symm moved.1
    have read : deserialize { old with voting }.serialize = some old := by
      rw [@deserialize_stored { old with voting } votingFits (kept ▸ short), VoteAccount.stored]
      dsimp only
      rw [storedVotes, root, kept, same.1, same.2]
    refine iff_of_true ((covered_store_iff read).mpr (.refl old)) ?_
    intro different
    exact different.elim (absurd same.1) (absurd same.2)
  · rw [covered_store_iff (@deserialize_serialize { old with voting } _ _ votingFits rfl)]
    constructor
    · intro permitted _
      refine permitted.voting fun unchanged => same ?_
      rw [← unchanged, ← storedVotes, ← root]
      exact ⟨rfl, rfl⟩
    · intro signed
      exact ⟨fun _ => signed (not_and_or.mp same), absurd rfl, absurd rfl, absurd rfl, absurd rfl⟩

variable (signed : context.signers ≠ [])

include signed

theorem covered_writes_iff (writes : Writes host context (deserialize entry.account.data) state instruction) :
    Covered host context instruction entry old (storeVoteState entry state) ↔
      Demands host context entry old instruction := by
  cases instruction with
  | initializeAccount | initializeAccountV2 =>
    obtain ⟨arguments, parsed, rfl⟩ := writes
    simp only [Demands, parsed, Except.ok.injEq, exists_eq_left']
    exact covered_store_same_iff VoteState.new_fits rfl (Nat.zero_le _)
  | authorize | authorizeWithSeed | authorizeChecked | authorizeCheckedWithSeed =>
    obtain ⟨_, loaded, arguments, parsed, moved⟩ := writes
    cases stored.symm.trans loaded
    simp only [Demands, parsed, Except.ok.injEq, exists_eq_left']
    exact covered_authorizeTo_iff stored moved
  | vote | voteSwitch =>
    obtain ⟨_, loaded, slotCount, -, some, voted⟩ := writes
    cases stored.symm.trans loaded
    exact covered_votes_iff stored (by simpa using some) voted
  | updateVoteState | updateVoteStateSwitch | compactUpdateVoteState | compactUpdateVoteStateSwitch
  | towerSync | towerSyncSwitch =>
    obtain ⟨_, loaded, arguments, parsed, currentSlot, voting, updated, rfl⟩ := writes
    cases stored.symm.trans loaded
    simp only [Demands, parsed, Except.ok.injEq, exists_eq_left']
    exact covered_update_iff stored parsed updated
  | updateValidatorIdentity =>
    obtain ⟨_, loaded, identity, second, rfl⟩ := writes
    cases stored.symm.trans loaded
    simp only [Demands, second, Option.some.injEq, exists_eq_left']
    refine (covered_store_kept_iff stored ?_).trans ⟨?_, ?_⟩
    · rfl
    · exact Permitted.node
    · intro signed
      exact ⟨absurd rfl, absurd rfl, absurd rfl, absurd rfl, signed⟩
  | updateCommission =>
    obtain ⟨_, loaded, withdrawerSigned, commission, rfl⟩ := writes
    cases stored.symm.trans loaded
    refine iff_of_true ((covered_store_kept_iff stored ?_).mpr ?_) trivial
    · rfl
    · exact ⟨absurd rfl, absurd rfl, absurd rfl, fun _ => withdrawerSigned.resolve_left signed, absurd rfl⟩
  | withdraw | updateCommissionCollector | updateCommissionBps | depositDelegatorRewards => cases writes

variable (first : context.accounts[0]? = some entry)

include first

/-- A withdrawal has the withdrawer's signature and keeps the state, unless the
recipient is a second listing of the vote account. -/
theorem covered_withdraw_iff (ran : executeWithdraw context = .ok modified) :
    Covered host context .withdraw entry old modified ↔
      ∀ recipient, context.accounts[1]? = some recipient → recipient.pubkey = entry.pubkey →
        ∀ new, deserialize recipient.account.data = some new → Permitted host context .withdraw old new := by
  simp only [executeWithdraw, bind_eq_ok, required, account_eq_ok, requireSigner_eq_ok, exists_const, signed, false_or,
    deserializeVoteState_eq_ok, pure_eq_ok] at ran
  obtain ⟨-, -, lamports, -, listed, found, recipient, second, -, state, loaded, withdrawerSigned, -, built⟩ := ran
  cases first.symm.trans found
  cases stored.symm.trans loaded
  simp only [second, Option.some.injEq, forall_eq']
  rw [← built]
  by_cases same : recipient.pubkey = entry.pubkey
  · rw [same, insert_insert]
    constructor
    · intro covered _ new read
      exact (covered _ (get_insert_self _ _ _)).2 new read
    · intro permitted written lookup
      rw [get_insert_self] at lookup
      cases lookup
      exact ⟨fun _ => withdrawerSigned, permitted rfl⟩
  · constructor
    · intro _ impossible
      exact absurd impossible same
    · intro _ written lookup
      rw [get_insert_ne (symm same), get_insert_self] at lookup
      cases lookup
      refine ⟨fun _ => withdrawerSigned, ?_⟩
      intro new read
      rw [Account.debit_data, stored] at read
      cases read
      exact .refl old

theorem covered_dispatch_iff (ran : dispatch host context instruction = .ok modified) :
    Covered host context instruction entry old modified ↔ Demands host context entry old instruction := by
  by_cases withdrawal : instruction = .withdraw
  · subst withdrawal
    exact covered_withdraw_iff stored signed first ran
  · obtain ⟨listed, state, found, -, rfl, writes⟩ := dispatch_writes ran withdrawal
    cases first.symm.trans found
    exact covered_writes_iff stored signed writes

end

/-- Every change that a successful instruction makes to the vote account has the
signatures it needs. -/
def Guarded (host : Host) (context : ExecutionContext) (outcome : ExecutionOutcome) : Prop :=
  ∀ instruction, instructionOf context.instructionData = some instruction →
    ∀ entry, context.accounts[0]? = some entry →
      ∀ old, deserialize entry.account.data = some old →
        Covered host context instruction entry old outcome.modifiedAccounts

/-- A successful instruction is guarded exactly when its caller has the
signatures that its handler never asked for. -/
theorem guarded_iff_demands {outcome : ExecutionOutcome} (signed : context.signers ≠ [])
    (ran : execute host context = .ok outcome) : Guarded host context outcome ↔
      ∀ instruction, instructionOf context.instructionData = some instruction →
        ∀ entry, context.accounts[0]? = some entry → ∀ old, VoteAccount.deserialize entry.account.data = some old →
            Demands host context entry old instruction := by
  obtain ⟨instruction, found, dispatched⟩ := execute_ok ran
  constructor
  · intro guarded other foundOther entry first old stored
    cases found.symm.trans foundOther
    exact (covered_dispatch_iff stored signed first dispatched).mp (guarded _ found entry first old stored)
  · intro demanded other foundOther entry first old stored
    cases found.symm.trans foundOther
    exact (covered_dispatch_iff stored signed first dispatched).mpr (demanded _ found entry first old stored)

end

def freshVoteAccount : VoteAccount :=
  new (.filled 32 1) (.filled 32 2) (.filled 32 3) 0

/-- Key nine becomes the withdrawer; `signer` signs. -/
def authorizeContext (signer : UInt8) : ExecutionContext :=
  { accounts := [⟨.filled 32 7, { Account.zeroed with data := freshVoteAccount.serialize }, true⟩]
    instructionData := leBytes 4 1 ++ (replicate 32 9 ++ leBytes 4 1)
    sysvarSnapshot := none
    signers := [.filled 32 signer] }

theorem stranger_authorize_not_guarded : ∃ outcome, execute Host.bare (authorizeContext 9) = .ok outcome ∧
      (authorizeContext 9).signers ≠ [] ∧ ¬ Guarded Host.bare (authorizeContext 9) outcome := by
  refine ⟨_, rfl, by decide, ?_⟩
  intro guarded
  have covered := guarded .authorize rfl _ rfl freshVoteAccount (by decide) _ rfl
  have permitted := covered.2 { freshVoteAccount with authorizedWithdrawer := .filled 32 9 } (by decide)
  have withdrawerSigned : freshVoteAccount.authorizedWithdrawer ∈ (authorizeContext 9).signers :=
    permitted.withdrawer (by decide)
  exact absurd withdrawerSigned (by decide)

/-- The withdrawer that is replaced signs. -/
theorem withdrawer_authorize_guarded : ∃ outcome, execute Host.bare (authorizeContext 3) = .ok outcome ∧
      Guarded Host.bare (authorizeContext 3) outcome := by
  refine ⟨_, rfl, (guarded_iff_demands (by decide) rfl).mpr ?_⟩
  rintro instruction ⟨⟩ entry ⟨⟩ old loaded
  have fresh : VoteAccount.deserialize freshVoteAccount.serialize = some freshVoteAccount := by decide
  cases fresh.symm.trans loaded
  have signed : freshVoteAccount.authorizedWithdrawer ∈ (authorizeContext 3).signers := by decide
  exact ⟨_, rfl, fun other => absurd other (by decide), fun _ _ => signed⟩

end Karstflow.Sbpf.VoteProgram
