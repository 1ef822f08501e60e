import Karstflow.Sbpf.VoteAuthorization

namespace Karstflow.Sbpf.VoteProgram

open Data Karstflow.Types VoteAccount ExecutionContext List

/-! Which states the vote program reads back as it wrote them. -/

/-- The program runs and stores the state. The account may hold anything before,
so any number of instructions may have run on it. -/
def Stores (host : Host) (context : ExecutionContext) (state : VoteAccount) : Prop :=
  ∃ instruction entry, instructionOf context.instructionData = some instruction ∧
    context.accounts[0]? = some entry ∧ dispatch host context instruction = .ok (storeVoteState entry state) ∧
    Writes host context (deserialize entry.account.data) state instruction

theorem execute_stores (ran : execute host context = .ok outcome)
    (other : instructionOf context.instructionData ≠ some .withdraw) : ∃ state, Stores host context state := by
  obtain ⟨instruction, found, ran⟩ := execute_ok ran
  obtain ⟨entry, state, first, -, stored, writes⟩ := dispatch_writes ran fun same => other (same ▸ found)
  exact ⟨state, instruction, entry, found, first, stored ▸ ran, writes⟩

theorem Stores.fits (stores : Stores host context state) : state.voting.Fits := by
  obtain ⟨instruction, entry, -, -, -, writes⟩ := stores
  cases instruction with
  | initializeAccount | initializeAccountV2 =>
      obtain ⟨arguments, -, rfl⟩ := writes
      exact VoteState.new_fits
  | authorize | authorizeChecked | authorizeWithSeed | authorizeCheckedWithSeed =>
      obtain ⟨old, loaded, arguments, -, moved⟩ := writes
      have fits := (deserialize_fits loaded).1
      unfold authorizeTo at moved
      split at moved
      · cases moved
        exact fits
      · split at moved
        · cases moved
          exact fits
        · cases moved
  | vote | voteSwitch =>
      obtain ⟨old, loaded, slotCount, -, -, voted⟩ := writes
      exact (voteSteps_ok (deserialize_fits loaded).1 voted).1
  | updateVoteState | updateVoteStateSwitch | compactUpdateVoteState | compactUpdateVoteStateSwitch
  | towerSync | towerSyncSwitch =>
      obtain ⟨old, loaded, arguments, parsed, currentSlot, voting, updated, rfl⟩ := writes
      exact (updated_fits (deserialize_fits loaded).1 parsed updated).1
  | updateValidatorIdentity =>
      obtain ⟨old, loaded, identity, -, rfl⟩ := writes
      exact (deserialize_fits loaded).1
  | updateCommission =>
      obtain ⟨old, loaded, -, commission, rfl⟩ := writes
      exact (deserialize_fits loaded).1
  | withdraw | updateCommissionCollector | updateCommissionBps | depositDelegatorRewards => cases writes

/-- A stored state comes back whole, the latencies apart, exactly when its credit
history is within the length that the reader stops at. -/
theorem stored_reads_back_iff (stores : Stores host context state) :
    deserialize state.serialize = some state.stored ↔ state.voting.epochCredits.length ≤ maxEpochCreditsHistory :=
  ⟨fun read => (deserialize_fits read).2.2, deserialize_stored stores.fits⟩

/-- A vote for the slots from one on, on a fresh vote account. -/
def voteContext (slotCount : Nat) : ExecutionContext :=
  { accounts := [⟨.filled 32 7, { Account.zeroed with data := freshVoteAccount.serialize }, true⟩]
    instructionData := leBytes 4 2 ++ (leBytes 8 slotCount ++
      ((range slotCount).flatMap (fun index => leBytes 8 (index + 1)) ++ replicate 32 0))
    sysvarSnapshot := none
    signers := [.filled 32 2] }

theorem voteContext_stores (runs : (execute .bare (voteContext slots)).isOk = true)
    (vote : instructionOf (voteContext slots).instructionData = some .vote)
    (many : readU64 (voteContext slots).instructionData 4 = .ok slots)
    (counts : ((range slots).foldlM (voteStep .bare (voteContext slots).instructionData) freshVoteAccount).map
      (fun voted => voted.voting.epochCredits.length) = .ok credits) :
    ∃ state, Stores .bare (voteContext slots) state ∧ state.voting.epochCredits.length = credits := by
  obtain ⟨outcome, ran⟩ : ∃ outcome, execute .bare (voteContext slots) = .ok outcome := by
    cases ran : execute .bare (voteContext slots) with
    | error reason => simp [ran, Except.isOk, Except.toBool] at runs
    | ok outcome => exact ⟨outcome, rfl⟩
  obtain ⟨state, stores⟩ := execute_stores ran (by rw [vote]; simp)
  refine ⟨state, stores, ?_⟩
  obtain ⟨instruction, entry, found, first, -, writes⟩ := stores
  cases vote.symm.trans found
  cases first
  obtain ⟨old, loaded, slotCount, counted, -, voted⟩ := writes
  have fresh : deserialize freshVoteAccount.serialize = some freshVoteAccount := by decide +kernel
  cases fresh.symm.trans loaded
  cases many.symm.trans counted
  obtain ⟨_, again, length⟩ := map_eq_ok.mp counts
  cases voted.symm.trans again
  exact length

theorem short_vote_reads_back : ∃ state, Stores .bare (voteContext 1) state ∧
      deserialize state.serialize = some state.stored := by
  obtain ⟨state, stores, length⟩ := @voteContext_stores 1 1 (by decide +kernel) (by decide +kernel)
    (by decide +kernel) (by decide +kernel)
  exact ⟨state, stores, (stored_reads_back_iff stores).mpr (by rw [length]; decide)⟩

/-- One instruction votes for 65 slots, and each adds an entry to the history. -/
theorem long_vote_not_read_back : ∃ state, Stores .bare (voteContext 65) state ∧
      deserialize state.serialize ≠ some state.stored := by
  obtain ⟨state, stores, length⟩ := @voteContext_stores 65 65 (by decide +kernel) (by decide +kernel)
    (by decide +kernel) (by decide +kernel)
  refine ⟨state, stores, fun same => ?_⟩
  have short : state.voting.epochCredits.length ≤ maxEpochCreditsHistory := (deserialize_fits same).2.2
  rw [length] at short
  exact absurd short (by decide)

end Karstflow.Sbpf.VoteProgram
