import Karstflow.Data.Steps
import Karstflow.Runtime.Landing
import Karstflow.Runtime.SlotEnd

namespace Karstflow.Runtime

open Data Karstflow.Types Sbpf Ledger List

/-! A bank after its last slot operation: what can still change its hash. -/

inductive BankOperation where
  | processTransaction (backend : Backend) (transaction : SanitizedTransaction) (computeLimit : Nat)
  | registerTick
  | registerTickWithHash (pohHash : Hash)
  | registerTransaction
  | distributeFees
  | collectFees
  | finishSlot
  | freeze
  | markRooted

/-- The bank that an operation answers with, or the old one if it is refused. -/
def Ledger.orRefused {ε : Type} (ledger : Ledger) : Except ε Bank → Ledger
  | .ok bank => { ledger with bank }
  | .error _ => ledger

def BankOperation.apply (platform : Platform) (ledger : Ledger) : BankOperation → Ledger
  | .processTransaction backend transaction computeLimit =>
    (Runtime.processTransaction platform backend ledger transaction computeLimit).1
  | .registerTick => ledger.orRefused (ledger.bank.registerTick platform)
  | .registerTickWithHash pohHash => ledger.orRefused (ledger.bank.registerTickWithHash pohHash)
  | .registerTransaction => ledger.orRefused ledger.bank.registerTransaction
  | .distributeFees =>
    match ledger.distributeFees platform with
    | .ok (after, _) => after
    | .error _ => ledger
  | .collectFees => ledger.orRefused (ledger.bank.collectFees.map Prod.fst)
  | .finishSlot =>
    match ledger.finishSlot platform with
    | .ok (after, _) => after
    | .error _ => ledger
  | .freeze => ledger.orRefused ledger.bank.freeze
  | .markRooted => ledger.orRefused ledger.bank.markRooted

def Ledger.after (platform : Platform) (ledger : Ledger) (operations : List BankOperation) : Ledger :=
  operations.foldl (fun ledger operation => operation.apply platform ledger) ledger

/-- The bank still has the hash that it had when it was finished, and that
hash is the one of its slot in the sysvar and stands in the blockhash queue. -/
structure HashKept (platform : Platform) (finished reached : Ledger) : Prop where
  same : reached.bank.hash platform = finished.bank.hash platform
  listed : ∀ sysvars, finished.shared.sysvars = some sysvars →
    sysvars.slotHash finished.bank.slot = some (reached.bank.hash platform)
  queued : (finished.bank.blockhashQueue.position (reached.bank.hash platform)).isSome

/-- A slot whose end changes no account after its hash is taken: it is not the
first of its epoch, and nothing is or will be in the incinerator. -/
structure EndsWithHash (ledger : Ledger) : Prop where
  within_epoch : ledger.bank.isEpochBoundary = false
  incinerator_empty : Execution.lamportsOf ledger.shared.published incineratorId = 0
  leader_other : ledger.bank.getLeader ≠ some incineratorId
  rewards_other : ∀ distributor, ledger.bank.rewardsDistributor = some distributor →
    ∀ reward ∈ distributor.rewardsForSlot ledger.bank.slot, reward.account ≠ incineratorId

/-- An operation that executes no transaction: the bank is rooted, or the
transaction does not land, or its accounts do not load. -/
def BankOperation.Harmless (platform : Platform) (ledger : Ledger) : BankOperation → Prop
  | .processTransaction _ transaction computeLimit =>
    ledger.bank.status = .rooted ∨
      ∀ tracker landing, admission platform ledger transaction computeLimit = .landed tracker landing →
        ∃ error, loadTransactionAccounts platform ledger.shared transaction
          landing.budget.loadedAccountsDataSizeLimit = .error error
  | _ => True

section

variable {ledger after : Ledger}

theorem applyRewards_frame (platform : Platform) (rewards : List PendingReward) (ledger : Ledger) : ∃ published lthash,
      (applyRewards platform rewards ledger).1 =
        { shared := { ledger.shared with published }, bank := { ledger.bank with lthash } } ∧
      ∀ key, (∀ reward ∈ rewards, reward.account ≠ key) → published.get key = ledger.shared.published.get key := by
  induction rewards generalizing ledger with
  | nil => exact ⟨ledger.shared.published, ledger.bank.lthash, rfl, fun _ _ => rfl⟩
  | cons reward rest ih =>
    have skipped := ih ledger
    cases found : ledger.shared.published.get reward.account with
    | none =>
      obtain ⟨published, lthash, same, kept⟩ := skipped
      refine ⟨published, lthash, by simpa only [applyRewards, found] using same, ?_⟩
      intro key others
      exact kept key fun other member => others other (mem_cons_of_mem _ member)
    | some account =>
      by_cases nothing : reward.amount = 0
      · obtain ⟨published, lthash, same, kept⟩ := skipped
        refine ⟨published, lthash, by simpa only [applyRewards, found, nothing, if_true] using same, ?_⟩
        intro key others
        exact kept key fun other member => others other (mem_cons_of_mem _ member)
      · obtain ⟨published, lthash, same, kept⟩ := ih
          (ledger.storeAccount platform reward.account (account.credit reward.amount))
        refine ⟨published, lthash, ?_, ?_⟩
        · simp only [applyRewards, found, nothing, if_false]
          exact same
        intro key others
        rw [kept key fun other member => others other (mem_cons_of_mem _ member)]
        exact Table.get_insert_ne (others reward mem_cons_self).symm

/-- What the end of a slot leaves alone until the hash is taken. -/
structure SameSlot (ledger after : Ledger) : Prop where
  boundary : after.bank.isEpochBoundary = ledger.bank.isEpochBoundary
  leader : after.bank.getLeader = ledger.bank.getLeader
  incinerator : after.shared.published.get incineratorId = ledger.shared.published.get incineratorId

theorem distributeSlotRewards_same (platform : Platform) (ends : EndsWithHash ledger) :
    SameSlot ledger (ledger.distributeSlotRewards platform) := by
  cases rewarding : ledger.bank.rewardsDistributor with
  | none =>
    simp only [distributeSlotRewards, rewarding]
    exact ⟨rfl, rfl, rfl⟩
  | some distributor =>
    obtain ⟨published, lthash, same, kept⟩ :=
      applyRewards_frame platform (distributor.rewardsForSlot ledger.bank.slot) ledger
    simp only [distributeSlotRewards, rewarding, same]
    exact ⟨rfl, rfl, kept incineratorId (ends.rewards_other distributor rewarding)⟩

theorem distributeFees_same (other : ledger.bank.getLeader ≠ some incineratorId)
    (paid : ledger.distributeFees platform = .ok (after, shares)) : SameSlot ledger after := by
  simp only [distributeFees] at paid
  split at paid
  · cases paid
  split at paid
  · cases paid
    exact ⟨rfl, rfl, rfl⟩
  split at paid
  · cases paid
    exact ⟨rfl, rfl, rfl⟩
  rename_i leader chosen
  have different : incineratorId ≠ leader := by
    intro same
    split at chosen
    · exact other (same ▸ chosen)
    · cases chosen
  split at paid
  · cases paid
    exact ⟨rfl, rfl, Table.get_insert_ne different⟩
  · cases paid
    exact ⟨rfl, rfl, rfl⟩

theorem SameSlot.trans (first : SameSlot ledger middle) (second : SameSlot middle after) : SameSlot ledger after :=
  ⟨second.boundary.trans first.boundary, second.leader.trans first.leader, second.incinerator.trans first.incinerator⟩

theorem runIncinerator_eq_self (empty : Execution.lamportsOf ledger.shared.published incineratorId = 0) :
    ledger.runIncinerator platform = ledger := by
  cases found : ledger.shared.published.get incineratorId with
  | none => simp only [runIncinerator, found]
  | some account =>
    rw [Execution.lamportsOf, found, Option.elim_some] at empty
    simp only [runIncinerator, found, empty, if_true]

theorem finishSlot_stages (done : ledger.finishSlot platform = .ok (finished, summary)) :
    ∃ paid shares, (ledger.distributeSlotRewards platform).distributeFees platform = .ok (paid, shares) ∧
      let burned := (paid.publishHash platform (paid.bank.hash platform)).runIncinerator platform
      finished = { if burned.bank.isEpochBoundary then burned.processEpochBoundary platform else burned with
        bank.status := .frozen } := by
  simp only [finishSlot] at done
  split at done
  · cases done
  split at done
  · cases done
  split at done
  · cases done
  · rename_i paid leaderShare burnShare distributed
    cases done
    exact ⟨paid, _, distributed, rfl⟩

theorem finishSlot_eq_ok (ends : EndsWithHash ledger) (done : ledger.finishSlot platform = .ok (finished, summary)) :
    ∃ paid : Ledger, finished = { paid.publishHash platform (paid.bank.hash platform) with
        bank := { (paid.publishHash platform (paid.bank.hash platform)).bank with status := .frozen } } := by
  obtain ⟨paid, shares, distributed, reached⟩ := finishSlot_stages done
  have rewarded := distributeSlotRewards_same platform ends
  have same : SameSlot ledger paid := by
    apply rewarded.trans
    apply distributeFees_same _ distributed
    rw [rewarded.leader]
    exact ends.leader_other
  have empty : Execution.lamportsOf
      (paid.publishHash platform (paid.bank.hash platform)).shared.published incineratorId = 0 := by
    change (paid.shared.published.get incineratorId).elim 0 Account.lamports = 0
    rw [same.incinerator]
    exact ends.incinerator_empty
  have within : (paid.publishHash platform (paid.bank.hash platform)).bank.isEpochBoundary = false :=
    same.boundary.trans ends.within_epoch
  dsimp only at reached
  rw [runIncinerator_eq_self empty, within] at reached
  exact ⟨paid, reached⟩

theorem position_registerHash (blockhashes : BlockhashQueue) (info : BlockhashInfo) :
    ((blockhashes.registerHash info).position info.hash).isSome := by
  by_cases known : (blockhashes.position info.hash).isSome = true
  · simp only [BlockhashQueue.registerHash, known, if_true]
  · rw [BlockhashQueue.registerHash, if_neg known, BlockhashQueue.position, findIdx?_isSome]
    simp

theorem slotHash_updateSlotHashes (sysvars : SysvarCache) (slot : Nat) (hash : Hash) :
    (sysvars.updateSlotHashes slot hash).slotHash slot = some hash := by
  simp [SysvarCache.updateSlotHashes, SysvarCache.slotHash, maxSlotHashes]

theorem hashKept_finished (ends : EndsWithHash ledger)
    (done : ledger.finishSlot platform = .ok (finished, summary)) : HashKept platform finished finished := by
  obtain ⟨paid, rfl⟩ := finishSlot_eq_ok ends done
  refine ⟨rfl, ?_, position_registerHash _ _⟩
  intro sysvars there
  obtain ⟨before, -, updated⟩ := Option.map_eq_some_iff.mp there
  rw [← updated]
  exact slotHash_updateSlotHashes _ _ _

theorem isFrozen_finished
    (done : ledger.finishSlot platform = .ok (finished, summary)) : finished.bank.isFrozen = true := by
  obtain ⟨paid, shares, _, reached⟩ := finishSlot_stages done
  rw [reached]
  rfl

theorem processTransaction_harmless
    (harmless : (BankOperation.processTransaction backend transaction computeLimit).Harmless platform ledger) :
    ∃ costTracker, (processTransaction platform backend ledger transaction computeLimit).1 =
      { ledger with bank := { ledger.bank with costTracker } } := by
  cases processed : processTransaction platform backend ledger transaction computeLimit with
  | mk after answer =>
    cases processTransaction_outcome processed with
    | turnedAway missed refused | unloaded landed failed fee => exact ⟨_, rfl⟩
    | executed landed loads ran effect =>
      have running := (admission_eq_landed landed).screened.open_
      obtain rooted | unloaded := harmless
      · exact absurd rooted running
      · obtain ⟨error, failed⟩ := unloaded _ _ landed
        rw [failed] at loads
        cases loads

theorem BankOperation.apply_frozen {operation : BankOperation} (frozen : ledger.bank.isFrozen = true)
    (harmless : operation.Harmless platform ledger) : (operation.apply platform ledger).bank.isFrozen = true ∧
      (operation.apply platform ledger).bank.hash platform = ledger.bank.hash platform := by
  cases operation with
  | processTransaction backend transaction computeLimit =>
    obtain ⟨costTracker, same⟩ := processTransaction_harmless harmless
    rw [apply, same]
    exact ⟨frozen, rfl⟩
  | registerTick => simp [apply, Bank.registerTick, frozen, orRefused]
  | registerTickWithHash pohHash => simp [apply, Bank.registerTickWithHash, frozen, orRefused]
  | registerTransaction => simp [apply, Bank.registerTransaction, frozen, orRefused]
  | distributeFees => simp [apply, Ledger.distributeFees, frozen]
  | collectFees => simp [apply, Bank.collectFees, frozen, orRefused, Except.map]
  | finishSlot => simp [apply, Ledger.finishSlot, frozen]
  | freeze => simp [apply, Bank.freeze, frozen, orRefused]
  | markRooted =>
    by_cases status : ledger.bank.status = .frozen
    · simp only [apply, Bank.markRooted, status, ne_eq, not_true_eq_false, if_false, orRefused]
      exact ⟨rfl, rfl⟩
    · simp [apply, Bank.markRooted, status, orRefused, frozen]

end

/-- The hash of a finished bank stays what it was and what was published of
it, in every run that executes no transaction. -/
theorem hashKept_of_harmless (platform : Platform) (ledger finished : Ledger)
    (summary : Ledger.SlotFinalizationResult) (operations : List BankOperation)
    (done : ledger.finishSlot platform = .ok (finished, summary)) (ends : EndsWithHash ledger)
    (harmless : ∀ earlier next, earlier ++ [next] <+: operations →
      next.Harmless platform (finished.after platform earlier)) :
    ∀ taken, taken <+: operations → HashKept platform finished (finished.after platform taken) := by
  intro taken inside
  have start := hashKept_finished ends done
  have kept : (finished.after platform taken).bank.isFrozen = true ∧
      (finished.after platform taken).bank.hash platform = finished.bank.hash platform := by
    apply @invariant_of_steps _ operations _
      (fun taken => (finished.after platform taken).bank.isFrozen = true ∧
        (finished.after platform taken).bank.hash platform = finished.bank.hash platform)
      (fun earlier next => next.Harmless platform (finished.after platform earlier))
      ⟨isFrozen_finished done, rfl⟩ _ _ inside
    · intro earlier next _ before allowed
      have stepped := BankOperation.apply_frozen before.1 allowed
      rw [Ledger.after, foldl_concat]
      exact ⟨stepped.1, stepped.2.trans before.2⟩
    · intro earlier next within
      exact harmless earlier next (within.trans inside)
  refine ⟨kept.2, ?_, ?_⟩
  · rw [kept.2]
    exact start.listed
  · rw [kept.2]
    exact start.queued

/-- A machine whose hash of a bank counts its signatures. -/
def countingHost : Host :=
  { Host.bare with
    sha256 := fun bytes =>
      .filled 32 (if bytes.headD 0 = 0 then bytes.getD 32 0 + 1 else bytes.headD 0) }

def tickedLedger : Ledger := { purseLedger with bank.tickHeight := ticksPerSlot }

/-- A finished bank that is ticked, rooted and then handed a transaction keeps its hash. -/
theorem tickedLedger_hashKept :
    ∃ finished summary, tickedLedger.finishSlot (.bare countingHost) = .ok (finished, summary) ∧
      HashKept (.bare countingHost) finished (finished.after (.bare countingHost)
        [.registerTick, .markRooted, .processTransaction .idle plainTransaction 1000]) := by
  refine ⟨_, _, rfl, hashKept_of_harmless (.bare countingHost) tickedLedger _ _ _ rfl ⟨rfl, rfl, ?_, ?_⟩ ?_ _
    (prefix_refl _)⟩
  · intro impossible
    cases impossible
  · intro distributor impossible
    cases impossible
  · rw [forall_step_cons, forall_step_cons, forall_step_cons]
    exact ⟨trivial, trivial, .inl rfl, fun earlier next inside => by simp at inside⟩

/-- A frozen bank takes transactions: the signature of this one goes into its hash. -/
theorem tickedLedger_hash_moves :
    ∃ finished summary, tickedLedger.finishSlot (.bare countingHost) = .ok (finished, summary) ∧
      finished.bank.hash (.bare countingHost) = Octets.filled 32 1 ∧ (finished.after (.bare countingHost)
        [.processTransaction .idle plainTransaction 1000]).bank.hash (.bare countingHost) = Octets.filled 32 2 ∧
      ¬ HashKept (.bare countingHost) finished (finished.after (.bare countingHost)
        [.processTransaction .idle plainTransaction 1000]) := by
  refine ⟨_, _, rfl, by decide, by decide, ?_⟩
  intro kept
  exact absurd kept.same (by decide)

end Karstflow.Runtime
