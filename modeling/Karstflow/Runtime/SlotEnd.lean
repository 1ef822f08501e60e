import Karstflow.Runtime.Executor

namespace Karstflow.Runtime

open Data Karstflow.Types Sbpf

/-! Ticks, fees, and the end of a slot. -/

inductive BankTickError where
  | bankFrozen
  | maxTickHeightReached
deriving Repr, DecidableEq

inductive BankTransactionError where
  | bankFrozen
deriving Repr, DecidableEq

inductive BankFreezeError where
  | alreadyFrozen
  | incompleteSlot (currentTicks requiredTicks : Nat)
deriving Repr, DecidableEq

inductive BankRootError where
  | notFrozen
deriving Repr, DecidableEq

inductive BankFeeError where
  | bankFrozen
deriving Repr, DecidableEq

namespace Bank

variable (bank : Bank)

def registerTickWithHash (pohHash : Hash) : Except BankTickError Bank :=
  if bank.isFrozen then .error .bankFrozen
  else if bank.isComplete then .error .maxTickHeightReached
  else .ok { bank with tickHeight := wrapAdd bank.tickHeight 1, lastBlockhash := pohHash }

/-- A tick without an entry hash: the next blockhash is derived from the last
one and the height. -/
def registerTick (platform : Platform) : Except BankTickError Bank :=
  if bank.isFrozen then .error .bankFrozen
  else if bank.isComplete then .error .maxTickHeightReached
  else
    let newHeight := wrapAdd bank.tickHeight 1
    .ok { bank with
      tickHeight := newHeight
      lastBlockhash := platform.host.sha256 (bank.lastBlockhash.bytes ++ leBytes 8 newHeight) }

def registerTransaction : Except BankTransactionError Bank :=
  if bank.isFrozen then .error .bankFrozen
  else .ok { bank with transactionCount := wrapAdd bank.transactionCount 1 }

def freeze : Except BankFreezeError Bank :=
  if bank.isFrozen then .error .alreadyFrozen
  else if bank.isComplete = false then .error (.incompleteSlot bank.tickHeight bank.maxTickHeight)
  else .ok { bank with status := .frozen }

def markRooted : Except BankRootError Bank :=
  if bank.status ≠ .frozen then .error .notFrozen else .ok { bank with status := .rooted }

/-- Burn half of the execution fees. The answer is what was collected, what
was burned and what is left for the leader. -/
def collectFees : Except BankFeeError (Bank × Nat × Nat × Nat) :=
  if bank.isFrozen then .error .bankFrozen
  else
    let burn := bank.executionFees / 2
    .ok
      ({ bank with
          executionFees := 0
          priorityFees := 0
          capitalization := wrapSub bank.capitalization burn },
        satAdd bank.executionFees bank.priorityFees, burn,
        satAdd bank.priorityFees (bank.executionFees - burn))

def isEpochBoundary : Bool :=
  if bank.slot = genesisSlot then false
  else
    match bank.parentSlot with
    | some parentSlot => bank.epochSchedule.getEpoch parentSlot < bank.epoch
    | none => false

end Bank

namespace RewardsDistributor

variable (distributor : RewardsDistributor)

def partitionAt (slot : Nat) : Option Partition :=
  if slot < distributor.startSlot then none else distributor.partitions[slot - distributor.startSlot]?

def rewardsForSlot (slot : Nat) : List PendingReward :=
  match distributor.partitionAt slot with
  | some partition =>
    if partition.distributed then []
    else distributor.pendingRewards.extract partition.startIndex (partition.startIndex + partition.count)
  | none => []

def markSlotDistributed (slot : Nat) : RewardsDistributor :=
  match distributor.partitionAt slot with
  | some partition =>
    if partition.distributed then distributor
    else
      { distributor with
        partitions := distributor.partitions.set (slot - distributor.startSlot)
          { partition with distributed := true }
        distributedCount := distributor.distributedCount + 1 }
  | none => distributor

def isComplete : Bool := distributor.partitions.length ≤ distributor.distributedCount

end RewardsDistributor

namespace Ledger

variable (platform : Platform) (ledger : Ledger)

/-- Store one account and follow it in the lattice hash. -/
def storeAccount (key : Pubkey) (account : Account) : Ledger :=
  { shared := { ledger.shared with published := ledger.shared.published.insert key account }
    bank :=
      { ledger.bank with
        lthash := updateAccountHash platform ledger.bank.lthash key (ledger.shared.published.get key) account } }

/-- Credit each reward to its account, if it exists; the answer is the sum of
what was credited. -/
def applyRewards : List PendingReward → Ledger → Ledger × Nat
  | [], ledger => (ledger, 0)
  | reward :: rest, ledger =>
    match ledger.shared.published.get reward.account with
    | some account =>
      if reward.amount = 0 then applyRewards rest ledger
      else
        let (after, distributed) := applyRewards rest
          (ledger.storeAccount platform reward.account (account.credit reward.amount))
        (after, reward.amount + distributed)
    | none => applyRewards rest ledger

def distributeSlotRewards : Ledger :=
  match ledger.bank.rewardsDistributor with
  | none => ledger
  | some distributor =>
    let rewards := distributor.rewardsForSlot ledger.bank.slot
    let (after, distributed) := applyRewards platform rewards ledger
    let marked :=
      if rewards = [] then distributor else distributor.markSlotDistributed ledger.bank.slot
    { shared :=
        { after.shared with
          sysvars := if marked.isComplete then
              after.shared.sysvars.map fun sysvars => { sysvars with epochRewards := none }
            else after.shared.sysvars }
      bank :=
        { after.bank with
          capitalization := wrapAdd after.bank.capitalization distributed
          rewardsDistributor := some marked } }

/-- A fee collector is a system account that stays exempt from rent, or a new one. -/
def validateFeeCollector (leader : Pubkey) : Bool :=
  match ledger.shared.published.get leader with
  | none => true
  | some account =>
    account.owner = systemProgramId &&
      ledger.bank.rent.minimumBalance account.data.length ≤ satAdd account.lamports 1

def creditLeaderFees (leader : Pubkey) (amount : Nat) : Ledger :=
  let account := (ledger.shared.published.get leader).getD .zeroed
  ledger.storeAccount platform leader (account.credit amount)

/-- Burn half of the execution fees and credit the rest to the leader; all of
it burns when the leader may not collect. The answer is the leader's share and
the burned one. -/
def distributeFees : Except BankFeeError (Ledger × Nat × Nat) :=
  if ledger.bank.isFrozen then .error .bankFrozen
  else
    let executionFees := ledger.bank.executionFees
    let priorityFees := ledger.bank.priorityFees
    let emptied := { ledger with bank := { ledger.bank with executionFees := 0, priorityFees := 0 } }
    if executionFees = 0 ∧ priorityFees = 0 then .ok (emptied, 0, 0)
    else
      let burnShare := executionFees / 2
      let leaderShare := satAdd priorityFees (executionFees - burnShare)
      let burn := fun (ledger : Ledger) amount =>
        { ledger with bank.capitalization := wrapSub ledger.bank.capitalization amount }
      let burned := burn emptied burnShare
      match (if 0 < leaderShare then ledger.bank.getLeader else none) with
      | none => .ok (burned, leaderShare, burnShare)
      | some leader =>
        if burned.validateFeeCollector leader then
          .ok (burned.creditLeaderFees platform leader leaderShare, leaderShare, burnShare)
        else .ok (burn burned leaderShare, 0, satAdd burnShare leaderShare)

/-- The stake-weighted time of the votes in the cache. -/
def estimateNetworkTimestamp : Option Int :=
  match ledger.shared.voteAccountCache with
  | none => none
  | some cache =>
    let voteTimestamps := cache.entries.entries.filterMap fun entry =>
      if 0 < entry.2.stake ∧ 0 < entry.2.lastVoteTimestamp then
        some (entry.2.lastVoteTimestamp, entry.2.stake)
      else none
    if cache.totalEpochStake = 0 ∨ voteTimestamps = [] then none
    else some (platform.stakeWeightedTimestamp voteTimestamps cache.totalEpochStake)

def publishHash (bankHash : Hash) : Ledger :=
  let bank := ledger.bank
  let feeRate := bank.lamportsPerSignature
  { shared :=
      { ledger.shared with
        sysvars := ledger.shared.sysvars.map fun sysvars =>
          (((sysvars.updateClock bank.slot bank.epoch (ledger.estimateNetworkTimestamp platform)).updateSlotHashes
            bank.slot bankHash).updateSlotHistory bank.slot).updateRecentBlockhashes bankHash feeRate }
    bank :=
      { bank with
        blockhashQueue := bank.blockhashQueue.registerHash
          { hash := bankHash, lamportsPerSignature := feeRate, slot := bank.slot } } }

/-- Empty the incinerator and take its balance out of the supply. -/
def runIncinerator : Ledger :=
  match ledger.shared.published.get incineratorId with
  | none => ledger
  | some account =>
    if account.lamports = 0 then ledger
    else
      let stored := ledger.storeAccount platform incineratorId (account.setLamports 0)
      { stored with bank.capitalization := wrapSub stored.bank.capitalization account.lamports }

/-- The vote accounts that stake is delegated to, with their stake. -/
def voterStakes (tracker : StakeTracker) : List (Pubkey × Nat) :=
  (tracker.delegations.entries.map fun entry => entry.2.voterPubkey).dedup.map fun voter =>
    (voter, (stakeByVoteAccount platform tracker voter).getD 0)

/-- Shift the stakes of the vote cache by an epoch and fill in the new ones. -/
def refreshVoteAccountCache : Ledger :=
  match ledger.shared.voteAccountCache, ledger.shared.stakeTracker with
  | some cache, some tracker =>
    let rotated : VoteAccountCache :=
      { entries := cache.entries.mapValues fun entry =>
          { entry with stakePrevPrev := entry.stakePrev, stakePrev := entry.stake, stake := 0 }
        totalEpochStake := 0 }
    let setStake := fun (cache : VoteAccountCache) (voter : Pubkey × Nat) =>
      match cache.entries.get voter.1 with
      | some entry =>
        { entries := cache.entries.insert voter.1 { entry with stake := voter.2 }
          totalEpochStake := satAdd (cache.totalEpochStake - entry.stake) voter.2 }
      | none => cache
    { ledger with
      shared.voteAccountCache := some ((voterStakes platform tracker).foldl setStake rotated) }
  | _, _ => ledger

/-- The schedule of the next epoch, from the stakes of the nodes behind the
vote accounts. -/
def regenerateLeaderSchedule : Ledger :=
  match ledger.shared.stakeTracker with
  | none => ledger
  | some tracker =>
    let node := fun voter => ((ledger.shared.voteAccountCache.bind fun cache =>
      cache.entries.get voter).map VoteAccountEntry.nodePubkey).getD voter
    let stakes := voterStakes platform tracker
    let nodes := (stakes.map fun stake => node stake.1).dedup
    let validators := nodes.map fun validator =>
      (validator, ((stakes.filter fun stake => node stake.1 = validator).map Prod.snd).sum)
    match (if validators = [] then none else platform.leaderSchedule (ledger.bank.epoch + 1) validators) with
    | some schedule => { ledger with bank.nextLeaderSchedule := some schedule }
    | none => ledger

def processEpochBoundary : Ledger :=
  ((platform.calculateAndPrepareRewards (platform.activatePendingFeatures ledger)).refreshVoteAccountCache
    platform).regenerateLeaderSchedule platform

structure SlotFinalizationResult where
  slot : Nat
  epoch : Nat
  epochBoundary : Bool
  leaderShare : Nat
  burnShare : Nat
  transactionCount : Nat
deriving DecidableEq

/-- Complete the slot. The bank hash is taken after the fees and before the
incinerator and the epoch boundary. -/
def finishSlot : Except BankFreezeError (Ledger × SlotFinalizationResult) :=
  if ledger.bank.isFrozen then .error .alreadyFrozen
  else if ledger.bank.isComplete = false then
    .error (.incompleteSlot ledger.bank.tickHeight ledger.bank.maxTickHeight)
  else
    match (ledger.distributeSlotRewards platform).distributeFees platform with
    | .error _ => .error .alreadyFrozen
    | .ok (paid, leaderShare, burnShare) =>
      let published := paid.publishHash platform (paid.bank.hash platform)
      let burned := published.runIncinerator platform
      let epochBoundary := burned.bank.isEpochBoundary
      let crossed := if epochBoundary then burned.processEpochBoundary platform else burned
      .ok
        ({ crossed with bank.status := .frozen },
          { slot := ledger.bank.slot
            epoch := ledger.bank.epoch
            epochBoundary
            leaderShare
            burnShare
            transactionCount := crossed.bank.transactionCount })

end Ledger

end Karstflow.Runtime
