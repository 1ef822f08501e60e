import Karstflow.Runtime.Transaction

namespace Karstflow.Runtime

open Data Karstflow.Types Sbpf

/-! The block-level cost tracker. -/

def maxBlockComputeUnits : Nat := 50000000

def maxBlockComputeUnitsSimd0256 : Nat := 60000000

def maxBlockComputeUnitsSimd0286 : Nat := 100000000

def maxVoteComputeUnits : Nat := 36000000

def maxWritableAccountComputeUnits : Nat := 12000000

def accountCuLimitRatioPercent : Nat := 40

def maxAccountDataSizeDelta : Int := 100000000

def maxBlockAccountsDataSize : Nat := 100000000

def loadedAccountsDataCostDivisor : Nat := 32768

def loadedAccountsDataPageCost : Nat := 8

/-- `fetch_add` on a `u64`. -/
def wrapAdd (left right : Nat) : Nat := (left + right) % (u64Max + 1)

/-- `fetch_sub` on a `u64`. -/
def wrapSub (left right : Nat) : Nat := (left + (u64Max + 1 - right % (u64Max + 1))) % (u64Max + 1)

theorem wrapAdd_eq_add (bounded : left + right ≤ u64Max) :
    wrapAdd left right = left + right := Nat.mod_eq_of_lt (Nat.lt_succ_of_le bounded)

theorem wrapSub_eq_sub (covered : right ≤ left) (bounded : left ≤ u64Max) : wrapSub left right = left - right := by
  simp only [wrapSub, u64Max] at bounded ⊢
  omega

/-- `saturating_add` on an `i64`. -/
def satAddSigned (left right : Int) : Int := max (-2 ^ 63) (min (left + right) (2 ^ 63 - 1))

structure CostLimits where
  blockCostLimit : Nat
  voteCostLimit : Nat
  accountCostLimit : Nat
  accountDataSizeLimit : Int
  blockAccountsDataSizeLimit : Nat
deriving DecidableEq

def CostLimits.fromFeatures (raiseTo100m raiseTo60m raiseAccountLimit : Bool) : CostLimits :=
  let blockCostLimit :=
    if raiseTo100m then maxBlockComputeUnitsSimd0286
    else if raiseTo60m then maxBlockComputeUnitsSimd0256
    else maxBlockComputeUnits
  { blockCostLimit
    voteCostLimit := maxVoteComputeUnits
    accountCostLimit :=
      if raiseAccountLimit then blockCostLimit * accountCuLimitRatioPercent / 100
      else maxWritableAccountComputeUnits
    accountDataSizeLimit := maxAccountDataSizeDelta
    blockAccountsDataSizeLimit := maxBlockAccountsDataSize }

structure TransactionCost where
  totalCost : Nat
  executionAndLoadedCost : Nat
  isVote : Bool
  writableAccounts : List Pubkey
  dataSizeDelta : Int
  allocatedAccountsDataSize : Nat
deriving DecidableEq

def TransactionCost.new (totalCost : Nat) (isVote : Bool) : TransactionCost :=
  { totalCost, executionAndLoadedCost := 0, isVote, writableAccounts := [], dataSizeDelta := 0,
    allocatedAccountsDataSize := 0 }

structure CostTracker where
  limits : CostLimits
  blockCost : Nat
  voteCost : Nat
  accountCosts : Table Pubkey Nat
  accountDataSizeDelta : Int
  allocatedAccountsDataSize : Nat
  isDead : Bool
  transactionCount : Nat
  removeSimpleVoteFromCostModel : Bool

namespace CostTracker

def withLimits (limits : CostLimits) : CostTracker :=
  { limits, blockCost := 0, voteCost := 0, accountCosts := .empty, accountDataSizeDelta := 0,
    allocatedAccountsDataSize := 0, isDead := false, transactionCount := 0,
    removeSimpleVoteFromCostModel := false }

variable (tracker : CostTracker) (cost : TransactionCost)

def accountCost (key : Pubkey) : Nat := (tracker.accountCosts.get key).getD 0

/-- Votes are counted apart, unless the tracker was told not to. -/
def countsVote : Bool := cost.isVote && !tracker.removeSimpleVoteFromCostModel

def checkLimits : Except CostTrackerError Unit :=
  if tracker.limits.blockCostLimit < satAdd tracker.blockCost cost.totalCost then
    .error (.blockCostLimitExceeded tracker.blockCost cost.totalCost tracker.limits.blockCostLimit)
  else if tracker.countsVote cost = true ∧
      tracker.limits.voteCostLimit < satAdd tracker.voteCost cost.totalCost then
    .error (.voteCostLimitExceeded tracker.voteCost cost.totalCost tracker.limits.voteCostLimit)
  else
    match cost.writableAccounts.find? fun key =>
        tracker.limits.accountCostLimit < satAdd (tracker.accountCost key) cost.totalCost with
    | some key =>
      .error (.accountCostLimitExceeded key (tracker.accountCost key) cost.totalCost
        tracker.limits.accountCostLimit)
    | none =>
      if tracker.limits.accountDataSizeLimit <
          satAddSigned tracker.accountDataSizeDelta cost.dataSizeDelta then
        .error (.accountDataSizeLimitExceeded tracker.accountDataSizeDelta cost.dataSizeDelta
          tracker.limits.accountDataSizeLimit)
      else if tracker.limits.blockAccountsDataSizeLimit <
          satAdd tracker.allocatedAccountsDataSize cost.allocatedAccountsDataSize then
        .error (.blockAccountsDataSizeLimitExceeded tracker.allocatedAccountsDataSize
          cost.allocatedAccountsDataSize tracker.limits.blockAccountsDataSizeLimit)
      else .ok ()

/-- Change the cost of each account that the transaction locks. -/
def eachAccount (change : Table Pubkey Nat → Pubkey → Table Pubkey Nat) : Table Pubkey Nat :=
  cost.writableAccounts.foldl change tracker.accountCosts

def addAccountCost (amount : Nat) (costs : Table Pubkey Nat) (key : Pubkey) : Table Pubkey Nat :=
  costs.insert key (satAdd ((costs.get key).getD 0) amount)

def removeAccountCost (amount : Nat) (costs : Table Pubkey Nat) (key : Pubkey) : Table Pubkey Nat :=
  costs.modify key fun current => current - amount

def tryAdd : Except CostTrackerError CostTracker :=
  if tracker.isDead then .error .blockDead
  else do
    tracker.checkLimits cost
    return { tracker with
      blockCost := wrapAdd tracker.blockCost cost.totalCost
      voteCost := if tracker.countsVote cost then wrapAdd tracker.voteCost cost.totalCost else tracker.voteCost
      accountCosts := tracker.eachAccount cost (addAccountCost cost.totalCost)
      accountDataSizeDelta := tracker.accountDataSizeDelta + cost.dataSizeDelta
      allocatedAccountsDataSize :=
        wrapAdd tracker.allocatedAccountsDataSize cost.allocatedAccountsDataSize
      transactionCount := wrapAdd tracker.transactionCount 1 }

/-- Replace the estimated share of a reservation by what was used. -/
def updateExecutionCost (actual : Nat) : CostTracker :=
  if actual = cost.executionAndLoadedCost then tracker
  else if cost.executionAndLoadedCost < actual then
    let extra := actual - cost.executionAndLoadedCost
    { tracker with
      blockCost := wrapAdd tracker.blockCost extra
      voteCost := if tracker.countsVote cost then wrapAdd tracker.voteCost extra else tracker.voteCost
      accountCosts := tracker.eachAccount cost (addAccountCost extra) }
  else
    let refund := cost.executionAndLoadedCost - actual
    { tracker with
      blockCost := wrapSub tracker.blockCost refund
      voteCost := if tracker.countsVote cost then wrapSub tracker.voteCost refund else tracker.voteCost
      accountCosts := tracker.eachAccount cost (removeAccountCost refund) }

end CostTracker

/-- The cost of loading `bytes` of account data, by started pages. -/
def loadedAccountsDataCost (bytes : Nat) : Nat :=
  min (satAdd bytes (loadedAccountsDataCostDivisor - 1) / loadedAccountsDataCostDivisor *
    loadedAccountsDataPageCost) u64Max

/-- The parts of the scheduler's cost model that the bank reads. -/
structure ModelCost where
  totalCost : Nat
  executionCost : Nat
  loadedAccountsDataCost : Nat
  isSimpleVote : Bool

/-- What a transaction reserves: the model's cost, with the compute limit in
the place of the model's estimate unless it is a simple vote. -/
def estimatedCost (model : ModelCost) (allocatedDataSize : Nat) (transaction : SanitizedTransaction)
    (computeLimit : Nat) : TransactionCost :=
  { totalCost :=
      if model.isSimpleVote then model.totalCost
      else satAdd (model.totalCost - model.executionCost) computeLimit
    executionAndLoadedCost :=
      if model.isSimpleVote then model.executionCost
      else satAdd computeLimit model.loadedAccountsDataCost
    isVote := transaction.isVote
    writableAccounts := transaction.writableAccounts
    dataSizeDelta := 0
    allocatedAccountsDataSize := allocatedDataSize }

end Karstflow.Runtime
