import Karstflow.Runtime.CostTracker
import Karstflow.Runtime.RecentHistory
import Mathlib.Algebra.Group.Pi.Basic

namespace Karstflow.Runtime

open Data Karstflow.Types Sbpf

/-! Banks, and the structures that the banks of a fork tree share. -/

def baseLamportsPerSignature : Nat := 5000

def ticksPerSlot : Nat := 64

def genesisSlot : Nat := 0

def lthashElementCount : Nat := 1024

/-- A lattice hash: words that are added and subtracted one by one, modulo 2^16. -/
abbrev LatticeHash := Fin lthashElementCount → BitVec 16

def LatticeHash.asBytes (value : LatticeHash) : List UInt8 :=
  (List.ofFn value).flatMap fun word => leBytes 2 word.toNat

/-- Rent parameters. `exempt` is the float product with the exemption
threshold, cut to a `u64`. -/
structure Rent where
  lamportsPerByteYear : Nat
  exempt : Nat → Nat
  burnPercent : Nat

namespace Rent

def minimumBalance (rent : Rent) (dataLen : Nat) : Nat :=
  rent.exempt (min (rent.lamportsPerByteYear * dataLen) u64Max)

def isExempt (rent : Rent) (lamports dataLen : Nat) : Bool := rent.minimumBalance dataLen ≤ lamports

/-- The default parameters; the threshold is two. The doubling is the float
product as long as the cost is below 2^53. -/
def defaultConfig : Rent :=
  { lamportsPerByteYear := 3480, exempt := fun cost => min (2 * cost) u64Max, burnPercent := 50 }

end Rent

structure EpochSchedule where
  slotsPerEpoch : Nat
  leaderScheduleSlotOffset : Nat
  warmup : Bool
  firstNormalEpoch : Nat
  firstNormalSlot : Nat
deriving DecidableEq

namespace EpochSchedule

variable (schedule : EpochSchedule)

def slotsInEpoch (epoch : Nat) : Nat :=
  if schedule.warmup = false ∨ schedule.firstNormalEpoch ≤ epoch then schedule.slotsPerEpoch
  else satPow 2 (min epoch 63)

/-- The loop over the warmup epochs. Each turn passes at least one slot, so a
slot is reached within as many turns as its number. -/
def epochSlow (slot : Nat) : Nat → Nat → Nat → Nat
  | 0, epoch, _ => epoch
  | fuel + 1, epoch, slotIndex =>
    if satAdd slotIndex (schedule.slotsInEpoch epoch) ≤ slot then
      epochSlow slot fuel (satAdd epoch 1) (satAdd slotIndex (schedule.slotsInEpoch epoch))
    else epoch

def firstSlotInEpoch (epoch : Nat) : Nat :=
  if schedule.warmup = false ∨ schedule.firstNormalEpoch ≤ epoch then
    satAdd schedule.firstNormalSlot
      (min ((epoch - schedule.firstNormalEpoch) * schedule.slotsPerEpoch) u64Max)
  else (List.range epoch).foldl (fun slot earlier => satAdd slot (schedule.slotsInEpoch earlier)) 0

def getEpochAndSlotIndex (slot : Nat) : Nat × Nat :=
  if schedule.warmup = false ∨ schedule.firstNormalSlot ≤ slot then
    let normalSlotIndex := slot - schedule.firstNormalSlot
    (satAdd schedule.firstNormalEpoch (normalSlotIndex / schedule.slotsPerEpoch),
      normalSlotIndex % schedule.slotsPerEpoch)
  else
    let epoch := schedule.epochSlow slot (slot + 1) 0 0
    (epoch, slot - schedule.firstSlotInEpoch epoch)

def getEpoch (slot : Nat) : Nat := (schedule.getEpochAndSlotIndex slot).1

end EpochSchedule

def maxSlotHashes : Nat := 512

structure Clock where
  slot : Nat
  epochStartTimestamp : Int
  epoch : Nat
  leaderScheduleEpoch : Nat
  unixTimestamp : Int
deriving DecidableEq

structure StakeHistoryEntry where
  effective : Nat
  activating : Nat
  deactivating : Nat
deriving DecidableEq

/-- The sysvar values. The slot history is the list of the slots marked in it,
the epoch rewards are their total and the capitalization they come from. -/
structure SysvarCache where
  clock : Clock
  epochSchedule : EpochSchedule
  rent : Rent
  slotHashes : List (Nat × Hash)
  slotHistory : List Nat
  stakeHistory : List (Nat × StakeHistoryEntry)
  recentBlockhashes : List (Hash × Nat)
  epochRewards : Option (Nat × Nat)
  lastRestartSlot : Nat

namespace SysvarCache

variable (sysvars : SysvarCache)

def updateClock (slot epoch : Nat) (timestamp : Option Int) : SysvarCache :=
  let unixTimestamp := timestamp.getD sysvars.clock.unixTimestamp
  let clock := { sysvars.clock with slot, unixTimestamp }
  { sysvars with
    clock :=
      if sysvars.clock.epoch < epoch then
        { clock with epoch, epochStartTimestamp := unixTimestamp, leaderScheduleEpoch := satAdd epoch 1 }
      else clock }

def updateSlotHashes (slot : Nat) (hash : Hash) : SysvarCache :=
  { sysvars with slotHashes := ((slot, hash) :: sysvars.slotHashes).take maxSlotHashes }

def updateSlotHistory (slot : Nat) : SysvarCache :=
  { sysvars with slotHistory := slot :: sysvars.slotHistory }

def updateRecentBlockhashes (blockhash : Hash) (lamportsPerSignature : Nat) : SysvarCache :=
  { sysvars with
    recentBlockhashes :=
      ((blockhash, lamportsPerSignature) :: sysvars.recentBlockhashes).take maxRecentBlockhashes }

def slotHash (slot : Nat) : Option Hash :=
  (sysvars.slotHashes.find? fun entry => entry.1 = slot).map Prod.snd

end SysvarCache

/-- A delegation, its warmup rate as the eight bytes of the float. -/
structure Delegation where
  voterPubkey : Pubkey
  stakeAmount : Nat
  activationEpoch : Nat
  deactivationEpoch : Nat
  warmupCooldownRate : List UInt8
deriving DecidableEq

def stateDelegated : Nat := 2

/-- The delegation of a stake account in the delegated state. The state
number is followed by 120 bytes of metadata, the delegation and the credits
observed. -/
def delegationOf (data : List UInt8) : Option Delegation :=
  if data.length < 196 ∨ leValue (data.extract 0 4) ≠ stateDelegated then none
  else
    (Octets.ofBytes 32 (data.extract 124 156)).map fun voterPubkey =>
      { voterPubkey
        stakeAmount := leValue (data.extract 156 164)
        activationEpoch := leValue (data.extract 164 172)
        deactivationEpoch := leValue (data.extract 172 180)
        warmupCooldownRate := data.extract 180 188 }

structure StakeTracker where
  delegations : Table Pubkey Delegation
  currentEpoch : Nat

/-- Follow one written account: an account of the stake program is listed
with its delegation, or not at all. -/
def StakeTracker.follow (tracker : StakeTracker) (key : Pubkey) (account : Account) : StakeTracker :=
  if account.owner ≠ stakeProgramId then tracker
  else if account.lamports = 0 then { tracker with delegations := tracker.delegations.erase key }
  else
    match delegationOf account.data with
    | some delegation => { tracker with delegations := tracker.delegations.insert key delegation }
    | none => { tracker with delegations := tracker.delegations.erase key }

structure VoteAccountEntry where
  nodePubkey : Pubkey
  commission : UInt8
  lastVoteSlot : Nat
  lastVoteTimestamp : Int
  stake : Nat
  stakePrev : Nat
  stakePrevPrev : Nat
deriving DecidableEq

structure VoteAccountCache where
  entries : Table Pubkey VoteAccountEntry
  totalEpochStake : Nat

inductive BankStatus where
  | processing
  | frozen
  | rooted
deriving Repr, DecidableEq

structure PendingReward where
  account : Pubkey
  amount : Nat
deriving DecidableEq

structure Partition where
  startIndex : Nat
  count : Nat
  distributed : Bool
deriving DecidableEq

structure RewardsDistributor where
  pendingRewards : List PendingReward
  partitions : List Partition
  startSlot : Nat
  distributedCount : Nat
deriving DecidableEq

def slotsPerEpoch : Nat := 432000

/-- Who leads the slots of an epoch. A schedule is made for this number of
slots, whatever the epoch schedule says. -/
structure LeaderSchedule where
  slotLeaders : List Pubkey
  length_eq : slotLeaders.length = slotsPerEpoch

def LeaderSchedule.getLeader (schedule : LeaderSchedule) (slotIndex : Nat) : Option Pubkey :=
  schedule.slotLeaders[slotIndex]?

/-- The schedule of a single validator. -/
def LeaderSchedule.sole (leader : Pubkey) : LeaderSchedule := ⟨.replicate slotsPerEpoch leader, List.length_replicate⟩

/-- What the banks of a fork tree hold through shared pointers. The published
accounts stand for the account database: a bank writes under a transaction id
of its own and publishes it at once. -/
structure Shared where
  published : Table Pubkey Account
  transactionCache : TransactionCache
  sysvars : Option SysvarCache
  features : Option (List Pubkey)
  stakeTracker : Option StakeTracker
  stakeHistory : Option (List (Nat × StakeHistoryEntry))
  voteAccountCache : Option VoteAccountCache

/-- The fields that each bank has for itself. -/
structure Bank where
  slot : Nat
  parentSlot : Option Nat
  parentHash : Hash
  status : BankStatus
  tickHeight : Nat
  maxTickHeight : Nat
  epoch : Nat
  slotIndex : Nat
  epochSchedule : EpochSchedule
  leaderSchedule : LeaderSchedule
  transactionCount : Nat
  nonvoteTransactionCount : Nat
  failedTransactionCount : Nat
  totalComputeUnitsUsed : Nat
  executionFees : Nat
  priorityFees : Nat
  capitalization : Nat
  rent : Rent
  lthash : LatticeHash
  signatureCount : Nat
  lastBlockhash : Hash
  blockhashQueue : BlockhashQueue
  costTracker : CostTracker
  accountsDataSize : Int
  lamportsPerSignature : Nat
  nextLeaderSchedule : Option LeaderSchedule
  rewardsDistributor : Option RewardsDistributor

structure Ledger where
  shared : Shared
  bank : Bank

/-- What a bank calls and takes as given: hashes and signatures, the cost
model, the bytes of a sysvar, the float arithmetic of stakes and timestamps,
the vote fields the vote cache keeps, and the two steps of the epoch boundary
that compute rewards and activate features. -/
structure Platform where
  host : Host
  verifyStrict : Pubkey → List UInt8 → Octets 64 → Bool
  blake3 : List UInt8 → LatticeHash
  modelCost : SanitizedTransaction → ModelCost
  allocatedDataSize : SanitizedTransaction → Bool → Nat
  serializeSysvar : SysvarCache → Pubkey → List UInt8
  effectiveStake : Delegation → Nat → Nat
  voteCacheFields : List UInt8 → Option (Pubkey × UInt8 × Nat × Int)
  stakeWeightedTimestamp : List (Int × Nat) → Nat → Int
  leaderSchedule : Nat → List (Pubkey × Nat) → Option LeaderSchedule
  activatePendingFeatures : Ledger → Ledger
  calculateAndPrepareRewards : Ledger → Ledger

/-- A platform that takes every signature and sees no stake, on which all
accounts hash to nothing and the cost model charges nothing. -/
def Platform.bare (host : Host) : Platform :=
  { host
    verifyStrict := fun _ _ _ => true
    blake3 := fun _ => 0
    modelCost := fun _ =>
      { totalCost := 0, executionCost := 0, loadedAccountsDataCost := 0, isSimpleVote := false }
    allocatedDataSize := fun _ _ => 0
    serializeSysvar := fun _ _ => []
    effectiveStake := fun _ _ => 0
    voteCacheFields := fun _ => none
    stakeWeightedTimestamp := fun _ _ => 0
    leaderSchedule := fun _ _ => none
    activatePendingFeatures := id
    calculateAndPrepareRewards := id }

def Shared.isActive (shared : Shared) (feature : Pubkey) : Bool :=
  match shared.features with
  | some active => isFeatureActive active feature
  | none => false

theorem isActive_congr {shared other : Shared} (same : shared.features = other.features) (feature : Pubkey) :
    shared.isActive feature = other.isActive feature := by
  rw [Shared.isActive, Shared.isActive, same]

variable (platform : Platform)

/-- Follow one written account of the vote program. -/
def VoteAccountCache.follow (cache : VoteAccountCache) (key : Pubkey) (account : Account) : VoteAccountCache :=
  if account.owner ≠ voteProgramId then cache
  else if account.lamports = 0 then
    match cache.entries.get key with
    | some removed =>
      { entries := cache.entries.erase key, totalEpochStake := cache.totalEpochStake - removed.stake }
    | none => cache
  else
    match platform.voteCacheFields account.data with
    | some (nodePubkey, commission, lastVoteSlot, lastVoteTimestamp) =>
      let entry := (cache.entries.get key).getD
        { nodePubkey, commission, lastVoteSlot, lastVoteTimestamp, stake := 0, stakePrev := 0,
          stakePrevPrev := 0 }
      { cache with
        entries := cache.entries.insert key
          { entry with nodePubkey, commission, lastVoteSlot, lastVoteTimestamp } }
    | none => cache

/-- The lattice hash of one account; an empty account hashes to nothing. -/
def hashAccount (key : Pubkey) (account : Account) : LatticeHash :=
  if account.lamports = 0 then 0
  else
    platform.blake3 (leBytes 8 account.lamports ++ account.data ++
      [if account.executable then 1 else 0] ++ account.owner.bytes ++ key.bytes)

/-- Take the old account out of the lattice hash and put the new one in. -/
def updateAccountHash (lthash : LatticeHash) (key : Pubkey) (old : Option Account) (new : Account) : LatticeHash :=
  lthash - old.elim 0 (hashAccount platform key) + hashAccount platform key new

/-- The lattice hash after the accounts are written over the published ones. -/
def rehash (published : Table Pubkey Account) (lthash : LatticeHash) (accounts : Modified) : LatticeHash :=
  accounts.entries.foldl (fun lthash entry =>
    updateAccountHash platform lthash entry.1 (published.get entry.1) entry.2) lthash

/-- Publish the accounts and follow them in the stake and vote caches. -/
def Shared.publish (shared : Shared) (accounts : Modified) : Shared :=
  { shared with
    published := shared.published.overlay accounts
    stakeTracker := shared.stakeTracker.map fun tracker =>
      accounts.entries.foldl (fun tracker entry => tracker.follow entry.1 entry.2) tracker
    voteAccountCache := shared.voteAccountCache.map fun cache =>
      accounts.entries.foldl (fun cache entry => cache.follow platform entry.1 entry.2) cache }

/-- Write accounts back. The old accounts are all read before the first write. -/
def Ledger.writeAccounts (ledger : Ledger) (accounts : Modified) : Ledger :=
  { shared := ledger.shared.publish platform accounts
    bank :=
      { ledger.bank with
        lthash := rehash platform ledger.shared.published ledger.bank.lthash accounts } }

/-- The bank hash: the parent's hash, the signature count and the last
blockhash, then the lattice hash of the accounts. -/
def Bank.hash (bank : Bank) : Hash :=
  let inner := platform.host.sha256
    (bank.parentHash.bytes ++ leBytes 8 bank.signatureCount ++ bank.lastBlockhash.bytes)
  platform.host.sha256 (inner.bytes ++ bank.lthash.asBytes)

def Shared.costLimits (shared : Shared) : CostLimits :=
  .fromFeatures (shared.isActive raiseBlockLimitsTo100mFeature)
    (shared.isActive raiseBlockLimitsTo60mFeature) (shared.isActive raiseAccountCuLimitFeature)

/-- The bank of the next slot. It shares what `shared` holds with its parent. -/
def Bank.newFromParent (shared : Shared) (parent : Bank) (slot : Nat) (leaderSchedule : LeaderSchedule) : Bank :=
  let (epoch, slotIndex) := parent.epochSchedule.getEpochAndSlotIndex slot
  let parentHash := parent.hash platform
  { slot
    parentSlot := some parent.slot
    parentHash
    status := .processing
    tickHeight := parent.tickHeight
    maxTickHeight := satAdd parent.tickHeight ticksPerSlot
    epoch
    slotIndex
    epochSchedule := parent.epochSchedule
    leaderSchedule :=
      if parent.epoch < epoch then parent.nextLeaderSchedule.getD leaderSchedule else leaderSchedule
    transactionCount := 0
    nonvoteTransactionCount := 0
    failedTransactionCount := 0
    totalComputeUnitsUsed := 0
    executionFees := 0
    priorityFees := 0
    capitalization := parent.capitalization
    rent := parent.rent
    lthash := parent.lthash
    signatureCount := 0
    lastBlockhash := parentHash
    blockhashQueue := parent.blockhashQueue
    costTracker := .withLimits shared.costLimits
    accountsDataSize := parent.accountsDataSize
    lamportsPerSignature := baseLamportsPerSignature
    nextLeaderSchedule := none
    rewardsDistributor := parent.rewardsDistributor }

namespace Bank

variable (bank : Bank)

def isFrozen : Bool := bank.status = .frozen ∨ bank.status = .rooted

def isComplete : Bool := bank.maxTickHeight ≤ bank.tickHeight

def getLeader : Option Pubkey := bank.leaderSchedule.getLeader bank.slotIndex

def isBlockhashValid (blockhash : Hash) : Bool := bank.blockhashQueue.isHashValid blockhash

def registerRecentBlockhash (blockhash : Hash) : Bank :=
  { bank with
    blockhashQueue := bank.blockhashQueue.registerHash
      { hash := blockhash, lamportsPerSignature := bank.lamportsPerSignature, slot := bank.slot } }

end Bank

def genesisEpoch : Nat := 0

def defaultTransactionCacheMaxEntries : Nat := 1000000

def Ledger.newGenesis (published : Table Pubkey Account) (epochSchedule : EpochSchedule)
    (leaderSchedule : LeaderSchedule) (capitalization : Nat) (rent : Rent) : Ledger :=
  { shared :=
      { published
        transactionCache := { entries := .empty, maxEntries := defaultTransactionCacheMaxEntries }
        sysvars := some
          { clock :=
              { slot := genesisSlot, epochStartTimestamp := 0, epoch := genesisEpoch,
                leaderScheduleEpoch := satAdd genesisEpoch 1, unixTimestamp := 0 }
            epochSchedule
            rent
            slotHashes := []
            slotHistory := []
            stakeHistory := []
            recentBlockhashes := []
            epochRewards := none
            lastRestartSlot := 0 }
        features := none
        stakeTracker := none
        stakeHistory := none
        voteAccountCache := none }
    bank :=
      { slot := genesisSlot
        parentSlot := none
        parentHash := .filled 32 0
        status := .processing
        tickHeight := 0
        maxTickHeight := ticksPerSlot
        epoch := genesisEpoch
        slotIndex := 0
        epochSchedule
        leaderSchedule
        transactionCount := 0
        nonvoteTransactionCount := 0
        failedTransactionCount := 0
        totalComputeUnitsUsed := 0
        executionFees := 0
        priorityFees := 0
        capitalization
        rent
        lthash := 0
        signatureCount := 0
        lastBlockhash := .filled 32 0
        blockhashQueue := { queue := [], maxAge := maxRecentBlockhashes }
        costTracker := .withLimits (.fromFeatures false false false)
        accountsDataSize := 0
        lamportsPerSignature := baseLamportsPerSignature
        nextLeaderSchedule := none
        rewardsDistributor := none } }

def Ledger.opening (published : Table Pubkey Account) (blockhash : Hash) : Ledger :=
  let genesis := newGenesis published
    { slotsPerEpoch, leaderScheduleSlotOffset := slotsPerEpoch, warmup := false, firstNormalEpoch := 0,
      firstNormalSlot := 0 } (.sole (.filled 32 7)) 0 .defaultConfig
  { genesis with bank := genesis.bank.registerRecentBlockhash blockhash }

end Karstflow.Runtime
