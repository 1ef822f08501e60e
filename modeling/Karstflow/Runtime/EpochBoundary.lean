import Karstflow.Runtime.CoreBpf
import Karstflow.Runtime.SlotEnd

namespace Karstflow.Runtime

open Data Karstflow.Types Sbpf

/-! The two steps of an epoch boundary that write accounts: features that
activate, with the programs they migrate and upgrade, and the rewards of the
epoch. -/

/-- What the boundary takes as given: the feature set after its activations
and the features in it that activated in this slot, the derived address of a
program's data, the deploy checks, the float arithmetic of a flat rent
threshold and of the inflation. The address that is derived for a migrating
program is not the program's own. -/
structure Boundary where
  activeFeatures : Ledger → List Pubkey
  justActivated : Ledger → List Pubkey
  programdataAddress : Pubkey → Pubkey
  programdata_other : ∀ migration ∈ configuredMigrations,
    programdataAddress migration.programId ≠ migration.programId
  elfValidator : Option (List UInt8 → Bool)
  flatExempt : Nat → Nat
  validatorRewards : Ledger → Option (List PendingReward)

def Boundary.quiet : Boundary :=
  { activeFeatures := fun ledger => ledger.shared.features.getD []
    justActivated := fun _ => []
    programdataAddress := fun _ => .zeroed
    programdata_other := by decide
    elfValidator := none
    flatExempt := id
    validatorRewards := fun _ => none }

/-- The features that set the rent per byte, in the order they apply. -/
def perByteFeatures : List (Pubkey × Nat) :=
  [(setLamportsPerByteTo6333Feature, 6333), (setLamportsPerByteTo5080Feature, 5080),
    (setLamportsPerByteTo2575Feature, 2575), (setLamportsPerByteTo1322Feature, 1322),
    (setLamportsPerByteTo696Feature, 696), (setLamportsPerByteTo6960Feature, 6960)]

/-- The rent after the features that rewrite it in the slot they activate, if
there are any. -/
def rentAfterActivationHooks (flatExempt : Nat → Nat) (justActivated : List Pubkey) (rent : Rent) : Option Rent :=
  let flattened := deprecateRentExemptionThresholdFeature ∈ justActivated
  let rates := perByteFeatures.filter fun feature => feature.1 ∈ justActivated
  let updated : Rent :=
    if flattened then
      { lamportsPerByteYear := rent.exempt rent.lamportsPerByteYear, exempt := flatExempt, burnPercent := 50 }
    else rent
  if flattened ∨ rates ≠ [] then
    some (rates.foldl (fun rent feature => { rent with lamportsPerByteYear := feature.2 }) updated)
  else none

namespace Ledger

variable (platform : Platform) (boundary : Boundary)

/-- Store what a migration or an upgrade produced, and move the supply by the
difference of what it minted and burned. -/
def commitCoreBpfOutcome (ledger : Ledger) (outcome : MigrationOutcome) : Ledger :=
  let stored := outcome.writes.foldl (fun ledger write => ledger.storeAccount platform write.1 write.2) ledger
  let burned := outcome.lamportsBurned
  let funded := outcome.lamportsFunded
  { stored with
    bank.capitalization :=
      if funded < burned then wrapSub stored.bank.capitalization (burned - funded)
      else if burned < funded then wrapAdd stored.bank.capitalization (funded - burned)
      else stored.bank.capitalization }

/-- Make one attempt after the other; one that declines changes nothing. -/
def commitAll : List (Ledger → Except MigrationError MigrationOutcome) → Ledger → Ledger
  | [], ledger => ledger
  | attempt :: rest, ledger =>
    match attempt ledger with
    | .ok outcome => commitAll rest (ledger.commitCoreBpfOutcome platform outcome)
    | .error _ => commitAll rest ledger

def migrationAttempts (justActivated : List Pubkey) (relaxProgramdataCheck : Bool) :
    List (Ledger → Except MigrationError MigrationOutcome) :=
  (configuredMigrations.filter fun config => config.featureId ∈ justActivated).map fun config ledger =>
    migrate ledger.shared.published.get platform.host.sha256 boundary.programdataAddress ledger.bank.slot
      ledger.bank.rent relaxProgramdataCheck config

def upgradeAttempts (justActivated : List Pubkey) (allowPrefunded : Bool) :
    List (Ledger → Except MigrationError MigrationOutcome) :=
  (configuredUpgrades.filter fun config => config.featureId ∈ justActivated).map fun config ledger =>
    applyUpgrade ledger.shared.published.get platform.host.sha256 boundary.programdataAddress ledger.bank.slot
      ledger.bank.rent allowPrefunded boundary.elfValidator config

def recordActivations (ledger : Ledger) : Ledger :=
  let rent := rentAfterActivationHooks boundary.flatExempt (boundary.justActivated ledger) ledger.bank.rent
  { shared :=
      { ledger.shared with
        features := some (boundary.activeFeatures ledger)
        sysvars := ledger.shared.sysvars.map fun sysvars => { sysvars with rent := rent.getD sysvars.rent } }
    bank := { ledger.bank with rent := rent.getD ledger.bank.rent } }

/-- The migrations, then the upgrades, of the features that activated. -/
def coreBpfAttempts (ledger : Ledger) : List (Ledger → Except MigrationError MigrationOutcome) :=
  let relaxed := isFeatureActive (boundary.activeFeatures ledger) relaxProgramdataAccountCheckMigrationFeature
  migrationAttempts platform boundary (boundary.justActivated ledger) relaxed ++
    upgradeAttempts platform boundary (boundary.justActivated ledger) relaxed

def activatePendingFeatures (ledger : Ledger) : Ledger :=
  match ledger.shared.features with
  | none => ledger
  | some _ => (ledger.recordActivations boundary).commitAll platform (ledger.coreBpfAttempts platform boundary)

end Ledger

def stakeHistoryCap : Nat := 512

/-- Add an entry in order of the epochs, and drop the oldest ones over the cap. -/
def addStakeHistory (history : List (Nat × StakeHistoryEntry)) (epoch : Nat) (entry : StakeHistoryEntry) :
    List (Nat × StakeHistoryEntry) :=
  match history.findIdx? fun known => known.1 = epoch with
  | some position => history.set position (epoch, entry)
  | none =>
    let earlier := history.takeWhile fun known => known.1 ≤ epoch
    let longer := earlier ++ (epoch, entry) :: history.drop earlier.length
    longer.drop (longer.length - stakeHistoryCap)

def maxRewardsPerSlot : Nat := 4096

def partitionedRewardsDistributionSlots : Nat := 4096

namespace RewardsDistributor

/-- The partitions from `offset` on. Each holds at least one reward, so there
are at most as many as rewards. -/
def partitionsFrom (perPartition rewardCount : Nat) : Nat → Nat → List Partition
  | 0, _ => []
  | fuel + 1, offset =>
    if offset < rewardCount then
      let count := min perPartition (rewardCount - offset)
      { startIndex := offset, count, distributed := false } ::
        partitionsFrom perPartition rewardCount fuel (offset + count)
    else []

def new (rewards : List PendingReward) (totalPartitions startSlot : Nat) : RewardsDistributor :=
  let perPartition := min (max (rewards.length / max totalPartitions 1) 1) maxRewardsPerSlot
  { pendingRewards := rewards
    partitions := partitionsFrom perPartition rewards.length rewards.length 0
    startSlot
    distributedCount := 0 }

end RewardsDistributor

namespace Ledger

variable (platform : Platform) (boundary : Boundary)

/-- The stake of the epoch that ended, in the bank's history and in the sysvar. -/
def recordStake (tracker : StakeTracker) (history : List (Nat × StakeHistoryEntry)) (previousEpoch : Nat)
    (ledger : Ledger) : Ledger :=
  let effective := (voterStakes platform tracker).foldl (fun sum stake => satAdd sum stake.2) 0
  let entry : StakeHistoryEntry := { effective, activating := 0, deactivating := 0 }
  { ledger with
    shared.stakeHistory := some (addStakeHistory history previousEpoch entry)
    shared.sysvars := ledger.shared.sysvars.map fun sysvars =>
      { sysvars with stakeHistory := addStakeHistory sysvars.stakeHistory previousEpoch entry } }

/-- Credit the rewards of the epoch, and queue them for the slots to come. -/
def payEpochRewards (rewards : List PendingReward) (ledger : Ledger) : Ledger :=
  let (paid, distributed) := applyRewards platform (rewards.filter fun reward => 0 < reward.amount) ledger
  { shared :=
      { paid.shared with
        sysvars := paid.shared.sysvars.map fun sysvars =>
          { sysvars with
            epochRewards := some ((rewards.map PendingReward.amount).sum, ledger.bank.capitalization) } }
    bank :=
      { paid.bank with
        capitalization := wrapAdd paid.bank.capitalization distributed
        rewardsDistributor := some
          (.new rewards partitionedRewardsDistributionSlots ledger.bank.slot) } }

/-- The ledger with the stake of the epoch that ended, if there is stake to
follow and an epoch that ended. -/
def recordEpoch (ledger : Ledger) : Option Ledger :=
  match ledger.shared.stakeTracker, ledger.shared.stakeHistory with
  | some tracker, some history =>
    let previousEpoch := ledger.bank.epochSchedule.getEpoch (ledger.bank.parentSlot.getD 0)
    if ledger.bank.slot = 0 ∨ (ledger.bank.epoch = previousEpoch ∧ ledger.bank.slotIndex ≠ 0) then none
    else some (ledger.recordStake platform tracker history previousEpoch)
  | _, _ => none

def calculateAndPrepareRewards (ledger : Ledger) : Ledger :=
  match ledger.recordEpoch platform with
  | none => ledger
  | some recorded =>
    match boundary.validatorRewards recorded with
    | some rewards => recorded.payEpochRewards platform rewards
    | none => recorded

end Ledger

def Platform.withBoundary (platform : Platform) (boundary : Boundary) : Platform :=
  { platform with
    activatePendingFeatures := .activatePendingFeatures platform boundary
    calculateAndPrepareRewards := .calculateAndPrepareRewards platform boundary }

end Karstflow.Runtime
