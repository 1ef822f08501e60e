import Karstflow.Runtime.Admission

namespace Karstflow.Runtime

open Data Karstflow.Types Sbpf

/-! Executing a transaction: load, run the instructions, check, and write. -/

structure SlotContext where
  slot : Nat
  epoch : Nat
  unixTimestamp : Int
  epochStartTimestamp : Int
  leaderScheduleEpoch : Nat
  epochSchedule : EpochSchedule
  rent : Rent
  lastRestartSlot : Nat
  recentBlockhash : Hash
  lamportsPerSignature : Nat
  epochRewardsActive : Bool
  epochRewardsTotalRewards : Nat
  sysvarData : Pubkey → Option (List UInt8)
  epochStake : Pubkey → Option Nat
  activeFeatures : List Pubkey

structure ProcessedSibling where
  programId : Pubkey
  data : List UInt8
  accounts : List Pubkey

structure AccountEntry where
  pubkey : Pubkey
  account : Account
  writable : Bool
  signer : Bool
deriving DecidableEq

structure InstructionInfo where
  programId : Pubkey
  accounts : List AccountEntry
  data : List UInt8
  slotContext : SlotContext
  siblingInstructions : List ProcessedSibling

structure InstructionResult where
  success : Bool
  computeUnitsConsumed : Nat
  modifiedAccounts : Modified
  logs : List String
  error : Option String
  returnData : Option (Pubkey × List UInt8)

/-- An execution backend: the answer to an instruction and the compute units left. -/
abbrev Backend := InstructionInfo → Nat → InstructionResult

/-- The backend that accepts every instruction and changes nothing. -/
def Backend.idle : Backend := fun _ _ =>
  { success := true, computeUnitsConsumed := 0, modifiedAccounts := .empty, logs := [],
    error := none, returnData := none }

structure TransactionExecutionResult where
  success : Bool
  computeUnitsConsumed : Nat
  fee : Nat
  modifiedAccounts : Modified
  logs : List String
  error : Option TransactionExecutionError
  voteUpdates : List VoteUpdate
  returnData : Option (Pubkey × List UInt8)

def refusal (error : TransactionExecutionError) : TransactionExecutionResult :=
  { success := false, computeUnitsConsumed := 0, fee := 0, modifiedAccounts := .empty, logs := [],
    error := some error, voteUpdates := [], returnData := none }

variable (platform : Platform) (backend : Backend) (ledger : Ledger) (transaction : SanitizedTransaction)

def sysvarBytes (sysvars : SysvarCache) (key : Pubkey) : Option (List UInt8) :=
  if key ∈ sysvarIds then some (platform.serializeSysvar sysvars key) else none

def getSysvarAccount (sysvars : SysvarCache) (key : Pubkey) : Option Account :=
  (sysvarBytes platform sysvars key).map fun data =>
    { lamports := 1, owner := sysvarProgramId, executable := false, rentEpoch := 0, data,
      lamports_le := by decide }

/-- The effective stake of each vote account that some stake is delegated to. -/
def stakeByVoteAccount (tracker : StakeTracker) (voter : Pubkey) : Option Nat :=
  if tracker.delegations.entries.any fun entry => entry.2.voterPubkey = voter then
    some (tracker.delegations.total fun _ delegation =>
      if delegation.voterPubkey = voter then platform.effectiveStake delegation tracker.currentEpoch else 0)
  else none

def slotContext : SlotContext :=
  let bank := ledger.bank
  let sysvars := ledger.shared.sysvars
  { slot := (sysvars.map fun sysvars => sysvars.clock.slot).getD bank.slot
    epoch := (sysvars.map fun sysvars => sysvars.clock.epoch).getD bank.epoch
    unixTimestamp := (sysvars.map fun sysvars => sysvars.clock.unixTimestamp).getD 0
    epochStartTimestamp := (sysvars.map fun sysvars => sysvars.clock.epochStartTimestamp).getD 0
    leaderScheduleEpoch :=
      (sysvars.map fun sysvars => sysvars.clock.leaderScheduleEpoch).getD (satAdd bank.epoch 1)
    epochSchedule := bank.epochSchedule
    rent := bank.rent
    lastRestartSlot := (sysvars.map SysvarCache.lastRestartSlot).getD 0
    recentBlockhash := bank.lastBlockhash
    lamportsPerSignature := bank.lamportsPerSignature
    epochRewardsActive := ((sysvars.bind SysvarCache.epochRewards).map fun _ => true).getD false
    epochRewardsTotalRewards := ((sysvars.bind SysvarCache.epochRewards).map Prod.fst).getD 0
    sysvarData := fun key => sysvars.bind fun sysvars => sysvarBytes platform sysvars key
    epochStake := fun voter =>
      ledger.shared.stakeTracker.bind fun tracker => stakeByVoteAccount platform tracker voter
    activeFeatures := ledger.shared.features.getD [] }

/-- An account as the transaction loads it: from the sysvar cache, else the
published account, else an empty one. -/
def loadedAccount (shared : Shared) (key : Pubkey) : Account :=
  ((shared.sysvars.bind fun sysvars => getSysvarAccount platform sysvars key).or
    (shared.published.get key)).getD .zeroed

def loadAccounts (platform : Platform) (shared : Shared) (dataSizeLimit : Nat) :
    List Pubkey → Modified → Nat → Except TransactionExecutionError (Modified × Nat)
  | [], loaded, accumulated => .ok (loaded, accumulated)
  | key :: rest, loaded, accumulated =>
    let account := loadedAccount platform shared key
    let accumulated := satAdd accumulated (accountLoadedSize account)
    if dataSizeLimit < accumulated then
      .error (.maxLoadedAccountsDataSizeExceeded accumulated dataSizeLimit)
    else loadAccounts platform shared dataSizeLimit rest (loaded.insert key account) accumulated

def loadTransactionAccounts (shared : Shared) (transaction : SanitizedTransaction)
    (dataSizeLimit : Nat) : Except TransactionExecutionError (Modified × Nat) :=
  loadAccounts platform shared dataSizeLimit transaction.accountKeys .empty 0

def maxLogCollectorSize : Nat := 10000

def stateProgram : Nat := 2

def sizeOfProgram : Nat := 36

/-- The account that holds the code of an upgradeable program. -/
def programdataAddressOf (accounts : List AccountEntry) (programId : Pubkey) : Option Pubkey :=
  match accounts.find? fun entry => entry.pubkey = programId with
  | none => none
  | some program =>
    if program.account.owner ≠ bpfLoaderProgramId ∨ program.account.data.length < sizeOfProgram ∨
        leValue (program.account.data.extract 0 4) ≠ stateProgram then none
    else Octets.ofBytes 32 (program.account.data.extract 4 36)

/-- The logs so far, the bytes they take, and whether they were cut off. -/
structure LogState where
  lines : List String
  bytesWritten : Nat
  truncated : Bool

/-- Collect the lines of one instruction, up to the limit. -/
def LogState.collect (index : Nat) : LogState → List String → LogState
  | logs, [] => logs
  | logs, line :: rest =>
    if logs.truncated then logs
    else
      let entry := "[ix " ++ toString index ++ "] " ++ line
      let newTotal := satAdd logs.bytesWritten entry.utf8ByteSize
      if maxLogCollectorSize < newTotal then
        { logs with lines := logs.lines ++ ["Log truncated"], truncated := true }
      else collect index
        { logs with lines := logs.lines ++ [entry], bytesWritten := newTotal } rest

structure LoopState where
  totalCompute : Nat
  logs : LogState
  modified : Modified
  returnData : Option (Pubkey × List UInt8)
  siblingInstructions : List ProcessedSibling

def LoopState.start : LoopState :=
  { totalCompute := 0, logs := { lines := [], bytesWritten := 0, truncated := false },
    modified := .empty, returnData := none, siblingInstructions := [] }

/-- What an execution works with: the bank, the transaction, the accounts it
loaded and the compute units it may use. -/
structure Execution where
  platform : Platform
  backend : Backend
  ledger : Ledger
  transaction : SanitizedTransaction
  accountState : Modified
  computeLimit : Nat

namespace Execution

variable (execution : Execution)

def current (modified : Modified) (key : Pubkey) : Account :=
  ((modified.get key).or (execution.accountState.get key)).getD .zeroed

/-- The accounts of an instruction. The instructions sysvar is put together
for the occasion. -/
def instructionAccounts (index : Nat) (programId : Pubkey) (modified : Modified) :
    List UInt8 → Except TransactionExecutionError (List AccountEntry)
  | [] => .ok []
  | accountIndex :: rest =>
    match execution.transaction.key accountIndex with
    | none =>
      .error (.instructionFailed index ("invalid account index " ++ toString accountIndex.toNat))
    | some pubkey =>
      let entry : AccountEntry :=
        { pubkey
          account :=
            if pubkey = instructionsSysvarId then
              { Account.zeroed with data := serializeInstructionsSysvar execution.transaction index }
            else execution.current modified pubkey
          writable := isAccountWritable execution.transaction accountIndex.toNat programId
          signer := execution.transaction.isSigner accountIndex.toNat }
      match instructionAccounts index programId modified rest with
      | .error error => .error error
      | .ok entries => .ok (entry :: entries)

/-- The program's account is always there. -/
def withProgram (programId : Pubkey) (modified : Modified) (accounts : List AccountEntry) :
    List AccountEntry :=
  if accounts.any fun entry => entry.pubkey = programId then accounts
  else accounts ++
    [{ pubkey := programId, account := execution.current modified programId, writable := false,
       signer := false }]

/-- The code of an upgradeable program comes along, read from the published
accounts: the transaction need not name it. -/
def withProgramdata (programId : Pubkey) (modified : Modified) (accounts : List AccountEntry) :
    List AccountEntry :=
  match programdataAddressOf accounts programId with
  | none => accounts
  | some address =>
    if accounts.any fun entry => entry.pubkey = address then accounts
    else
      match (modified.get address).or (execution.ledger.shared.published.get address) with
      | none => accounts
      | some account =>
        accounts ++ [{ pubkey := address, account, writable := false, signer := false }]

def instructionInfo (programId : Pubkey) (instruction : CompiledInstruction) (accounts : List AccountEntry)
    (state : LoopState) : InstructionInfo :=
  { programId
    accounts := execution.withProgramdata programId state.modified
      (execution.withProgram programId state.modified accounts)
    data := instruction.data
    slotContext := slotContext execution.platform execution.ledger
    siblingInstructions := state.siblingInstructions }

/-- What the backend is asked in a turn of the loop, if it is asked. -/
def question (index : Nat) (instruction : CompiledInstruction) (state : LoopState) : Option InstructionInfo :=
  match execution.transaction.key instruction.programIdIndex with
  | none => none
  | some programId =>
    match execution.instructionAccounts index programId state.modified instruction.accountIndices with
    | .error _ => none
    | .ok accounts => some (execution.instructionInfo programId instruction accounts state)

/-- The state after the backend's answer: its accounts are taken over whether
or not it succeeded. -/
def absorb (index : Nat) (programId : Pubkey) (instruction : CompiledInstruction) (state : LoopState)
    (result : InstructionResult) : LoopState :=
  let answered : LoopState :=
    { state with
      totalCompute := satAdd state.totalCompute result.computeUnitsConsumed
      logs := state.logs.collect index result.logs
      modified := state.modified.overlay result.modifiedAccounts }
  if result.success then
    { answered with
      siblingInstructions := state.siblingInstructions ++
        [{ programId, data := instruction.data,
           accounts := instruction.accountIndices.filterMap execution.transaction.key }]
      returnData := result.returnData.or state.returnData }
  else answered

def step (index : Nat) (instruction : CompiledInstruction) (state : LoopState) :
    LoopState × Option TransactionExecutionError :=
  match execution.transaction.key instruction.programIdIndex with
  | none =>
    (state, some (.instructionFailed index
      ("invalid program_id_index " ++ toString instruction.programIdIndex.toNat)))
  | some programId =>
    match execution.instructionAccounts index programId state.modified instruction.accountIndices with
    | .error error => (state, some error)
    | .ok accounts =>
      let info := execution.instructionInfo programId instruction accounts state
      let result := execution.backend info (execution.computeLimit - state.totalCompute)
      let next := execution.absorb index programId instruction state result
      if result.success = false then
        (next, some (.instructionFailed index (result.error.getD "unknown error")))
      else if execution.computeLimit < next.totalCompute then
        (next, some (.computeBudgetExceeded next.totalCompute execution.computeLimit))
      else (next, none)

def loop : Nat → List CompiledInstruction → LoopState → LoopState × Option TransactionExecutionError
  | _, [], state => (state, none)
  | index, instruction :: rest, state =>
    match execution.step index instruction state with
    | (next, some error) => (next, some error)
    | (next, none) => loop (index + 1) rest next

/-- Some modified account other than the incinerator went into a rent state it
may not go into. -/
def rentViolation (modified : Modified) : Option Pubkey :=
  let rent := execution.ledger.bank.rent
  let relax := execution.ledger.shared.isActive relaxPostExecMinBalanceCheckFeature
  (modified.entries.find? fun entry =>
    let pre := (execution.accountState.get entry.1).getD .zeroed
    let preState := .preExec pre rent relax
    let criteria := relaxRentExemptCriteria relax pre entry.2 preState
    let postState := .postExec entry.2 rent preState pre.lamports criteria
    entry.1 ≠ incineratorId && !isRentTransitionAllowed preState postState).map Prod.fst

def oversized (modified : Modified) : Option (Pubkey × Nat) :=
  (modified.entries.find? fun entry => maxAccountDataSize < entry.2.data.length).map fun entry =>
    (entry.1, entry.2.data.length)

def lamportsOf (accounts : Table Pubkey Account) (key : Pubkey) : Nat :=
  (accounts.get key).elim 0 Account.lamports

/-- The accounts that the message marks as writable hold as much as before. -/
def balanced (modified : Modified) : Bool :=
  let starting := (execution.transaction.writableAccounts.map (lamportsOf execution.accountState)).sum
  let ending := (execution.transaction.writableAccounts.map fun key =>
    (modified.get key).elim (lamportsOf execution.accountState key) Account.lamports).sum
  starting = ending

def check (modified : Modified) : Option TransactionExecutionError :=
  match execution.rentViolation modified with
  | some account => some (.insufficientFundsForRent account)
  | none =>
    match oversized modified with
    | some (account, size) => some (.accountDataTooLarge account size maxAccountDataSize)
    | none => if execution.balanced modified then none else some .unbalancedTransaction

/-- The instructions and the checks: the last state, and the error if there is one. -/
def run : LoopState × Option TransactionExecutionError :=
  match execution.loop 0 execution.transaction.instructions .start with
  | (state, some error) => (state, some error)
  | (state, none) => (state, execution.check state.modified)

end Execution

/-- A closed account keeps nothing. -/
def reclaim (account : Account) : Account := if account.lamports = 0 then .zeroed else account

def reclaimZeroLamportAccounts (modified : Modified) : Modified := modified.mapValues reclaim

def orInsert (modified : Modified) (key : Pubkey) (account : Account) : Modified :=
  if modified.contains key then modified else modified.insert key account

def calculateDataSizeDelta (preState modified : Modified) : Int :=
  (modified.entries.map fun entry =>
    (entry.2.data.length : Int) - ((preState.get entry.1).map fun account => account.data.length).getD 0).sum

namespace Landing

/-- What a failed transaction writes: the debited payer, and then the advanced nonce. -/
def failureWrites (landing : Landing) : Modified :=
  let payer := Table.empty.insert landing.feePayer landing.payerAfterFee
  match landing.durableNonce with
  | some info => payer.insert info.nonceKey info.rollbackAccount
  | none => payer

/-- What a successful transaction writes: the modified accounts, the debited
payer and the advanced nonce unless the instructions wrote them. -/
def successWrites (landing : Landing) (modified : Modified) : Modified :=
  let paid := orInsert modified landing.feePayer landing.payerAfterFee
  reclaimZeroLamportAccounts
    (match landing.durableNonce with
      | some info => orInsert paid info.nonceKey info.rollbackAccount
      | none => paid)

end Landing

/-- The counters that a landed transaction moves. -/
def Bank.record (bank : Bank) (landing : Landing) (transaction : SanitizedTransaction) (totalCompute : Nat) :
    Bank :=
  { bank with
    executionFees := wrapAdd bank.executionFees landing.executionFee
    priorityFees := wrapAdd bank.priorityFees landing.priorityFee
    signatureCount := wrapAdd bank.signatureCount transaction.numSignatures
    totalComputeUnitsUsed := wrapAdd bank.totalComputeUnitsUsed totalCompute
    nonvoteTransactionCount :=
      if transaction.isVote then bank.nonvoteTransactionCount else wrapAdd bank.nonvoteTransactionCount 1 }

/-- Remember the transaction under its slot, unless its nonce already keeps it
from coming back. -/
def Landing.remembered (landing : Landing) (host : Host) (cache : TransactionCache)
    (transaction : SanitizedTransaction) (slot : Nat) (status : TransactionStatus) : TransactionCache :=
  if landing.durableNonce = none ∧ transaction.signatures ≠ [] then
    (cache.insertWithStatus transaction.recentBlockhash (computeMessageHash host transaction) slot slot
      status).1
  else cache

/-- Replace the reserved share of the cost by what was used. -/
def Bank.reconcile (bank : Bank) (landing : Landing) (used : Nat) : Bank :=
  { bank with costTracker := bank.costTracker.updateExecutionCost landing.cost used }

/-- What loading is charged for when the accounts did not load. -/
def Landing.unloadedCost (landing : Landing) (gateActive : Bool) (error : TransactionExecutionError) : Nat :=
  let accumulated :=
    match error with
    | .maxLoadedAccountsDataSizeExceeded loaded _ => loaded
    | _ => 0
  loadedAccountsDataCost (feesOnlyLoadedSize gateActive accumulated
    landing.budget.loadedAccountsDataSizeLimit landing.feePayer landing.payerAfterFee.data.length
    (landing.durableNonce.map fun info => (info.nonceKey, info.rollbackAccount.data.length)))

/-- The accounts did not load: the fee is reported, and only the cost tracker moves. -/
def reportUnloaded (landing : Landing) (error : TransactionExecutionError) :
    Ledger × Option TransactionExecutionResult :=
  let used := landing.unloadedCost (ledger.shared.isActive defineLtdsFeeOnlySemanticsFeature) error
  ({ ledger with bank := ledger.bank.reconcile landing used },
    some
      { success := false
        computeUnitsConsumed := 0
        fee := landing.fee
        modifiedAccounts := Table.empty.insert landing.feePayer landing.payerAfterFee
        logs := []
        error := some error
        voteUpdates := []
        returnData := none })

def commitFailure (landing : Landing) (transaction : SanitizedTransaction) (loadedDataSize : Nat) (state : LoopState)
    (error : TransactionExecutionError) : Ledger × Option TransactionExecutionResult :=
  let written := ledger.writeAccounts platform landing.failureWrites
  let counted := written.bank.record landing transaction state.totalCompute
  let counted :=
    { counted with failedTransactionCount := wrapAdd counted.failedTransactionCount 1 }
  let used := satAdd state.totalCompute (loadedAccountsDataCost loadedDataSize)
  ({ shared :=
        { written.shared with
          transactionCache := landing.remembered platform.host written.shared.transactionCache transaction
            counted.slot .failed }
     bank := counted.reconcile landing used },
    some
      { success := false
        computeUnitsConsumed := state.totalCompute
        fee := landing.fee
        modifiedAccounts := state.modified
        logs := state.logs.lines
        error := some error
        voteUpdates := []
        returnData := none })

/-- The data size is tracked, even when the tracker has no room for its growth. -/
def Bank.trackDataSize (bank : Bank) (delta : Int) : Bank :=
  { bank with
    costTracker :=
      if delta = 0 then bank.costTracker
      else
        match bank.costTracker.tryAdd { TransactionCost.new 0 false with dataSizeDelta := delta } with
        | .ok tracker => tracker
        | .error _ => bank.costTracker
    accountsDataSize := bank.accountsDataSize + delta }

def commitSuccess (landing : Landing)
    (transaction : SanitizedTransaction) (accountState : Modified) (loadedDataSize : Nat)
    (state : LoopState) : Ledger × Option TransactionExecutionResult :=
  let modified := landing.successWrites state.modified
  let tracked := ledger.bank.trackDataSize (calculateDataSizeDelta accountState modified)
  let written := Ledger.writeAccounts platform { ledger with bank := tracked } modified
  let used := satAdd state.totalCompute (loadedAccountsDataCost loadedDataSize)
  let counted := (written.bank.reconcile landing used).record landing transaction state.totalCompute
  let counted :=
    { counted with
      transactionCount :=
        if counted.isFrozen then counted.transactionCount else wrapAdd counted.transactionCount 1 }
  ({ shared :=
        { written.shared with
          transactionCache := landing.remembered platform.host written.shared.transactionCache transaction
            counted.slot .success }
     bank := counted },
    some
      { success := true
        computeUnitsConsumed := state.totalCompute
        fee := landing.fee
        modifiedAccounts := modified
        logs := state.logs.lines
        error := none
        voteUpdates := extractVoteUpdates transaction
        returnData := state.returnData })

/-- What an execution of the transaction on this bank works with. -/
def executionOf (landing : Landing) (loaded : Modified) (computeLimit : Nat) : Execution :=
  { platform
    backend
    ledger
    transaction
    accountState := loaded.insert landing.feePayer landing.payerAfterFee
    computeLimit := min computeLimit landing.budget.computeUnitLimit }

def processLanded (computeLimit : Nat) (landing : Landing) : Ledger × Option TransactionExecutionResult :=
  match loadTransactionAccounts platform ledger.shared transaction
      landing.budget.loadedAccountsDataSizeLimit with
  | .error error => reportUnloaded ledger landing error
  | .ok (loaded, loadedDataSize) =>
    let execution := executionOf platform backend ledger transaction landing loaded computeLimit
    match execution.run with
    | (state, some error) => commitFailure platform ledger landing transaction loadedDataSize state error
    | (state, none) =>
      commitSuccess platform ledger landing transaction execution.accountState loadedDataSize state

/-- Process one transaction. There is no result when the call aborts. -/
def processTransaction (computeLimit : Nat) : Ledger × Option TransactionExecutionResult :=
  match admission platform ledger transaction computeLimit with
  | .refused error => (ledger, some (refusal error))
  | .unpaid tracker error => ({ ledger with bank.costTracker := tracker }, some (refusal error))
  | .aborted tracker => ({ ledger with bank.costTracker := tracker }, none)
  | .landed tracker landing =>
    processLanded platform backend { ledger with bank.costTracker := tracker } transaction computeLimit
      landing

end Karstflow.Runtime
