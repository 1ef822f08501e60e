import Karstflow.Runtime.Bank

namespace Karstflow.Runtime

open Data Karstflow.Types Sbpf Option

/-! The scheduler's cost model, which the bank reserves block space by. -/

def signatureCost : Nat := 720

def costPerWritableAccount : Nat := 300

def instructionDataBytesPerCu : Nat := 4

def simpleVoteExecutionCost : Nat := 2100

def maxBuiltinProgramCost : Nat := 200000

def defaultInstructionComputeUnitLimit : Nat := 200000

def ed25519PrecompileCostPerSignature : Nat := 2400

def secp256k1PrecompileCostPerSignature : Nat := 6690

def secp256r1PrecompileCostPerSignature : Nat := 4800

structure InstructionView where
  programId : Pubkey
  data : List UInt8

def instructionViews (transaction : SanitizedTransaction) : List InstructionView :=
  transaction.instructions.filterMap fun instruction =>
    (transaction.key instruction.programIdIndex).map fun programId => { programId, data := instruction.data }

/-- The first compute budget instruction of a kind that is long enough; the
number is a `u32`. -/
def budgetRequest (kind : UInt8) (instructions : List InstructionView) : Option Nat :=
  instructions.findSome? fun view =>
    if view.programId = computeBudgetProgramId then
      match view.data with
      | [] => none
      | tag :: arguments =>
        if tag = kind ∧ 4 ≤ arguments.length then some (leValue (arguments.extract 0 4)) else none
    else none

def requestedComputeUnitLimit (instructions : List InstructionView) : Option Nat :=
  (budgetRequest instructionSetComputeUnitLimit instructions).map fun limit => min limit maxComputeUnitLimit

def requestedLoadedAccountsDataSize (instructions : List InstructionView) : Option Nat :=
  budgetRequest instructionSetLoadedAccountsDataSizeLimit instructions

/-- One vote instruction and compute budget instructions, nothing else. -/
def isSimpleVote (instructions : List InstructionView) : Bool :=
  let voteCount := instructions.countP fun view => view.programId = voteProgramId
  let otherCount := instructions.countP fun view =>
    view.programId ≠ voteProgramId && view.programId ≠ computeBudgetProgramId
  voteCount = 1 && otherCount = 0

def isBuiltinProgram (programId : Pubkey) : Bool :=
  programId ∈ [systemProgramId, voteProgramId, stakeProgramId, configProgramId, bpfLoaderProgramId,
    bpfLoaderDeprecatedProgramId, loaderV4ProgramId, computeBudgetProgramId, addressLookupTableProgramId]

def isPrecompileProgram (programId : Pubkey) : Bool :=
  programId ∈ [ed25519ProgramId, secp256k1ProgramId, secp256r1ProgramId]

/-- The execution cost of a transaction that asks for no limit. -/
def computeDefaultExecutionCost (instructions : List InstructionView) : Nat :=
  min (instructions.foldl (fun total view =>
    if view.programId = computeBudgetProgramId then total
    else if isBuiltinProgram view.programId || isPrecompileProgram view.programId then
      satAdd total maxBuiltinProgramCost
    else satAdd total defaultInstructionComputeUnitLimit) 0) maxComputeUnitLimit

/-- The signatures that the instructions of one precompile declare. -/
def precompileSignatures (programId : Pubkey) (instructions : List InstructionView) : Nat :=
  instructions.foldl (fun total view =>
    match view.data with
    | [] => total
    | count :: _ => if view.programId = programId then satAdd total count.toNat else total) 0

def precompileCost (instructions : List InstructionView) : Nat :=
  satAdd
    (satAdd
      (satMul (precompileSignatures ed25519ProgramId instructions) ed25519PrecompileCostPerSignature)
      (satMul (precompileSignatures secp256k1ProgramId instructions) secp256k1PrecompileCostPerSignature))
    (satMul (precompileSignatures secp256r1ProgramId instructions) secp256r1PrecompileCostPerSignature)

def executionCost (instructions : List InstructionView) : Nat :=
  (requestedComputeUnitLimit instructions).getD (computeDefaultExecutionCost instructions)

def computeTransactionCost (instructions : List InstructionView) (numSignatures numWritableAccounts : Nat)
    (isVote : Bool) : ModelCost :=
  let signature := satMul numSignatures signatureCost
  let writable := satMul numWritableAccounts costPerWritableAccount
  if isVote && isSimpleVote instructions then
    { totalCost := satAdd (satAdd signature writable) simpleVoteExecutionCost
      executionCost := simpleVoteExecutionCost
      loadedAccountsDataCost := 0
      isSimpleVote := true }
  else
    let instructionData :=
      (instructions.map fun view => view.data.length).sum / instructionDataBytesPerCu
    let loaded := loadedAccountsDataCost
      ((requestedLoadedAccountsDataSize instructions).getD maxLoadedAccountsDataSize)
    { totalCost := satAdd (satAdd (satAdd (satAdd (satAdd signature writable) instructionData)
        (executionCost instructions)) (precompileCost instructions)) loaded
      executionCost := executionCost instructions
      loadedAccountsDataCost := loaded
      isSimpleVote := false }

def transactionModelCost (transaction : SanitizedTransaction) : ModelCost :=
  computeTransactionCost (instructionViews transaction) transaction.numSignatures
    transaction.writableAccounts.length transaction.isVote

def Platform.withCostModel (platform : Platform) : Platform :=
  { platform with modelCost := transactionModelCost }

theorem executionCost_le (instructions : List InstructionView) : executionCost instructions ≤ maxComputeUnitLimit := by
  cases asked : budgetRequest instructionSetComputeUnitLimit instructions with
  | none =>
    simp only [executionCost, requestedComputeUnitLimit, asked, map_none, getD_none]
    exact min_le_right _ _
  | some limit =>
    simp only [executionCost, requestedComputeUnitLimit, asked, map_some, getD_some]
    exact min_le_right _ _

theorem transactionModelCost_covers (transaction : SanitizedTransaction) :
    let model := transactionModelCost transaction
    model.executionCost ≤ maxComputeUnitLimit ∧
      (model.totalCost = u64Max ∨ model.executionCost + model.loadedAccountsDataCost ≤ model.totalCost) := by
  simp only [transactionModelCost, computeTransactionCost]
  generalize satMul transaction.numSignatures signatureCost = signature
  generalize satMul transaction.writableAccounts.length costPerWritableAccount = writable
  generalize instructionViews transaction = instructions
  have small := executionCost_le instructions
  split
  · simp only [satAdd, simpleVoteExecutionCost, maxComputeUnitLimit]
    omega
  generalize executionCost instructions = execution at small ⊢
  generalize precompileCost instructions = precompiles
  generalize (instructions.map fun view => view.data.length).sum / instructionDataBytesPerCu = data
  generalize loadedAccountsDataCost
    ((requestedLoadedAccountsDataSize instructions).getD maxLoadedAccountsDataSize) = loaded
  refine ⟨small, ?_⟩
  simp only [satAdd]
  omega

theorem executionAndLoadedCost_le (transaction : SanitizedTransaction) (allocatedDataSize computeLimit : Nat)
    (bounded : (estimatedCost (transactionModelCost transaction) allocatedDataSize transaction
      computeLimit).totalCost ≤ maxBlockComputeUnitsSimd0286) :
    (estimatedCost (transactionModelCost transaction) allocatedDataSize transaction
      computeLimit).executionAndLoadedCost ≤
      (estimatedCost (transactionModelCost transaction) allocatedDataSize transaction computeLimit).totalCost := by
  obtain ⟨small, covers⟩ := transactionModelCost_covers transaction
  generalize transactionModelCost transaction = model at small covers bounded
  simp only [estimatedCost, satAdd, maxComputeUnitLimit, maxBlockComputeUnitsSimd0286, u64Max]
    at small covers bounded ⊢
  cases simple : model.isSimpleVote with
  | true =>
    simp only [simple, if_true] at bounded ⊢
    omega
  | false =>
    simp only [simple, Bool.false_eq_true, if_false] at bounded ⊢
    omega

end Karstflow.Runtime
