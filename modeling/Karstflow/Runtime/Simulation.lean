import Karstflow.Runtime.Executor

namespace Karstflow.Runtime

open Data Karstflow.Types Sbpf

/-! Simulating a transaction: the checks and the instruction loop of an
execution once more, without a fee, without the checks after the loop and
without writing anything. -/

/-- An error text: one that the simulation spells, or an error as `{:?}` prints it. -/
inductive SimulationError where
  | text (message : String)
  | debug (error : TransactionExecutionError)
deriving DecidableEq

structure TransactionSimulationResult where
  error : Option SimulationError
  logs : List String
  computeUnitsConsumed : Nat
  modifiedAccounts : Modified
  returnData : Option (Pubkey × List UInt8)

def simulationRefusal (error : SimulationError) : TransactionSimulationResult :=
  { error := some error, logs := [], computeUnitsConsumed := 0, modifiedAccounts := .empty, returnData := none }

namespace Execution

variable (execution : Execution)

/-- What the backend is asked for one instruction. Nothing is brought along
for an upgradeable program. -/
def simulatedInfo (programId : Pubkey) (instruction : CompiledInstruction) (accounts : List AccountEntry)
    (state : LoopState) : InstructionInfo :=
  { programId
    accounts := execution.withProgram programId state.modified accounts
    data := instruction.data
    slotContext := slotContext execution.platform execution.ledger
    siblingInstructions := state.siblingInstructions }

/-- What the backend is asked in a turn of the loop, if it is asked. -/
def simulatedQuestion (index : Nat) (instruction : CompiledInstruction) (state : LoopState) :
    Option InstructionInfo :=
  match execution.transaction.key instruction.programIdIndex with
  | none => none
  | some programId =>
    match execution.instructionAccounts index programId state.modified instruction.accountIndices with
    | .error _ => none
    | .ok accounts => some (execution.simulatedInfo programId instruction accounts state)

def simulateStep (index : Nat) (instruction : CompiledInstruction) (state : LoopState) :
    LoopState × Option SimulationError :=
  match execution.transaction.key instruction.programIdIndex with
  | none => (state, some (.text ("invalid program_id_index " ++ toString instruction.programIdIndex.toNat)))
  | some programId =>
    match execution.instructionAccounts index programId state.modified instruction.accountIndices with
    | .error (.instructionFailed _ message) => (state, some (.text message))
    | .error error => (state, some (.debug error))
    | .ok accounts =>
      let info := execution.simulatedInfo programId instruction accounts state
      let result := execution.backend info (execution.computeLimit - state.totalCompute)
      let next := execution.absorb index programId instruction state result
      if result.success = false then (next, some (.text (result.error.getD "unknown error")))
      else if execution.computeLimit < next.totalCompute then
        (next, some (.text ("ComputeBudgetExceeded: consumed " ++ toString next.totalCompute ++ ", limit " ++
          toString execution.computeLimit)))
      else (next, none)

def simulateLoop : Nat → List CompiledInstruction → LoopState → LoopState × Option SimulationError
  | _, [], state => (state, none)
  | index, instruction :: rest, state =>
    match execution.simulateStep index instruction state with
    | (next, some error) => (next, some error)
    | (next, none) => simulateLoop (index + 1) rest next

end Execution

def screenSimulation (platform : Platform) (ledger : Ledger) (transaction : SanitizedTransaction)
    (sigVerify replaceBlockhash : Bool) : Except SimulationError Unit := do
  (validateAccountLocks transaction).mapError .debug
  demand (transaction.instructions.length ≤ maxInstructionsPerTransaction)
    (.text ("too many instructions: " ++ toString transaction.instructions.length ++ " (limit " ++
      toString maxInstructionsPerTransaction ++ ")"))
  demand (replaceBlockhash = true ∨ ledger.bank.isBlockhashValid transaction.recentBlockhash = true)
    (.text "BlockhashNotFound")
  if sigVerify = true ∧ transaction.signatures ≠ [] then
    (verifyTransactionSignatures platform transaction).mapError .debug
  else .ok ()

/-- What a simulation works with: the accounts as they are loaded. -/
def simulationOf (platform : Platform) (backend : Backend) (ledger : Ledger) (transaction : SanitizedTransaction)
    (loaded : Modified) : Execution :=
  { platform, backend, ledger, transaction, accountState := loaded
    computeLimit := (parseComputeBudget transaction).computeUnitLimit }

def simulateTransaction (platform : Platform) (backend : Backend) (ledger : Ledger)
    (transaction : SanitizedTransaction) (sigVerify replaceBlockhash : Bool) : TransactionSimulationResult :=
  match screenSimulation platform ledger transaction sigVerify replaceBlockhash with
  | .error error => simulationRefusal error
  | .ok _ =>
    match loadTransactionAccounts platform ledger.shared transaction
        (parseComputeBudget transaction).loadedAccountsDataSizeLimit with
    | .error error => simulationRefusal (.debug error)
    | .ok (loaded, _) =>
      let (state, error) := (simulationOf platform backend ledger transaction loaded).simulateLoop 0
        transaction.instructions .start
      { error
        logs := state.logs.lines
        computeUnitsConsumed := state.totalCompute
        modifiedAccounts := state.modified
        returnData := state.returnData }

end Karstflow.Runtime
