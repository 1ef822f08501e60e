import Karstflow.Runtime.Bank

namespace Karstflow.Runtime

open Data Karstflow.Types Sbpf

/-! What a transaction has to pass before it lands. -/

def ensure (condition : Prop) [Decidable condition] (error : TransactionExecutionError) :
    Except TransactionExecutionError Unit :=
  if condition then .ok () else .error error

@[simp] theorem ensure_eq_ok [Decidable condition] {error : TransactionExecutionError}
    : ensure condition error = .ok done ↔ condition := demand_eq_ok

structure NonceData where
  authority : Pubkey
  durableNonce : Hash
  lamportsPerSignature : Nat
deriving DecidableEq

inductive Nonce where
  | uninitialized
  | initialized (data : NonceData)
deriving DecidableEq

/-- The version is not looked at. -/
def deserializeNonceState (data : List UInt8) : Option Nonce :=
  if data.length ≠ nonceAccountSize then none
  else
    let state := leValue (data.extract 4 8)
    if state = nonceStateUninitialized then some .uninitialized
    else if state ≠ nonceStateInitialized then none
    else do
      let authority ← Octets.ofBytes 32 (data.extract 8 40)
      let durableNonce ← Octets.ofBytes 32 (data.extract 40 72)
      return .initialized { authority, durableNonce, lamportsPerSignature := leValue (data.extract 72 80) }

/-- The bytes of a state, in the current version; the layout is the one that
the system program writes. -/
def serializeNonceState : Nonce → List UInt8
  | .uninitialized => NonceVersionedState.serialize (.uninitialized nonceVersionCurrent)
  | .initialized data =>
    NonceVersionedState.serialize
      (.initialized nonceVersionCurrent data.authority data.durableNonce data.lamportsPerSignature)

def storedNonce (account : Account) : Option NonceData :=
  match deserializeNonceState account.data with
  | some (.initialized data) => some data
  | _ => none

def advanceNonceDiscriminant : Nat := 4

def isNonceInstruction (data : List UInt8) : Bool :=
  4 ≤ data.length && leValue (data.extract 0 4) = advanceNonceDiscriminant

structure DurableNonceInfo where
  nonceKey : Pubkey
  rollbackAccount : Account
deriving DecidableEq

/-- The key of the nonce account that the first instruction advances. -/
def nonceKeyOf (transaction : SanitizedTransaction) (requireStaticNonce : Bool) : Option Pubkey :=
  match transaction.instructions with
  | [] => none
  | first :: _ =>
    if transaction.key first.programIdIndex = some systemProgramId ∧
        isNonceInstruction first.data = true then
      match first.accountIndices with
      | [] => none
      | index :: _ =>
        if requireStaticNonce = true ∧ transaction.staticKeyCount ≤ index.toNat then none
        else transaction.key index
    else none

/-- A transaction whose blockhash is the nonce of the account it advances. The
rollback account holds the next nonce. -/
def tryDetectDurableNonce (host : Host) (transaction : SanitizedTransaction)
    (published : Table Pubkey Account) (lastBlockhash : Hash) (lamportsPerSignature : Nat)
    (requireStaticNonce : Bool) : Option DurableNonceInfo := do
  let nonceKey ← nonceKeyOf transaction requireStaticNonce
  let account ← published.get nonceKey
  let stored ← storedNonce account
  let next := deriveDurableNonce host lastBlockhash
  if stored.durableNonce ≠ transaction.recentBlockhash ∨ stored.durableNonce = next then none
  else
    let advanced := .initialized
      { authority := stored.authority, durableNonce := next, lamportsPerSignature }
    some { nonceKey, rollbackAccount := { account with data := serializeNonceState advanced } }

variable (platform : Platform) (ledger : Ledger) (transaction : SanitizedTransaction)

def verifyTransactionSignatures : Except TransactionExecutionError Unit :=
  let numSigners := transaction.numSignatures
  if transaction.signatures.length < numSigners ∨ transaction.accountKeys.length < numSigners then
    .error (.signatureVerificationFailed 0)
  else
    match ((transaction.accountKeys.zip transaction.signatures).take numSigners).findIdx? fun signed =>
        !platform.verifyStrict signed.1 transaction.messageBytes signed.2 with
    | some signerIndex => .error (.signatureVerificationFailed signerIndex)
    | none => .ok ()

inductive RentState where
  | uninitialized
  | rentPaying (lamports dataLen : Nat)
  | rentExempt
deriving DecidableEq

namespace RentState

def fromAccount (account : Account) (rent : Rent) : RentState :=
  if account.lamports = 0 then .uninitialized
  else if rent.isExempt account.lamports account.data.length then .rentExempt
  else .rentPaying account.lamports account.data.length

/-- With `relax`, a rent-paying account counts as exempt going in. -/
def preExec (account : Account) (rent : Rent) (relax : Bool) : RentState :=
  match fromAccount account rent with
  | .rentPaying lamports dataLen => if relax then .rentExempt else .rentPaying lamports dataLen
  | state => state

/-- With `relax`, an exempt account that lost no lamports stays exempt. -/
def postExec (account : Account) (rent : Rent) (preState : RentState) (preExecBalance : Nat)
    (relax : Bool) : RentState :=
  if relax = false then fromAccount account rent
  else if account.lamports = 0 then .uninitialized
  else if rent.isExempt account.lamports account.data.length then .rentExempt
  else if preExecBalance ≤ account.lamports ∧ preState = .rentExempt then .rentExempt
  else .rentPaying account.lamports account.data.length

end RentState

def relaxRentExemptCriteria (featureActive : Bool) (pre post : Account) (preState : RentState) : Bool :=
  featureActive && post.data.length ≤ pre.data.length && preState = .rentExempt && pre.owner = post.owner

def isRentTransitionAllowed (pre : RentState) : RentState → Bool
  | .uninitialized | .rentExempt => true
  | .rentPaying postLamports postDataLen =>
    match pre with
    | .rentPaying preLamports preDataLen => postDataLen = preDataLen && postLamports ≤ preLamports
    | _ => false

inductive SystemAccountKind where
  | system
  | nonce
deriving Repr, DecidableEq

/-- The two kinds of account that may pay a fee. -/
def getSystemAccountKind (account : Account) : Option SystemAccountKind :=
  if account.owner ≠ systemProgramId then none
  else if account.data = [] then some .system
  else if account.data.length ≠ nonceAccountSize then none
  else if nonceVersionCurrent < leValue (account.data.extract 0 4) then none
  else if leValue (account.data.extract 4 8) = nonceStateInitialized then some .nonce
  else none

/-- The payer's account after the fee, if it may and can pay. -/
def validateFeePayer (rent : Rent) (relax : Bool) (feePayer : Pubkey) (fee : Nat) (found : Option Account) :
    Except TransactionExecutionError Account :=
  match found with
  | none => .error .feePayerNotFound
  | some payer => do
    ensure (0 < payer.lamports) .feePayerNotFound
    match getSystemAccountKind payer with
    | none => .error .invalidAccountForFee
    | some kind =>
      let minBalance := if kind = .nonce then rent.minimumBalance nonceAccountSize else 0
      let available := payer.lamports - minBalance
      ensure (fee ≤ available) (.insufficientFee fee available)
      let preState := .preExec payer rent relax
      let postState := .postExec (payer.debit fee) rent preState payer.lamports relax
      ensure (isRentTransitionAllowed preState postState = true) (.insufficientFundsForRent feePayer)
      return payer.debit fee

/-- No instruction names more accounts than a byte can index, once the feature is active. -/
def limitInstructionAccounts (shared : Shared) (transaction : SanitizedTransaction) :
    Except TransactionExecutionError Unit :=
  if shared.isActive limitInstructionAccountsFeature then
    match transaction.instructions.zipIdx.find? fun entry =>
        maxInstructionAccounts < entry.1.accountIndices.length with
    | some (instruction, index) =>
      .error (.sanitizeFailure ("instruction " ++ toString index ++ " references " ++
        toString instruction.accountIndices.length ++ " accounts, limit is " ++
        toString maxInstructionAccounts))
    | none => .ok ()
  else .ok ()

/-- The blockhash is recent, or else it is a durable nonce. -/
def checkAge : Except TransactionExecutionError (Option DurableNonceInfo) :=
  if ledger.bank.isBlockhashValid transaction.recentBlockhash then .ok none
  else
    match tryDetectDurableNonce platform.host transaction ledger.shared.published
        ledger.bank.lastBlockhash baseLamportsPerSignature
        (ledger.shared.isActive requireStaticNonceAccountFeature) with
    | some info => .ok (some info)
    | none => .error .blockhashNotRecent

/-- A signed transaction verifies and is not in the cache under this slot. -/
def checkSigned : Except TransactionExecutionError Unit :=
  if transaction.signatures = [] then .ok ()
  else do
    verifyTransactionSignatures platform transaction
    ensure (ledger.shared.transactionCache.contains transaction.recentBlockhash
      (computeMessageHash platform.host transaction) ledger.bank.slot = false) .duplicateTransaction

/-- The checks that touch nothing: the bank's status, the shape of the
transaction, its age, its signatures, and that it has not been seen. -/
def screen : Except TransactionExecutionError (Option DurableNonceInfo) := do
  ensure (ledger.bank.status ≠ .rooted) .bankNotProcessing
  validateAccountLocks transaction
  ensure (transaction.instructions.length ≤ maxInstructionsPerTransaction)
    (.tooManyInstructions transaction.instructions.length maxInstructionsPerTransaction)
  limitInstructionAccounts ledger.shared transaction
  let durableNonce ← checkAge platform ledger transaction
  checkSigned platform ledger transaction
  return durableNonce

/-- A transaction that has landed: it will be charged. -/
structure Landing where
  durableNonce : Option DurableNonceInfo
  cost : TransactionCost
  budget : ComputeBudgetParams
  executionFee : Nat
  priorityFee : Nat
  feePayer : Pubkey
  payerAfterFee : Account

def Landing.fee (landing : Landing) : Nat := satAdd landing.executionFee landing.priorityFee

/-- How far a transaction gets before its accounts are loaded. From the second
case on, the block capacity is reserved in the tracker. -/
inductive Admission where
  | refused (error : TransactionExecutionError)
  | unpaid (tracker : CostTracker) (error : TransactionExecutionError)
  | aborted (tracker : CostTracker)
  | landed (tracker : CostTracker) (landing : Landing)

def admission (computeLimit : Nat) : Admission :=
  match screen platform ledger transaction with
  | .error error => .refused error
  | .ok durableNonce =>
    let prefundActive := ledger.shared.isActive createAccountAllowPrefundFeature
    let cost := estimatedCost (platform.modelCost transaction)
      (platform.allocatedDataSize transaction prefundActive) transaction computeLimit
    match ledger.bank.costTracker.tryAdd cost with
    | .error reason => .refused (.blockCostLimitExceeded reason)
    | .ok tracker =>
      let budget := parseComputeBudget transaction
      let priorityFee := calculatePriorityFee budget
      let executionFee := executionFee ledger.bank.lamportsPerSignature transaction
      match transaction.accountKeys with
      -- `account_keys[0]` aborts
      | [] => .aborted tracker
      | feePayer :: _ =>
        match validateFeePayer ledger.bank.rent
            (ledger.shared.isActive relaxPostExecMinBalanceCheckFeature) feePayer
            (satAdd executionFee priorityFee) (ledger.shared.published.get feePayer) with
        | .error error => .unpaid tracker error
        | .ok payerAfterFee =>
          .landed tracker
            { durableNonce, cost, budget, executionFee, priorityFee, feePayer, payerAfterFee }

end Karstflow.Runtime
