import Karstflow.Sbpf.SystemProgram
import Karstflow.Sbpf.VoteProgram
import Karstflow.Types.Ids

namespace Karstflow.Runtime

open Data Karstflow.Types Sbpf

/-! Sanitized transactions: which accounts they name and lock, and what they
ask for. -/

def maxTransactionAccountLocks : Nat := 64

def maxInstructionsPerTransaction : Nat := 64

def maxInstructionAccounts : Nat := 255

def maxComputeUnitLimit : Nat := 1400000

def maxLoadedAccountsDataSize : Nat := 64 * 1024 * 1024

def maxAccountDataSize : Nat := 10 * 1024 * 1024

def transactionAccountBaseSize : Nat := 64

def microLamportsPerLamport : Nat := 1000000

def messageHashPrefixBytes : Nat := 20

structure CompiledInstruction where
  programIdIndex : UInt8
  accountIndices : List UInt8
  data : List UInt8
deriving DecidableEq

/-- A transaction after sanitization. The keys that lookup tables resolve to
follow the static ones, the writable ones first. -/
structure SanitizedTransaction where
  accountKeys : List Pubkey
  recentBlockhash : Hash
  instructions : List CompiledInstruction
  numSignatures : Nat
  numReadonlySigned : Nat
  numReadonlyUnsigned : Nat
  signatures : List (Octets 64)
  messageBytes : List UInt8
  numStaticKeys : Nat
  numWritableLookupKeys : Nat
deriving DecidableEq

/-- Why the block-level cost tracker turns a transaction away. -/
inductive CostTrackerError where
  | blockCostLimitExceeded (current requested limit : Nat)
  | voteCostLimitExceeded (current requested limit : Nat)
  | accountCostLimitExceeded (account : Pubkey) (current requested limit : Nat)
  | accountDataSizeLimitExceeded (current requested limit : Int)
  | blockAccountsDataSizeLimitExceeded (current requested limit : Nat)
  | blockDead
deriving DecidableEq

/-- Why a transaction is turned away or fails. The text of
`blockCostLimitExceeded` is what `{:?}` prints of its reason. -/
inductive TransactionExecutionError where
  | bankNotProcessing
  | feePayerNotFound
  | insufficientFee (required available : Nat)
  | invalidAccountForFee
  | instructionFailed (index : Nat) (message : String)
  | computeBudgetExceeded (consumed limit : Nat)
  | blockhashNotRecent
  | signatureVerificationFailed (signerIndex : Nat)
  | duplicateTransaction
  | insufficientFundsForRent (account : Pubkey)
  | blockCostLimitExceeded (reason : CostTrackerError)
  | maxLoadedAccountsDataSizeExceeded (loaded limit : Nat)
  | tooManyAccountLocks (count limit : Nat)
  | duplicateAccountKey (account : Pubkey)
  | unbalancedTransaction
  | accountDataTooLarge (account : Pubkey) (size limit : Nat)
  | tooManyInstructions (count limit : Nat)
  | sanitizeFailure (message : String)
deriving DecidableEq

namespace SanitizedTransaction

variable (transaction : SanitizedTransaction)

def key (index : UInt8) : Option Pubkey := transaction.accountKeys[index.toNat]?

def isSigner (index : Nat) : Bool := index < transaction.numSignatures

def staticKeyCount : Nat :=
  if 0 < transaction.numStaticKeys then transaction.numStaticKeys else transaction.accountKeys.length

def isWritableIndex (index : Nat) : Bool :=
  if transaction.staticKeyCount ≤ index then
    index < transaction.staticKeyCount + transaction.numWritableLookupKeys
  else if index < transaction.numSignatures then
    index < transaction.numSignatures - transaction.numReadonlySigned
  else index < transaction.staticKeyCount - transaction.numReadonlyUnsigned

def writableAccounts : List Pubkey :=
  (transaction.accountKeys.zipIdx.filter fun entry => transaction.isWritableIndex entry.2).map Prod.fst

def isVote : Bool :=
  match transaction.instructions with
  | [] => false
  | first :: _ => transaction.key first.programIdIndex = some voteProgramId

/-- A transaction with one signature, whose last accounts are read-only. -/
def simple (accountKeys : List Pubkey) (readonly : Nat) (recentBlockhash : Hash)
    (instructions : List CompiledInstruction) : SanitizedTransaction :=
  { accountKeys, recentBlockhash, instructions, numSignatures := 1, numReadonlySigned := 0,
    numReadonlyUnsigned := readonly, signatures := [.filled 64 1], messageBytes := [1],
    numStaticKeys := accountKeys.length, numWritableLookupKeys := 0 }

end SanitizedTransaction

def duplicateKey : List Pubkey → Option Pubkey
  | [] => none
  | key :: rest => if key ∈ rest then some key else duplicateKey rest

variable (transaction : SanitizedTransaction)

def validateAccountLocks : Except TransactionExecutionError Unit :=
  if maxTransactionAccountLocks < transaction.accountKeys.length then
    .error (.tooManyAccountLocks transaction.accountKeys.length maxTransactionAccountLocks)
  else
    match duplicateKey transaction.accountKeys with
    | some account => .error (.duplicateAccountKey account)
    | none => .ok ()

def reservedKeys : List Pubkey :=
  [systemProgramId, voteProgramId, stakeProgramId, configProgramId, computeBudgetProgramId,
    bpfLoaderProgramId, bpfLoaderV2ProgramId, bpfLoaderDeprecatedProgramId, loaderV4ProgramId,
    ed25519ProgramId, secp256k1ProgramId, secp256r1ProgramId, sysvarProgramId, featureProgramId,
    addressLookupTableProgramId]

def isReservedKey (key : Pubkey) : Bool := key ∈ reservedKeys

/-- Whether an instruction of `programId` may write the account at `index`. -/
def isAccountWritable (index : Nat) (programId : Pubkey) : Bool :=
  transaction.isWritableIndex index &&
    match transaction.accountKeys[index]? with
    | none => false
    | some key => !isReservedKey key && key ≠ programId

def instructionSetComputeUnitLimit : UInt8 := 2

def instructionSetComputeUnitPrice : UInt8 := 3

def instructionSetLoadedAccountsDataSizeLimit : UInt8 := 4

structure ComputeBudgetParams where
  computeUnitLimit : Nat
  computeUnitPrice : Nat
  loadedAccountsDataSizeLimit : Nat
deriving DecidableEq

def ComputeBudgetParams.default : ComputeBudgetParams :=
  { computeUnitLimit := maxComputeUnitLimit
    computeUnitPrice := 0
    loadedAccountsDataSizeLimit := maxLoadedAccountsDataSize }

/-- The parameters read so far, and which of them have been set: the first
instruction of a kind counts. -/
structure BudgetScan where
  params : ComputeBudgetParams
  hasLimit : Bool
  hasPrice : Bool
  hasDataSize : Bool

def BudgetScan.read (scan : BudgetScan) : List UInt8 → BudgetScan
  | [] => scan
  | tag :: arguments =>
    if tag = instructionSetComputeUnitLimit ∧ 4 ≤ arguments.length ∧ scan.hasLimit = false then
      { scan with
        params.computeUnitLimit := min (leValue (arguments.extract 0 4)) maxComputeUnitLimit
        hasLimit := true }
    else if tag = instructionSetComputeUnitPrice ∧ 8 ≤ arguments.length ∧ scan.hasPrice = false then
      { scan with
        params.computeUnitPrice := leValue (arguments.extract 0 8)
        hasPrice := true }
    else if tag = instructionSetLoadedAccountsDataSizeLimit ∧ 4 ≤ arguments.length ∧
        scan.hasDataSize = false then
      { scan with
        params.loadedAccountsDataSizeLimit :=
          min (leValue (arguments.extract 0 4)) maxLoadedAccountsDataSize
        hasDataSize := true }
    else scan

def parseComputeBudget : ComputeBudgetParams :=
  let start : BudgetScan :=
    { params := .default, hasLimit := false, hasPrice := false, hasDataSize := false }
  let scan := transaction.instructions.foldl (fun scan instruction =>
    if transaction.key instruction.programIdIndex = some computeBudgetProgramId then
      scan.read instruction.data
    else scan) start
  scan.params

/-- The price of the requested compute units in lamports, rounded up. The
product is a `u128`, in which it always fits. -/
def calculatePriorityFee (params : ComputeBudgetParams) : Nat :=
  if params.computeUnitPrice = 0 then 0
  else
    min ((params.computeUnitPrice * params.computeUnitLimit + (microLamportsPerLamport - 1)) /
      microLamportsPerLamport) u64Max

/-- The signatures that the precompile instructions declare in their first byte. -/
def countPrecompileSignatures : Nat :=
  transaction.instructions.foldl (fun extra instruction =>
    match transaction.key instruction.programIdIndex, instruction.data with
    | some programId, count :: _ =>
      if programId = ed25519ProgramId ∨ programId = secp256k1ProgramId ∨
          programId = secp256r1ProgramId then
        satAdd extra count.toNat
      else extra
    | _, _ => extra) 0

/-- `lamports_per_signature` for each signature of the message and of its
precompile instructions. -/
def executionFee (lamportsPerSignature : Nat) (transaction : SanitizedTransaction) : Nat :=
  min (lamportsPerSignature * satAdd transaction.numSignatures (countPrecompileSignatures transaction))
    u64Max

def accountLoadedSize (account : Account) : Nat :=
  if account.lamports = 0 ∧ account.data = [] then 0
  else transactionAccountBaseSize + account.data.length

/-- The data size that a transaction is charged for when its accounts do not load. -/
def feesOnlyLoadedSize (gateActive : Bool) (accumulated dataSizeLimit : Nat) (feePayer : Pubkey)
    (feePayerDataLen : Nat) (nonce : Option (Pubkey × Nat)) : Nat :=
  if gateActive then min accumulated dataSizeLimit
  else
    match nonce with
    | some (key, dataLen) => if key ≠ feePayer then satAdd feePayerDataLen dataLen else feePayerDataLen
    | none => feePayerDataLen

/-- One instruction, with the flags and the key of each of its accounts. A
key out of range leaves zeros. -/
def serializeInstruction (instruction : CompiledInstruction) : List UInt8 :=
  let programId := transaction.key instruction.programIdIndex
  let spell := fun found : Option Pubkey => (found.getD .zeroed).bytes
  let accounts := instruction.accountIndices.flatMap fun index =>
    let signer : UInt8 := if transaction.isSigner index.toNat then 1 else 0
    let writable : UInt8 :=
      if isAccountWritable transaction index.toNat (programId.getD .zeroed) then 2 else 0
    (signer ||| writable) :: spell (transaction.key index)
  leBytes 2 instruction.accountIndices.length ++ accounts ++ spell programId ++
    leBytes 2 instruction.data.length ++ instruction.data

/-- The offset of each body when the bodies follow one another from `start` on. -/
def bodyOffsets : Nat → List (List UInt8) → List Nat
  | _, [] => []
  | start, body :: rest => start :: bodyOffsets (start + body.length) rest

/-- All instructions of the transaction, and last the index of the current one. -/
def serializeInstructionsSysvar (currentIndex : Nat) : List UInt8 :=
  let bodies := transaction.instructions.map (serializeInstruction transaction)
  let headerSize := 2 + bodies.length * 2
  leBytes 2 bodies.length ++ (bodyOffsets headerSize bodies).flatMap (leBytes 2) ++ bodies.flatten ++
    leBytes 2 currentIndex

/-- The first twenty bytes of the message's hash, or of the first signature
when the message bytes are missing. -/
def computeMessageHash (host : Host) (transaction : SanitizedTransaction) : List UInt8 :=
  if transaction.messageBytes ≠ [] then
    (host.sha256 transaction.messageBytes).bytes.extract 0 messageHashPrefixBytes
  else
    match transaction.signatures with
    | signature :: _ => signature.bytes.extract 0 messageHashPrefixBytes
    | [] => .replicate messageHashPrefixBytes 0

structure VoteUpdate where
  voteAccount : Pubkey
  votedSlot : Option Nat
deriving DecidableEq

/-- The last slot of a `Vote` or `VoteSwitch` instruction. -/
def extractVotedSlot (data : List UInt8) : Option Nat :=
  if data.length < 12 then none
  else
    let instructionType := leValue (data.extract 0 4)
    if instructionType = 2 ∨ instructionType = 4 then
      let slotCount := leValue (data.extract 4 12)
      let lastSlotOffset := 12 + (slotCount - 1) * 8
      if slotCount = 0 ∨ data.length < lastSlotOffset + 8 then none
      else some (leValue (data.extract lastSlotOffset (lastSlotOffset + 8)))
    else none

def extractVoteUpdates : List VoteUpdate :=
  transaction.instructions.filterMap fun instruction =>
    if transaction.key instruction.programIdIndex = some voteProgramId then
      (instruction.accountIndices.head?.bind transaction.key).map fun voteAccount =>
        { voteAccount, votedSlot := extractVotedSlot instruction.data }
    else none

end Karstflow.Runtime
