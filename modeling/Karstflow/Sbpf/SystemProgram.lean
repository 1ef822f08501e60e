import Karstflow.Sbpf.NonceState

namespace Karstflow.Sbpf

open Data Karstflow.Types

/-! The system program: one handler for each instruction type. -/

def systemProgramId : Pubkey := .filled 32 0

def createAccountAllowPrefundFeature : Pubkey :=
  ⟨[0x57, 0x32, 0x9a, 0x9e, 0x7c, 0x9b, 0x2b, 0x63, 0xa6, 0xee, 0x98, 0xb8, 0x4a, 0x21, 0x4e, 0xb2,
    0x16, 0xce, 0x9d, 0x43, 0x32, 0xb5, 0x8c, 0x1c, 0x9c, 0xa4, 0x56, 0x8b, 0xde, 0x3b, 0xa9, 0x14], rfl⟩

namespace SystemProgram

def maxAccountDataSize : Nat := 10 * 1024 * 1024

def computeCostBase : Nat := 150

inductive Instruction where
  | createAccount
  | assign
  | transfer
  | createAccountWithSeed
  | advanceNonceAccount
  | withdrawNonceAccount
  | initializeNonceAccount
  | authorizeNonceAccount
  | allocate
  | allocateWithSeed
  | assignWithSeed
  | transferWithSeed
  | upgradeNonceAccount
  | createAccountAllowPrefund
deriving Repr, DecidableEq

def Instruction.ofDiscriminant : Nat → Option Instruction
  | 0 => some .createAccount
  | 1 => some .assign
  | 2 => some .transfer
  | 3 => some .createAccountWithSeed
  | 4 => some .advanceNonceAccount
  | 5 => some .withdrawNonceAccount
  | 6 => some .initializeNonceAccount
  | 7 => some .authorizeNonceAccount
  | 8 => some .allocate
  | 9 => some .allocateWithSeed
  | 10 => some .assignWithSeed
  | 11 => some .transferWithSeed
  | 12 => some .upgradeNonceAccount
  | 13 => some .createAccountAllowPrefund
  | _ => none

inductive SystemProgramError where
  | accountAlreadyInUse
  | resultWithNegativeLamports
  | invalidAccountDataLength
  | maxSeedLengthExceeded
  | addressWithSeedMismatch
  | nonceNoRecentBlockhashes
  | nonceBlockhashNotExpired
deriving Repr, DecidableEq

def SystemProgramError.toString : SystemProgramError → String
  | .accountAlreadyInUse => "Account already in use"
  | .resultWithNegativeLamports => "Result with negative lamports"
  | .invalidAccountDataLength => "Invalid account data length"
  | .maxSeedLengthExceeded => "Max seed length exceeded"
  | .addressWithSeedMismatch => "Address with seed mismatch"
  | .nonceNoRecentBlockhashes => "Nonce: no recent blockhashes"
  | .nonceBlockhashNotExpired => "Nonce: blockhash not expired"

def rentExemptMinimum (snapshot : SysvarSnapshot) (dataLen : Nat) : Nat :=
  let accountStorage := satAdd 128 dataLen
  let annualCost := min (snapshot.lamportsPerByteYear * accountStorage) u64Max
  snapshot.exempt annualCost

structure DataCursor where
  data : List UInt8
  offset : Nat

namespace DataCursor

def take (cursor : DataCursor) (len : Nat) (field : String) : Except Failure (List UInt8 × DataCursor) := do
  let stop := cursor.offset + len
  require (stop ≤ u64Max) ("Instruction data offset overflow reading " ++ field)
  require (stop ≤ cursor.data.length) ("Instruction data too short for " ++ field)
  return (cursor.data.extract cursor.offset stop, { cursor with offset := stop })

def u64 (cursor : DataCursor) (field : String) : Except Failure (Nat × DataCursor) := do
  let (bytes, rest) ← cursor.take 8 field
  return (leValue bytes, rest)

def pubkey (cursor : DataCursor) (field : String) : Except Failure (Pubkey × DataCursor) := do
  let (bytes, rest) ← cursor.take 32 field
  let key ← unwrapOctets 32 bytes
  return (key, rest)

def seed (cursor : DataCursor) (len : Nat) : Except Failure (List UInt8 × DataCursor) := do
  let (bytes, rest) ← cursor.take len "seed"
  require (ByteArray.validateUTF8 ⟨bytes.toArray⟩ = true) "Invalid UTF-8 in seed"
  return (bytes, rest)

end DataCursor

variable (host : Host) (context : ExecutionContext)

structure SeedArguments where
  base : Pubkey
  seed : List UInt8
  owner : Pubkey
  lamports : Nat
  space : Nat

def createAccountWithSeedArguments (data : List UInt8) : Except Failure SeedArguments := do
  require (4 + 32 + 8 ≤ data.length) "CreateAccountWithSeed instruction data too short"
  let base ← parsePubkey "base pubkey" (data.extract 4 36)
  let seedLen ← parseU64 "seed length" (data.extract 36 44)
  require (seedLen ≤ Pubkey.maxSeedLen) SystemProgramError.maxSeedLengthExceeded.toString
  require (44 + seedLen + 32 + 8 + 8 ≤ data.length)
    "CreateAccountWithSeed instruction data too short for seed"
  let seed := data.extract 44 (44 + seedLen)
  require (ByteArray.validateUTF8 ⟨seed.toArray⟩ = true) "Invalid UTF-8 in seed"
  let offset := 44 + seedLen
  let owner ← parsePubkey "owner" (data.extract offset (offset + 32))
  let lamports ← parseU64 "lamports" (data.extract (offset + 32) (offset + 40))
  let space ← parseU64 "space" (data.extract (offset + 40) (offset + 48))
  return { base, seed, owner, lamports, space }

def allocateWithSeedArguments (data : List UInt8) : Except Failure SeedArguments := do
  require (4 + 32 + 8 ≤ data.length) "AllocateWithSeed instruction data too short"
  let (base, cursor) ← DataCursor.pubkey ⟨data, 4⟩ "base pubkey"
  let (seedLen, cursor) ← cursor.u64 "seed length"
  require (seedLen ≤ Pubkey.maxSeedLen) SystemProgramError.maxSeedLengthExceeded.toString
  let (seed, cursor) ← cursor.seed seedLen
  let (space, cursor) ← cursor.u64 "space"
  let (owner, _) ← cursor.pubkey "owner"
  return { base, seed, owner, lamports := 0, space }

def assignWithSeedArguments (data : List UInt8) : Except Failure SeedArguments := do
  let (base, cursor) ← DataCursor.pubkey ⟨data, 4⟩ "base pubkey"
  let (seedLen, cursor) ← cursor.u64 "seed length"
  require (seedLen ≤ Pubkey.maxSeedLen) SystemProgramError.maxSeedLengthExceeded.toString
  let (seed, cursor) ← cursor.seed seedLen
  let (owner, _) ← cursor.pubkey "owner to assign"
  return { base, seed, owner, lamports := 0, space := 0 }

/-- A transfer with seed carries no base key. -/
structure TransferArguments where
  lamports : Nat
  seed : List UInt8
  fromOwner : Pubkey

def transferWithSeedArguments (data : List UInt8) : Except Failure TransferArguments := do
  let (lamports, cursor) ← DataCursor.u64 ⟨data, 4⟩ "lamports"
  let (seedLen, cursor) ← cursor.u64 "seed length"
  require (seedLen ≤ Pubkey.maxSeedLen) SystemProgramError.maxSeedLengthExceeded.toString
  let (seed, cursor) ← cursor.seed seedLen
  let (fromOwner, _) ← cursor.pubkey "from owner"
  return { lamports, seed, fromOwner }

/-- The arguments of the two instructions that create an account at a free address. -/
structure CreateArguments where
  lamports : Nat
  space : Nat
  owner : Pubkey

def createArguments (name : String) (data : List UInt8) : Except Failure CreateArguments := do
  require (52 ≤ data.length) (name ++ " instruction data too short")
  let lamports ← parseU64 "lamports" (data.extract 4 12)
  let space ← parseU64 "space" (data.extract 12 20)
  let owner ← parsePubkey "owner" (data.extract 20 52)
  return { lamports, space, owner }

def numberArgument (name field : String) (data : List UInt8) : Except Failure Nat := do
  require (12 ≤ data.length) (name ++ " instruction data too short")
  parseU64 field (data.extract 4 12)

def keyArgument (name field : String) (data : List UInt8) : Except Failure Pubkey := do
  require (36 ≤ data.length) (name ++ " instruction data too short")
  parsePubkey field (data.extract 4 36)

def allocated (account : Account) (owner : Pubkey) (space : Nat) : Account :=
  { account with owner, data := .replicate space 0 }

def executeCreateAccount : Except Failure Modified := do
  require (2 ≤ context.accounts.length) "CreateAccount requires at least 2 accounts"
  let arguments ← createArguments "CreateAccount" context.instructionData
  require (arguments.space ≤ maxAccountDataSize) SystemProgramError.invalidAccountDataLength.toString
  let source ← context.account 0
  let target ← context.account 1
  require (source.writable = true ∧ target.writable = true) "CreateAccount requires writable accounts"
  context.requireSigner source.pubkey "CreateAccount: from account must be a signer"
  context.requireSigner target.pubkey "CreateAccount: to account must be a signer"
  require (target.account.data = [] ∧ target.account.lamports = 0)
    SystemProgramError.accountAlreadyInUse.toString
  require (arguments.lamports ≤ source.account.lamports)
    SystemProgramError.resultWithNegativeLamports.toString
  let created := (allocated target.account arguments.owner arguments.space).setLamports arguments.lamports
  return (Table.empty.insert source.pubkey (source.account.debit arguments.lamports)).insert
    target.pubkey created

/-- The transfer to a prefunded account; nothing moves for zero lamports. -/
def fundPrefunded (lamports : Nat) (target : Pubkey) (created : Account) : Except Failure Modified :=
  if 0 < lamports then do
    require (2 ≤ context.accounts.length) "CreateAccountAllowPrefund requires a funding account"
    let source ← context.account 1
    require (source.writable = true) "CreateAccountAllowPrefund requires writable funding account"
    require (lamports ≤ source.account.lamports) SystemProgramError.resultWithNegativeLamports.toString
    return (Table.empty.insert source.pubkey (source.account.debit lamports)).insert
      target (created.credit lamports)
  else .ok (Table.empty.insert target created)

def prefundActive : Bool :=
  match context.sysvarSnapshot with
  | some snapshot => isFeatureActive snapshot.activeFeatures createAccountAllowPrefundFeature
  | none => false

def executeCreateAccountAllowPrefund : Except Failure Modified := do
  require (prefundActive context = true)
    "CreateAccountAllowPrefund instruction not available: feature gate not active"
  let arguments ← createArguments "CreateAccountAllowPrefund" context.instructionData
  require (arguments.space ≤ maxAccountDataSize) SystemProgramError.invalidAccountDataLength.toString
  require (context.accounts ≠ []) "CreateAccountAllowPrefund requires at least 1 account"
  let target ← context.account 0
  require (target.writable = true) "CreateAccountAllowPrefund requires writable new account"
  context.requireSigner target.pubkey "CreateAccountAllowPrefund: new account must be a signer"
  require (target.account.data = [] ∧ target.account.owner = systemProgramId)
    SystemProgramError.accountAlreadyInUse.toString
  fundPrefunded context arguments.lamports target.pubkey
    (allocated target.account arguments.owner arguments.space)

def executeAssign : Except Failure Modified := do
  require (context.accounts ≠ []) "Assign requires at least 1 account"
  let owner ← keyArgument "Assign" "owner" context.instructionData
  let entry ← context.account 0
  require (entry.writable = true) "Assign requires writable account"
  require (entry.account.owner = systemProgramId) "Assign can only change owner of system-owned accounts"
  if entry.account.owner = owner then return .empty
  else return Table.empty.insert entry.pubkey { entry.account with owner }

def executeTransfer : Except Failure Modified := do
  require (2 ≤ context.accounts.length) "Transfer requires at least 2 accounts"
  let lamports ← numberArgument "Transfer" "lamports" context.instructionData
  let source ← context.account 0
  let target ← context.account 1
  require (source.writable = true) "Transfer requires writable source account"
  require (target.writable = true) "Transfer requires writable destination account"
  require (lamports ≤ source.account.lamports) SystemProgramError.resultWithNegativeLamports.toString
  if source.pubkey = target.pubkey then return Table.empty.insert source.pubkey source.account
  else
    return (Table.empty.insert source.pubkey (source.account.debit lamports)).insert
      target.pubkey (target.account.credit lamports)

def executeAllocate : Except Failure Modified := do
  require (context.accounts ≠ []) "Allocate requires at least 1 account"
  let space ← numberArgument "Allocate" "space" context.instructionData
  require (space ≤ maxAccountDataSize) SystemProgramError.invalidAccountDataLength.toString
  let entry ← context.account 0
  require (entry.writable = true) "Allocate requires writable account"
  require (entry.account.owner = systemProgramId) "Allocate can only allocate system-owned accounts"
  require (entry.account.data = []) SystemProgramError.accountAlreadyInUse.toString
  return Table.empty.insert entry.pubkey (allocated entry.account entry.account.owner space)

def withNonceState (account : Account) (state : NonceVersionedState) : Account :=
  { account with data := state.serialize }

def executeInitializeNonceAccount : Except Failure Modified := do
  require (context.accounts ≠ []) "InitializeNonceAccount requires at least 1 account"
  let authority ← keyArgument "InitializeNonceAccount" "authority" context.instructionData
  let entry ← context.account 0
  require (entry.writable = true) "Initialize nonce account: account must be writable"
  require (entry.account.owner = systemProgramId) "Nonce account must be owned by system program"
  let data :=
    if entry.account.data.length = nonceAccountSize then entry.account.data
    else .replicate nonceAccountSize 0
  let current ← NonceVersionedState.deserialize data
  require (current.isInitialized = false) "Initialize nonce account: account state is invalid"
  let snapshot ← context.snapshot "Initialize nonce account: sysvar snapshot required"
  require (snapshot.recentBlockhash ≠ .filled 32 0)
    SystemProgramError.nonceNoRecentBlockhashes.toString
  let minBalance := rentExemptMinimum snapshot nonceAccountSize
  require (minBalance ≤ entry.account.lamports)
    ("Initialize nonce account: insufficient lamports " ++ toString entry.account.lamports ++
      ", need " ++ toString minBalance)
  return Table.empty.insert entry.pubkey (withNonceState entry.account
    (.initialized nonceVersionCurrent authority (deriveDurableNonce host snapshot.recentBlockhash)
      snapshot.lamportsPerSignature))

/-- The nonce handlers look for the authority among the accounts of the
instruction, whether it signed or not. -/
def listed (key : Pubkey) : Bool :=
  context.accounts.any fun entry => decide (entry.pubkey = key)

def advancedState : NonceVersionedState → Except Failure NonceVersionedState
  | .initialized _ authority durableNonce _ => do
    require (listed context authority = true)
      "Advance nonce account: authority must be a signer"
    let snapshot ← context.snapshot "Advance nonce account: sysvar snapshot required"
    require (snapshot.recentBlockhash ≠ .filled 32 0)
      SystemProgramError.nonceNoRecentBlockhashes.toString
    let next := deriveDurableNonce host snapshot.recentBlockhash
    require (durableNonce ≠ next) SystemProgramError.nonceBlockhashNotExpired.toString
    return .initialized nonceVersionCurrent authority next snapshot.lamportsPerSignature
  | .uninitialized _ => .error (.error "Advance nonce account: account state is invalid")

def executeAdvanceNonceAccount : Except Failure Modified := do
  require (context.accounts ≠ []) "AdvanceNonceAccount requires at least 1 account"
  let entry ← context.account 0
  require (entry.writable = true) "Advance nonce account: account must be writable"
  let current ← NonceVersionedState.deserialize entry.account.data
  let next ← advancedState host context current
  return Table.empty.insert entry.pubkey (withNonceState entry.account next)

/-- What a withdrawal leaves behind, and who has to be listed for it. -/
def withdrawal (entry : InstructionAccount) (requested : Nat) : NonceVersionedState → Except Failure (Account × Pubkey)
  | .uninitialized _ => do
    require (requested ≤ entry.account.lamports)
      ("Withdraw nonce account: insufficient lamports " ++ toString entry.account.lamports ++
        ", need " ++ toString requested)
    return (entry.account, entry.pubkey)
  | .initialized _ authority durableNonce _ =>
    if requested = entry.account.lamports then do
      let snapshot ← context.snapshot "Withdraw nonce account: sysvar snapshot required"
      require (durableNonce ≠ deriveDurableNonce host snapshot.recentBlockhash)
        SystemProgramError.nonceBlockhashNotExpired.toString
      return (withNonceState entry.account (.uninitialized nonceVersionCurrent), authority)
    else do
      let snapshot ← context.snapshot "Withdraw nonce account: sysvar snapshot required"
      let required := requested + rentExemptMinimum snapshot entry.account.data.length
      require (required ≤ u64Max) "Withdraw nonce account: overflow computing required balance"
      require (required ≤ entry.account.lamports)
        ("Withdraw nonce account: insufficient lamports " ++ toString entry.account.lamports ++
          ", need " ++ toString required)
      return (entry.account, authority)

def executeWithdrawNonceAccount : Except Failure Modified := do
  require (2 ≤ context.accounts.length) "WithdrawNonceAccount requires at least 2 accounts"
  let requested ← numberArgument "WithdrawNonceAccount" "lamports" context.instructionData
  let source ← context.account 0
  let target ← context.account 1
  require (source.writable = true) "Withdraw nonce account: account must be writable"
  let current ← NonceVersionedState.deserialize source.account.data
  let (left, signer) ← withdrawal host context source requested current
  require (listed context signer = true) "Withdraw nonce account: required signer missing"
  return (Table.empty.insert source.pubkey (left.debit requested)).insert
    target.pubkey (target.account.credit requested)

def authorizedState (newAuthority : Pubkey) : NonceVersionedState → Except Failure NonceVersionedState
  | .initialized version authority durableNonce lamportsPerSignature => do
    require (listed context authority = true)
      "Authorize nonce account: authority must sign"
    return .initialized version newAuthority durableNonce lamportsPerSignature
  | .uninitialized _ => .error (.error "Authorize nonce account: account state is invalid")

def executeAuthorizeNonceAccount : Except Failure Modified := do
  require (context.accounts ≠ []) "AuthorizeNonceAccount requires at least 1 account"
  let newAuthority ← keyArgument "AuthorizeNonceAccount" "new authority" context.instructionData
  let entry ← context.account 0
  require (entry.writable = true) "Authorize nonce account: account must be writable"
  let current ← NonceVersionedState.deserialize entry.account.data
  let next ← authorizedState context newAuthority current
  return Table.empty.insert entry.pubkey (withNonceState entry.account next)

def upgradedState : NonceVersionedState → Except Failure NonceVersionedState
  | .initialized version authority durableNonce lamportsPerSignature => do
    require (version = nonceVersionLegacy) "Upgrade nonce account: not a legacy account"
    return .initialized nonceVersionCurrent authority (deriveDurableNonce host durableNonce)
      lamportsPerSignature
  | .uninitialized _ => .error (.error "Upgrade nonce account: account state is invalid")

def executeUpgradeNonceAccount : Except Failure Modified := do
  require (context.accounts ≠ []) "UpgradeNonceAccount requires at least 1 account"
  let entry ← context.account 0
  require (entry.account.owner = systemProgramId) "Upgrade nonce account: invalid account owner"
  require (entry.writable = true) "Upgrade nonce account: account must be writable"
  let current ← NonceVersionedState.deserialize entry.account.data
  let next ← upgradedState host current
  return Table.empty.insert entry.pubkey (withNonceState entry.account next)

/-- The address has to be the one derived from the arguments. -/
def requireDerived (arguments : SeedArguments) (key : Pubkey) : Except Failure Unit :=
  match Pubkey.createWithSeed host.sha256 arguments.base arguments.seed arguments.owner with
  | .ok derived => require (key = derived) SystemProgramError.addressWithSeedMismatch.toString
  | .error reason => .error (.error ("Failed to derive address: " ++ reason.debug))

def executeCreateAccountWithSeed : Except Failure Modified := do
  require (2 ≤ context.accounts.length) "CreateAccountWithSeed requires at least 2 accounts"
  let arguments ← createAccountWithSeedArguments context.instructionData
  let target ← context.account 1
  requireDerived host arguments target.pubkey
  let source ← context.account 0
  require (target.account.data = [] ∧ target.account.lamports = 0)
    SystemProgramError.accountAlreadyInUse.toString
  require (arguments.space ≤ maxAccountDataSize) SystemProgramError.invalidAccountDataLength.toString
  require (arguments.lamports ≤ source.account.lamports)
    SystemProgramError.resultWithNegativeLamports.toString
  let created := { target.account.setLamports arguments.lamports with
    owner := arguments.owner
    data := resizeBytes target.account.data arguments.space }
  return (Table.empty.insert source.pubkey (source.account.debit arguments.lamports)).insert
    target.pubkey created

def executeAllocateWithSeed : Except Failure Modified := do
  require (context.accounts ≠ []) "AllocateWithSeed requires at least 1 account"
  let arguments ← allocateWithSeedArguments context.instructionData
  let entry ← context.account 0
  requireDerived host arguments entry.pubkey
  require (entry.account.data = [] ∧ entry.account.lamports = 0)
    SystemProgramError.accountAlreadyInUse.toString
  require (arguments.space ≤ maxAccountDataSize) SystemProgramError.invalidAccountDataLength.toString
  return Table.empty.insert entry.pubkey
    { entry.account with data := resizeBytes entry.account.data arguments.space }

def executeAssignWithSeed : Except Failure Modified := do
  require (context.accounts ≠ []) "AssignWithSeed requires at least 1 account"
  let arguments ← assignWithSeedArguments context.instructionData
  let entry ← context.account 0
  requireDerived host arguments entry.pubkey
  return Table.empty.insert entry.pubkey { entry.account with owner := arguments.owner }

def executeTransferWithSeed : Except Failure Modified := do
  require (2 ≤ context.accounts.length) "TransferWithSeed requires at least 2 accounts"
  let arguments ← transferWithSeedArguments context.instructionData
  let source ← context.account 0
  let target ← context.account 1
  require (source.account.owner = arguments.fromOwner) "From account owner mismatch"
  require (arguments.lamports ≤ source.account.lamports)
    SystemProgramError.resultWithNegativeLamports.toString
  if source.pubkey = target.pubkey then return Table.empty.insert source.pubkey source.account
  else do
    -- A plain `+=`: the sum may leave the 64 bits.
    let received ← host.fit (target.account.lamports + arguments.lamports)
    return (Table.empty.insert source.pubkey (source.account.debit arguments.lamports)).insert
      target.pubkey (target.account.setLamports received)

def instructionOf (data : List UInt8) : Option Instruction :=
  Instruction.ofDiscriminant (leValue (data.extract 0 4))

def dispatch : Instruction → Except Failure Modified
  | .createAccount => executeCreateAccount context
  | .assign => executeAssign context
  | .transfer => executeTransfer context
  | .allocate => executeAllocate context
  | .initializeNonceAccount => executeInitializeNonceAccount host context
  | .advanceNonceAccount => executeAdvanceNonceAccount host context
  | .withdrawNonceAccount => executeWithdrawNonceAccount host context
  | .authorizeNonceAccount => executeAuthorizeNonceAccount context
  | .createAccountWithSeed => executeCreateAccountWithSeed host context
  | .allocateWithSeed => executeAllocateWithSeed host context
  | .assignWithSeed => executeAssignWithSeed host context
  | .transferWithSeed => executeTransferWithSeed host context
  | .upgradeNonceAccount => executeUpgradeNonceAccount host context
  | .createAccountAllowPrefund => executeCreateAccountAllowPrefund context

def execute : Except Failure ExecutionOutcome :=
  if context.instructionData = [] then
    .ok { success := true, computeUnitsConsumed := computeCostBase, modifiedAccounts := .empty }
  else if context.instructionData.length < 4 then .error (.error "Instruction data too short")
  else
    match instructionOf context.instructionData with
    | some instruction => do
      let modifiedAccounts ← dispatch host context instruction
      return { success := true, computeUnitsConsumed := computeCostBase, modifiedAccounts }
    | none => .error (.error "Unknown instruction type")

theorem execute_ok {host : Host} {context : ExecutionContext}
    (ran : execute host context = .ok outcome) : context.instructionData = [] ∧ outcome.modifiedAccounts = .empty ∨
      ∃ instruction, instructionOf context.instructionData = some instruction ∧
        dispatch host context instruction = .ok outcome.modifiedAccounts := by
  unfold execute at ran
  split at ran
  · cases ran
    exact .inl ⟨by assumption, rfl⟩
  split at ran
  · cases ran
  split at ran
  · rename_i instruction found
    simp only [bind_eq_ok, pure_eq_ok] at ran
    obtain ⟨modified, dispatched, built⟩ := ran
    rw [← built]
    exact .inr ⟨instruction, found, dispatched⟩
  · cases ran

end SystemProgram

end Karstflow.Sbpf
