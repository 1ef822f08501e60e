import Karstflow.Runtime.Bank
import Karstflow.Types.LoaderState

namespace Karstflow.Runtime

open Data Karstflow.Types Sbpf List Option

/-! Builtins that become programs of the upgradeable loader, and programs of
it whose code is replaced: the accounts that a migration or an upgrade writes,
and the lamports that it burns and mints. -/

/-- What stands at the address of a program before its migration. -/
inductive MigrationTarget where
  | builtin
  | stateless
deriving DecidableEq

structure CoreBpfMigration where
  featureId : Pubkey
  programId : Pubkey
  sourceBuffer : Pubkey
  upgradeAuthority : Option Pubkey
  target : MigrationTarget
  verifiedBuildHash : Option Hash
deriving DecidableEq

inductive MigrationError where
  | programAccountNotFound
  | incorrectProgramOwner
  | programAccountAlreadyExists
  | programHasDataAccount
  | sourceBufferNotFound
  | incorrectBufferOwner
  | invalidBufferAccount
  | buildHashMismatch
  | upgradeAuthorityMismatch
  | programAccountNotExecutable
  | invalidProgramAccount
  | programDataAccountNotFound
  | invalidProgramDataAccount
  | invalidBytecode
  | noElfValidator
deriving Repr, DecidableEq

/-- The accounts to write, in order, and the lamports in and out. -/
structure MigrationOutcome where
  writes : List (Pubkey × Account)
  lamportsBurned : Nat
  lamportsFunded : Nat

def slashingProgramBuildHash : Hash :=
  ⟨[0x92, 0x60, 0xb9, 0xac, 0x8d, 0xfa, 0x1a, 0x6e, 0xd1, 0x02, 0x23, 0x80, 0xa7, 0x13, 0xbe, 0xc7,
    0xb7, 0x59, 0x79, 0xae, 0x13, 0x6e, 0x91, 0xf9, 0xa8, 0x67, 0x95, 0xb5, 0x1c, 0x6c, 0x48, 0x9f], rfl⟩

def configuredMigrations : List CoreBpfMigration :=
  [{ featureId := migrateFeatureGateProgramToCoreBpfFeature
     programId := featureProgramId
     sourceBuffer := featureProgramBufferAddress
     upgradeAuthority := none
     target := .stateless
     verifiedBuildHash := none },
   { featureId := enshrineSlashingProgramFeature
     programId := slashingProgramId
     sourceBuffer := slashingProgramBufferAddress
     upgradeAuthority := none
     target := .stateless
     verifiedBuildHash := some slashingProgramBuildHash }]

inductive UpgradeKind where
  | coreBpf
  | loaderV2ToV3
deriving DecidableEq

structure ConfiguredUpgrade where
  featureId : Pubkey
  programId : Pubkey
  sourceBuffer : Pubkey
  kind : UpgradeKind
deriving DecidableEq

def configuredUpgrades : List ConfiguredUpgrade :=
  [{ featureId := voteStateV4Feature
     programId := stakeProgramId
     sourceBuffer := stakeProgramVoteStateV4BufferAddress
     kind := .coreBpf },
   { featureId := replaceSplTokenWithPTokenFeature
     programId := tokenProgramId
     sourceBuffer := ptokenProgramBufferAddress
     kind := .loaderV2ToV3 },
   { featureId := upgradeBpfStakeProgramToV5Feature
     programId := stakeProgramId
     sourceBuffer := stakeProgramV5BufferAddress
     kind := .coreBpf },
   { featureId := upgradeBpfStakeProgramToV51Feature
     programId := stakeProgramId
     sourceBuffer := stakeProgramV51BufferAddress
     kind := .coreBpf }]

section

variable (read : Pubkey → Option Account)

def programLamports (target : MigrationTarget) (programId : Pubkey) : Except MigrationError Nat :=
  match target with
  | .builtin => do
    let account ← orMissing .programAccountNotFound (read programId)
    demand (account.owner = nativeLoaderProgramId) .incorrectProgramOwner
    return account.lamports
  | .stateless => do
    demand (read programId = none) .programAccountAlreadyExists
    return 0

/-- The lamports at an address that has to be free, or at most funded in
advance where that is allowed. -/
def carriedLamports (allowPrefunded : Bool) (programdataId : Pubkey) : Except MigrationError Nat :=
  match read programdataId with
  | none => .ok 0
  | some existing => do
    demand (allowPrefunded = true ∧ existing.owner = systemProgramId) .programHasDataAccount
    return existing.lamports

/-- The code inside a source buffer. A pinned build hash is taken without the
zeros behind the code. -/
def validatedBufferElf (sha256 : List UInt8 → Hash) (source : Account) (verifiedBuildHash : Option Hash) :
    Except MigrationError (List UInt8) := do
  demand (source.owner = bpfLoaderProgramId) .incorrectBufferOwner
  demand (UpgradeableLoaderState.sizeOfBufferMetadata ≤ source.data.length) .invalidBufferAccount
  demand (leValue (source.data.extract 0 4) = UpgradeableLoaderState.stateBuffer) .invalidBufferAccount
  let elf := source.data.drop UpgradeableLoaderState.sizeOfBufferMetadata
  demand (∀ expected ∈ verifiedBuildHash, sha256 (elf.rdropWhile fun byte => byte = 0) = expected)
    .buildHashMismatch
  return elf

/-- The buffer names the authority that is expected, if one is. -/
def checkBufferAuthority (source : Account) (expected : Option Pubkey) (unreadable : MigrationError) :
    Except MigrationError Unit :=
  match expected with
  | none => .ok ()
  | some authority =>
    match UpgradeableLoaderState.deserialize source.data with
    | .error _ => .error unreadable
    | .ok state => demand (state = .buffer (some authority)) .upgradeAuthorityMismatch

/-- The deploy checks; without a validator they fail. -/
def checkDeployable (validator : Option (List UInt8 → Bool)) (elf : List UInt8) : Except MigrationError Unit :=
  match validator with
  | some validate => demand (validate elf = true) .invalidBytecode
  | none => .error .noElfValidator

def loaderOwned (data : List UInt8) (lamports : Nat) (executable : Bool) : Account :=
  { Account.zeroed with owner := bpfLoaderProgramId, executable, rentEpoch := u64Max, data }.setLamports lamports

def buildProgram (programdataId : Pubkey) (rent : Rent) : Account :=
  loaderOwned (UpgradeableLoaderState.program programdataId).serialize
    (rent.minimumBalance UpgradeableLoaderState.sizeOfProgram) true

/-- A programdata account that holds `elf`, deployed at `slot`. -/
def buildProgramdata (elf : List UInt8) (slot : Nat) (upgradeAuthority : Option Pubkey) (rent : Rent) : Account :=
  let bytes := (UpgradeableLoaderState.programData slot upgradeAuthority).serialize ++ elf
  loaderOwned bytes (rent.minimumBalance bytes.length) false

variable (sha256 : List UInt8 → Hash) (programdataAddress : Pubkey → Pubkey) (slot : Nat) (rent : Rent)

/-- Turn a builtin into a program of the upgradeable loader. -/
def migrate (relaxProgramdataCheck : Bool) (config : CoreBpfMigration) :
    Except MigrationError MigrationOutcome := do
  let program ← programLamports read config.target config.programId
  let programdataId := programdataAddress config.programId
  let carried ← carriedLamports read relaxProgramdataCheck programdataId
  let source ← orMissing .sourceBufferNotFound (read config.sourceBuffer)
  let elf ← validatedBufferElf sha256 source config.verifiedBuildHash
  checkBufferAuthority source config.upgradeAuthority .invalidBufferAccount
  let newProgram := buildProgram programdataId rent
  let newProgramdata := buildProgramdata elf slot config.upgradeAuthority rent
  return {
    writes := [(config.programId, newProgram), (programdataId, newProgramdata),
      (config.sourceBuffer, .zeroed)]
    lamportsBurned := satAdd (satAdd program source.lamports) carried
    lamportsFunded := satAdd newProgram.lamports newProgramdata.lamports }

/-- The program account points at the address derived from its own. -/
def checkProgramPointer (program : Account) (programdataId : Pubkey) : Except MigrationError Unit :=
  match UpgradeableLoaderState.deserialize program.data with
  | .ok (.program pointer) => demand (pointer = programdataId) .invalidProgramAccount
  | _ => .error .invalidProgramAccount

def programdataAuthority (programdata : Account) : Except MigrationError (Option Pubkey) :=
  match UpgradeableLoaderState.deserialize programdata.data with
  | .ok (.programData _ upgradeAuthority) => .ok upgradeAuthority
  | _ => .error .invalidProgramDataAccount

/-- The programdata account of a well-formed deployment, and its authority. -/
def coreBpfTarget (programId : Pubkey) : Except MigrationError (Account × Option Pubkey) := do
  let program ← orMissing .programAccountNotFound (read programId)
  demand (program.owner = bpfLoaderProgramId) .incorrectProgramOwner
  demand (program.executable = true) .programAccountNotExecutable
  checkProgramPointer program (programdataAddress programId)
  let programdata ← orMissing .programDataAccountNotFound (read (programdataAddress programId))
  demand (programdata.owner = bpfLoaderProgramId) .invalidProgramDataAccount
  let upgradeAuthority ← programdataAuthority programdata
  return (programdata, upgradeAuthority)

def upgradeCoreBpfProgram (validator : Option (List UInt8 → Bool)) (programId sourceBuffer : Pubkey) :
    Except MigrationError MigrationOutcome := do
  let (programdata, upgradeAuthority) ← coreBpfTarget read programdataAddress programId
  let source ← orMissing .sourceBufferNotFound (read sourceBuffer)
  let elf ← validatedBufferElf sha256 source none
  checkBufferAuthority source upgradeAuthority .upgradeAuthorityMismatch
  checkDeployable validator elf
  let newProgramdata := buildProgramdata elf slot upgradeAuthority rent
  return {
    writes := [(programdataAddress programId, newProgramdata), (sourceBuffer, .zeroed)]
    lamportsBurned := satAdd programdata.lamports source.lamports
    lamportsFunded := newProgramdata.lamports }

/-- The lamports of a program in the older layout, and those that wait at the
address of its data. -/
def loaderV2Target (allowPrefunded : Bool) (programId : Pubkey) : Except MigrationError (Nat × Nat) := do
  let program ← orMissing .programAccountNotFound (read programId)
  demand (program.owner = bpfLoaderV2ProgramId) .incorrectProgramOwner
  demand (program.executable = true) .programAccountNotExecutable
  let carried ← carriedLamports read allowPrefunded (programdataAddress programId)
  return (program.lamports, carried)

/-- Turn a program of the older loader into the two accounts of the new one. -/
def upgradeLoaderV2WithLoaderV3 (allowPrefunded : Bool) (validator : Option (List UInt8 → Bool))
    (programId sourceBuffer : Pubkey) : Except MigrationError MigrationOutcome := do
  let (program, carried) ← loaderV2Target read programdataAddress allowPrefunded programId
  let source ← orMissing .sourceBufferNotFound (read sourceBuffer)
  let elf ← validatedBufferElf sha256 source none
  checkDeployable validator elf
  let newProgram := buildProgram (programdataAddress programId) rent
  let newProgramdata := buildProgramdata elf slot none rent
  return {
    writes := [(programId, newProgram), (programdataAddress programId, newProgramdata),
      (sourceBuffer, .zeroed)]
    lamportsBurned := satAdd (satAdd program source.lamports) carried
    lamportsFunded := satAdd newProgram.lamports newProgramdata.lamports }

def applyUpgrade (allowPrefunded : Bool) (validator : Option (List UInt8 → Bool)) (config : ConfiguredUpgrade) :
    Except MigrationError MigrationOutcome :=
  match config.kind with
  | .coreBpf =>
    upgradeCoreBpfProgram read sha256 programdataAddress slot rent validator config.programId config.sourceBuffer
  | .loaderV2ToV3 =>
    upgradeLoaderV2WithLoaderV3 read sha256 programdataAddress slot rent allowPrefunded validator
      config.programId config.sourceBuffer

end

/-- The outcome writes each account once, and names the lamports that the
accounts held and will hold, as far as they fit. -/
structure MigrationOutcome.Accounted (outcome : MigrationOutcome) (read : Pubkey → Option Account) : Prop where
  distinct : outcome.writes.Pairwise fun left right => left.1 ≠ right.1
  burned : outcome.lamportsBurned =
    min (outcome.writes.map fun write => (read write.1).elim 0 Account.lamports).sum u64Max
  funded : outcome.lamportsFunded = min (outcome.writes.map fun write => write.2.lamports).sum u64Max

section

variable {read : Pubkey → Option Account}

theorem ne_of_owner (found : read key = some account)
    (owned : ∀ account, read other = some account → account.owner = owner) (different : account.owner ≠ owner) :
    other ≠ key := by
  intro same
  rw [← same] at found
  exact different (owned account found)

theorem programLamports_eq_ok
    (ran : programLamports read target key = .ok lamports) : (read key).elim 0 Account.lamports = lamports ∧
      ∀ account, read key = some account → account.owner = nativeLoaderProgramId := by
  cases target with
  | builtin =>
    simp only [programLamports, bind_eq_ok, demand_eq_ok, orMissing_eq_ok, exists_const, pure_eq_ok] at ran
    obtain ⟨account, found, owned, same⟩ := ran
    rw [found]
    exact ⟨same, fun other there => some.inj there ▸ owned⟩
  | stateless =>
    simp only [programLamports, bind_eq_ok, demand_eq_ok, exists_const, pure_eq_ok] at ran
    obtain ⟨absent, same⟩ := ran
    rw [absent]
    refine ⟨same, ?_⟩
    intro account there
    cases there

theorem carriedLamports_eq_ok (ran : carriedLamports read allowPrefunded key = .ok lamports) :
    (read key).elim 0 Account.lamports = lamports ∧
      ∀ account, read key = some account → account.owner = systemProgramId := by
  cases found : read key with
  | none =>
    simp only [carriedLamports, found, Except.ok.injEq] at ran
    refine ⟨ran, ?_⟩
    intro account there
    cases there
  | some existing =>
    simp only [carriedLamports, found, bind_eq_ok, demand_eq_ok, exists_const, pure_eq_ok] at ran
    obtain ⟨⟨-, owned⟩, same⟩ := ran
    exact ⟨same, fun other there => some.inj there ▸ owned⟩

theorem validatedBufferElf_eq_ok
    (ran : validatedBufferElf sha256 source verifiedBuildHash = .ok elf) : source.owner = bpfLoaderProgramId ∧
      leValue (source.data.extract 0 4) = UpgradeableLoaderState.stateBuffer := by
  simp only [validatedBufferElf, bind_eq_ok, demand_eq_ok, exists_const] at ran
  obtain ⟨owned, -, tagged, -⟩ := ran
  exact ⟨owned, tagged⟩

theorem programdataAuthority_tag (ran : programdataAuthority programdata = .ok authority) :
    leValue (programdata.data.extract 0 4) = UpgradeableLoaderState.stateProgramData := by
  by_contra other
  simp only [programdataAuthority, UpgradeableLoaderState.deserialize, other, if_false] at ran
  split at ran
  · rename_i slot authority read
    split at read
    · cases read
    split at read
    · cases decoded : UpgradeableLoaderState.readAuthority programdata.data 4 "Buffer state data too short"
        "Buffer authority data too short" with
      | error reason | ok buffer =>
        rw [decoded] at read
        cases read
    · split at read
      · split at read
        · cases read
        · cases read
      · cases read
  · cases ran

theorem migrate_accounted (apart : programdataAddress config.programId ≠ config.programId)
    (ran : migrate read sha256 programdataAddress slot rent relaxed config = .ok outcome) : outcome.Accounted read := by
  simp only [migrate, bind_eq_ok, orMissing_eq_ok, pure_eq_ok] at ran
  obtain ⟨program, programRead, carried, carriedRead, source, sourceRead, elf, valid, _, -, same⟩ := ran
  obtain ⟨programHeld, programOwned⟩ := programLamports_eq_ok programRead
  obtain ⟨carriedHeld, carriedOwned⟩ := carriedLamports_eq_ok carriedRead
  obtain ⟨sourceOwned, -⟩ := validatedBufferElf_eq_ok valid
  have programOther := ne_of_owner sourceRead programOwned (by rw [sourceOwned]; decide)
  have carriedOther := ne_of_owner sourceRead carriedOwned (by rw [sourceOwned]; decide)
  subst same
  constructor
  · simp [apart.symm, programOther, carriedOther]
  · simp only [map_cons, map_nil, sum_cons, sum_nil, programHeld, carriedHeld, sourceRead, elim_some, satAdd]
    omega
  · simp only [map_cons, map_nil, sum_cons, sum_nil, satAdd, Account.zeroed, add_zero]

theorem upgradeCoreBpfProgram_accounted
    (ran : upgradeCoreBpfProgram read sha256 programdataAddress slot rent validator programId sourceBuffer =
      .ok outcome) : outcome.Accounted read := by
  simp only [upgradeCoreBpfProgram, coreBpfTarget, bind_eq_ok, orMissing_eq_ok, demand_eq_ok, exists_const, pure_eq_ok] at ran
  obtain ⟨_, ⟨_, -, -, -, _, -, programdata, dataRead, -, authority, authorityRead, rfl⟩, source, sourceRead, elf,
    valid, _, -, _, -, same⟩ := ran
  obtain ⟨-, tagged⟩ := validatedBufferElf_eq_ok valid
  have dataTagged := programdataAuthority_tag authorityRead
  -- the two accounts are in different states of the loader
  have apart : programdataAddress programId ≠ sourceBuffer := by
    intro same
    rw [same, sourceRead] at dataRead
    rw [← some.inj dataRead, tagged] at dataTagged
    exact absurd dataTagged (by decide)
  subst same
  constructor
  · simp [apart]
  · simp only [map_cons, map_nil, sum_cons, sum_nil, dataRead, sourceRead, elim_some, satAdd, add_zero]
  · have bounded := (buildProgramdata elf slot authority rent).lamports_le
    simp only [map_cons, map_nil, sum_cons, sum_nil, Account.zeroed, add_zero]
    omega

theorem upgradeLoaderV2WithLoaderV3_accounted
    (ran : upgradeLoaderV2WithLoaderV3 read sha256 programdataAddress slot rent allowPrefunded validator programId
      sourceBuffer = .ok outcome) : outcome.Accounted read := by
  simp only [upgradeLoaderV2WithLoaderV3, loaderV2Target, bind_eq_ok, orMissing_eq_ok, demand_eq_ok, exists_const, pure_eq_ok] at ran
  obtain ⟨_, ⟨program, programRead, programOwned, -, carried, carriedRead, rfl⟩, source, sourceRead, elf, valid, _,
    -, same⟩ := ran
  obtain ⟨carriedHeld, carriedOwned⟩ := carriedLamports_eq_ok carriedRead
  obtain ⟨sourceOwned, -⟩ := validatedBufferElf_eq_ok valid
  have apart := ne_of_owner programRead carriedOwned (by rw [programOwned]; decide)
  have carriedOther := ne_of_owner sourceRead carriedOwned (by rw [sourceOwned]; decide)
  have programOther := ne_of_owner sourceRead (fun other found => some.inj (programRead.symm.trans found) ▸ programOwned)
    (by rw [sourceOwned]; decide)
  subst same
  constructor
  · simp [apart.symm, programOther, carriedOther]
  · simp only [map_cons, map_nil, sum_cons, sum_nil, programRead, carriedHeld, sourceRead, elim_some, satAdd]
    omega
  · simp only [map_cons, map_nil, sum_cons, sum_nil, satAdd, Account.zeroed, add_zero]

theorem applyUpgrade_accounted
    (ran : applyUpgrade read sha256 programdataAddress slot rent allowPrefunded validator config = .ok outcome) :
    outcome.Accounted read := by
  cases kind : config.kind with
  | coreBpf =>
    simp only [applyUpgrade, kind] at ran
    exact upgradeCoreBpfProgram_accounted ran
  | loaderV2ToV3 =>
    simp only [applyUpgrade, kind] at ran
    exact upgradeLoaderV2WithLoaderV3_accounted ran

end

end Karstflow.Runtime
