import Karstflow.Sbpf.Execution
import Karstflow.Sbpf.VoteAccount

namespace Karstflow.Sbpf

open Data Karstflow.Types
open Consensus (Lockout maxLockoutHistory)

/-! The vote program: one handler for each kind of instruction. -/

def voteProgramId : Pubkey :=
  ⟨[7, 97, 72, 29, 53, 116, 116, 187, 124, 77, 118, 36, 235, 211, 189, 179, 216, 53, 94, 115, 209, 16, 67,
    252, 13, 163, 83, 128, 0, 0, 0, 0], rfl⟩

def delayCommissionUpdatesFeature : Pubkey :=
  ⟨[0x5a, 0x97, 0x0f, 0x6d, 0x79, 0x4d, 0x43, 0xf5, 0x93, 0x88, 0x4b, 0xb9, 0xe2, 0xf1, 0x18, 0x5f,
    0xa3, 0x02, 0x70, 0xbe, 0x4c, 0xce, 0x7e, 0x21, 0x52, 0xc1, 0xb0, 0xad, 0x2f, 0xf6, 0xcc, 0xd0], rfl⟩

/-- The text that `{:?}` prints. -/
def VoteError.debug : VoteError → String
  | .voteBelowRoot slot root =>
    "VoteBelowRoot \x7b slot: " ++ toString slot ++ ", root: " ++ toString root ++ " \x7d"
  | .voteNotSequential voteSlot lastVoteSlot =>
    "VoteNotSequential \x7b vote_slot: " ++ toString voteSlot ++ ", last_vote_slot: " ++
      toString lastVoteSlot ++ " \x7d"
  | .tooManyVotes => "TooManyVotes"
  | .emptySlots => "EmptySlots"
  | .rootRollBack => "RootRollBack"
  | .zeroConfirmations => "ZeroConfirmations"
  | .confirmationTooLarge => "ConfirmationTooLarge"
  | .slotSmallerThanRoot => "SlotSmallerThanRoot"
  | .slotsNotOrdered => "SlotsNotOrdered"
  | .confirmationsNotOrdered => "ConfirmationsNotOrdered"
  | .lockoutMismatch => "LockoutMismatch"
  | .lockoutConflict => "LockoutConflict"
  | .confirmationRollBack => "ConfirmationRollBack"

namespace VoteProgram

variable (host : Host) (context : ExecutionContext)

def defaultComputeUnits : Nat := 2100

def computeCostPop : Nat := 34500

def voteInitV2Len : Nat := 312

inductive Instruction where
  | initializeAccount
  | authorize
  | vote
  | withdraw
  | updateValidatorIdentity
  | updateCommission
  | voteSwitch
  | authorizeChecked
  | updateVoteState
  | updateVoteStateSwitch
  | compactUpdateVoteState
  | compactUpdateVoteStateSwitch
  | towerSync
  | towerSyncSwitch
  | authorizeWithSeed
  | authorizeCheckedWithSeed
  | initializeAccountV2
  | updateCommissionCollector
  | updateCommissionBps
  | depositDelegatorRewards
deriving Repr, DecidableEq

def Instruction.ofDiscriminant : Nat → Option Instruction
  | 0 => some .initializeAccount
  | 1 => some .authorize
  | 2 => some .vote
  | 3 => some .withdraw
  | 4 => some .updateValidatorIdentity
  | 5 => some .updateCommission
  | 6 => some .voteSwitch
  | 7 => some .authorizeChecked
  | 8 => some .updateVoteState
  | 9 => some .updateVoteStateSwitch
  | 10 => some .compactUpdateVoteState
  | 11 => some .compactUpdateVoteStateSwitch
  | 12 => some .towerSync
  | 13 => some .towerSyncSwitch
  | 14 => some .authorizeWithSeed
  | 15 => some .authorizeCheckedWithSeed
  | 16 => some .initializeAccountV2
  | 17 => some .updateCommissionCollector
  | 18 => some .updateCommissionBps
  | 19 => some .depositDelegatorRewards
  | _ => none

def isCommissionUpdateAllowed (slot firstNormalSlot slotsPerEpoch : Nat) : Bool :=
  if slotsPerEpoch = 0 then true
  else
    let relativeSlot := (slot - firstNormalSlot) % slotsPerEpoch
    min (relativeSlot * 2) u64Max ≤ slotsPerEpoch

def readPubkey (data : List UInt8) (offset : Nat) : Except Failure Pubkey := do
  require (offset + 32 ≤ data.length) "Data too short for pubkey"
  parsePubkey "pubkey" (data.extract offset (offset + 32))

def readU32 (data : List UInt8) (offset : Nat) : Except Failure Nat := do
  require (offset + 4 ≤ data.length) "Data too short for u32"
  return leValue (data.extract offset (offset + 4))

def readU64 (data : List UInt8) (offset : Nat) : Except Failure Nat := do
  require (offset + 8 ≤ data.length) "Data too short for u64"
  return leValue (data.extract offset (offset + 8))

def readOctets (size : Nat) (message : String) (bytes : List UInt8) : Except Failure (Octets size) :=
  match Octets.ofBytes size bytes with
  | some array => .ok array
  | none => .error (.error message)

def byteAt (data : List UInt8) (offset : Nat) : Except Failure UInt8 :=
  match data[offset]? with
  | some byte => .ok byte
  | none => .error .panic

def parseOptionalSlot (data : List UInt8) (offset : Nat) : Except Failure (Option Nat × Nat) := do
  require (offset < data.length) "Data too short for optional slot tag"
  let tag ← byteAt data offset
  if tag = 1 then do
    let slot ← readU64 data (offset + 1)
    return (some slot, offset + 9)
  else return (none, offset + 1)

def deserializeVoteState (data : List UInt8) : Except Failure VoteAccount :=
  match VoteAccount.deserialize data with
  | some state => .ok state
  | none => .error (.error "Failed to deserialize vote state: InvalidAccountData")

/-- The vote state of an account that the instruction may write. -/
def loadVoteState (entry : InstructionAccount) : Except Failure VoteAccount := do
  require (entry.writable = true) "Vote account must be writable"
  deserializeVoteState entry.account.data

def storeVoteState (entry : InstructionAccount) (state : VoteAccount) : Modified :=
  Table.empty.insert entry.pubkey { entry.account with data := state.serialize }

structure InitializeArguments where
  nodePubkey : Pubkey
  authorizedVoter : Pubkey
  authorizedWithdrawer : Pubkey
  commission : UInt8

def initializeArguments (data : List UInt8) : Except Failure InitializeArguments := do
  require (101 ≤ data.length) "InitializeAccount instruction data too short"
  let nodePubkey ← readPubkey data 4
  let authorizedVoter ← readPubkey data 36
  let authorizedWithdrawer ← readPubkey data 68
  let commission ← byteAt data 100
  return { nodePubkey, authorizedVoter, authorizedWithdrawer, commission }

def InitializeArguments.state (arguments : InitializeArguments) : VoteAccount :=
  .new arguments.nodePubkey arguments.authorizedVoter arguments.authorizedWithdrawer
    arguments.commission

def executeInitialize : Except Failure Modified := do
  require (context.accounts ≠ []) "InitializeAccount requires at least 1 account"
  let arguments ← initializeArguments context.instructionData
  let entry ← context.account 0
  require (entry.writable = true) "Vote account must be writable"
  require (entry.account.owner = voteProgramId) "Vote account not owned by vote program"
  return storeVoteState entry arguments.state

structure InitializeV2Arguments extends InitializeArguments where
  blsPubkey : Octets 48
  blsProof : Octets 96

def initializeV2Arguments (data : List UInt8) : Except Failure InitializeV2Arguments := do
  require (voteInitV2Len ≤ data.length) "InitializeAccountV2 instruction data too short"
  let nodePubkey ← readPubkey data 4
  let authorizedVoter ← readPubkey data 36
  let blsPubkey ← readOctets 48 "Failed to read BLS pubkey" (data.extract 68 116)
  let blsProof ← readOctets 96 "Failed to read BLS proof of possession" (data.extract 116 212)
  let authorizedWithdrawer ← readPubkey data 212
  -- Basis points become the stored percentage, cut at the byte.
  let commission := .ofNat (min (leValue (data.extract 244 246) / 100) u8Max)
  return { nodePubkey, authorizedVoter, authorizedWithdrawer, commission, blsPubkey, blsProof }

def InitializeV2Arguments.state (arguments : InitializeV2Arguments) : VoteAccount :=
  { arguments.toInitializeArguments.state with blsPubkey := some arguments.blsPubkey }

def executeInitializeV2 : Except Failure Modified := do
  require (context.accounts ≠ []) "InitializeAccountV2 requires at least 1 account"
  let arguments ← initializeV2Arguments context.instructionData
  let entry ← context.account 0
  require (entry.writable = true) "Vote account must be writable"
  require (entry.account.owner = voteProgramId) "Vote account not owned by vote program"
  context.requireSigner arguments.nodePubkey "InitializeAccountV2 requires the node identity to sign"
  require (host.verifyVoteBlsPop entry.pubkey arguments.blsPubkey arguments.blsProof = true)
    "BLS proof of possession verification failed"
  return storeVoteState entry arguments.state

/-- The state under a new authority; the type is zero for the voter and one for
the withdrawer. -/
def authorizeTo (state : VoteAccount) (authorizeType : Nat) (newAuthority : Pubkey) :
    Except Failure VoteAccount :=
  if authorizeType = 0 then .ok { state with authorizedVoter := newAuthority }
  else if authorizeType = 1 then .ok { state with authorizedWithdrawer := newAuthority }
  else .error (.error ("Invalid authorize type: " ++ toString authorizeType))

/-- What the four authorize handlers do with the vote account. -/
def storeAuthority (entry : InstructionAccount) (authorizeType : Nat) (newAuthority : Pubkey) :
    Except Failure Modified := do
  let state ← loadVoteState entry
  let next ← authorizeTo state authorizeType newAuthority
  return storeVoteState entry next

/-- The type and the new authority of the forms that carry the key. -/
def authorizeArguments (data : List UInt8) : Except Failure (Nat × Pubkey) := do
  require (40 ≤ data.length) "Authorize instruction data too short"
  let newAuthority ← readPubkey data 4
  let authorizeType ← readU32 data 36
  return (authorizeType, newAuthority)

def authorizeWithSeedArguments (data : List UInt8) : Except Failure (Nat × Pubkey) := do
  require (40 ≤ data.length) "AuthorizeWithSeed instruction data too short"
  let authorizeType ← readU32 data 4
  let newAuthority ← readPubkey data 8
  return (authorizeType, newAuthority)

/-- The type in the forms that name the new authority as the fourth account. -/
def checkedArguments (name : String) (context : ExecutionContext) : Except Failure (Nat × Pubkey) := do
  require (4 ≤ context.accounts.length) (name ++ " requires at least 4 accounts")
  require (8 ≤ context.instructionData.length) (name ++ " instruction data too short")
  let authorizeType ← readU32 context.instructionData 4
  let newAuthority ← context.account 3
  return (authorizeType, newAuthority.pubkey)

def executeAuthorize : Except Failure Modified := do
  require (context.accounts ≠ []) "Authorize requires at least 1 account"
  let arguments ← authorizeArguments context.instructionData
  let entry ← context.account 0
  storeAuthority entry arguments.1 arguments.2

def executeAuthorizeChecked : Except Failure Modified := do
  let arguments ← checkedArguments "AuthorizeChecked" context
  let entry ← context.account 0
  storeAuthority entry arguments.1 arguments.2

def executeAuthorizeWithSeed : Except Failure Modified := do
  require (2 ≤ context.accounts.length) "AuthorizeWithSeed requires at least 2 accounts"
  let arguments ← authorizeWithSeedArguments context.instructionData
  let entry ← context.account 0
  storeAuthority entry arguments.1 arguments.2

def executeAuthorizeCheckedWithSeed : Except Failure Modified := do
  let arguments ← checkedArguments "AuthorizeCheckedWithSeed" context
  let entry ← context.account 0
  storeAuthority entry arguments.1 arguments.2

def voteStep (data : List UInt8) (state : VoteAccount) (index : Nat) : Except Failure VoteAccount := do
  let scaled ← host.fit (index * 8)
  let offset ← host.fit (12 + scaled)
  let slot ← readU64 data offset
  match state.voting.processVote slot with
  | .ok voting => .ok { state with voting }
  | .error reason => .error (.error ("Vote processing failed: " ++ reason.debug))

def voteBounds (slotCount : Nat) : Except Failure (Nat × Nat) := do
  let scaled ← host.fit (slotCount * 8)
  let slotsDataEnd ← host.fit (12 + scaled)
  let hashEnd ← host.fit (slotsDataEnd + 32)
  return (slotsDataEnd, hashEnd)

/-- The voted hash; it is read and not used. -/
def voteHash (data : List UInt8) (slotsDataEnd hashEnd : Nat) : Except Failure Pubkey :=
  if slotsDataEnd ≤ hashEnd then parsePubkey "vote hash" (data.extract slotsDataEnd hashEnd)
  else .error .panic

def executeVote : Except Failure Modified := do
  require (context.accounts ≠ []) "Vote requires at least 1 account"
  require (12 ≤ context.instructionData.length) "Vote instruction data too short"
  let slotCount ← readU64 context.instructionData 4
  require (slotCount ≠ 0) "Vote with zero slots"
  let bounds ← voteBounds host slotCount
  require (bounds.2 ≤ context.instructionData.length) "Vote instruction data too short for slots and hash"
  let entry ← context.account 0
  let state ← loadVoteState entry
  let _ ← voteHash context.instructionData bounds.1 bounds.2
  let voted ← (List.range slotCount).foldlM (voteStep host context.instructionData) state
  return storeVoteState entry voted

def parseVotes (data : List UInt8) : Nat → Nat → Except Failure (List LandedVote × Nat)
  | 0, offset => .ok ([], offset)
  | count + 1, offset => do
    require (offset + 12 ≤ data.length) "VoteStateUpdate data too short for vote entry"
    let slot ← readU64 data offset
    let confirmationCount ← readU32 data (offset + 8)
    let rest ← parseVotes data count (offset + 12)
    return ({ latency := 0, lockout := { slot, confirmationCount } } :: rest.1, rest.2)

/-- The proposed root and votes. The timestamp behind them is dropped by the
source. -/
def updateArguments (data : List UInt8) : Except Failure (Option Nat × List LandedVote) := do
  let root ← parseOptionalSlot data 4
  require (root.2 + 4 ≤ data.length) "VoteStateUpdate data too short for vote count"
  let voteCount ← readU32 data root.2
  let votes ← parseVotes data voteCount (root.2 + 4)
  return (root.1, votes.1)

def executeVoteStateUpdate : Except Failure Modified := do
  require (context.accounts ≠ []) "VoteStateUpdate requires at least 1 account"
  require (5 ≤ context.instructionData.length) "VoteStateUpdate instruction data too short"
  let entry ← context.account 0
  let state ← loadVoteState entry
  let arguments ← updateArguments context.instructionData
  let currentSlot := (arguments.2.getLast?.map LandedVote.slot).getD 0
  match state.voting.applyVoteStateUpdate arguments.2 arguments.1 0 currentSlot with
  | .ok voting => .ok (storeVoteState entry { state with voting })
  | .error reason => .error (.error ("Vote state update failed: " ++ reason.debug))

def executeUpdateValidatorIdentity : Except Failure Modified := do
  require (2 ≤ context.accounts.length) "UpdateValidatorIdentity requires at least 2 accounts"
  let entry ← context.account 0
  require (entry.writable = true) "Vote account must be writable"
  let identity ← context.account 1
  let state ← deserializeVoteState entry.account.data
  return storeVoteState entry { state with nodePubkey := identity.pubkey }

/-- An increase in the second half of an epoch is too late, unless the feature
drops the rule or there is no snapshot to tell. -/
def commissionTooLate (snapshot : Option SysvarSnapshot) (current proposed : UInt8) : Bool :=
  match snapshot with
  | some snapshot =>
    !isFeatureActive snapshot.activeFeatures delayCommissionUpdatesFeature && decide (current < proposed) &&
      !isCommissionUpdateAllowed snapshot.slot snapshot.firstNormalSlot snapshot.slotsPerEpoch
  | none => false

def executeUpdateCommission : Except Failure Modified := do
  require (context.accounts ≠ []) "UpdateCommission requires at least 1 account"
  require (5 ≤ context.instructionData.length) "UpdateCommission instruction data too short"
  let newCommission ← byteAt context.instructionData 4
  require (newCommission ≤ 100) "Commission must be between 0 and 100"
  let entry ← context.account 0
  let state ← loadVoteState entry
  context.requireSigner state.authorizedWithdrawer "UpdateCommission: authorized withdrawer must sign"
  require (commissionTooLate context.sysvarSnapshot state.commission newCommission = false)
    "UpdateCommission: commission update too late in epoch"
  return storeVoteState entry { state with commission := newCommission }

def executeWithdraw : Except Failure Modified := do
  require (2 ≤ context.accounts.length) "Withdraw requires at least 2 accounts"
  require (12 ≤ context.instructionData.length) "Withdraw instruction data too short"
  let lamports ← readU64 context.instructionData 4
  let entry ← context.account 0
  let recipient ← context.account 1
  require (entry.writable = true ∧ recipient.writable = true) "Both accounts must be writable"
  let state ← deserializeVoteState entry.account.data
  context.requireSigner state.authorizedWithdrawer "Withdraw: authorized withdrawer must sign"
  require (lamports ≤ entry.account.lamports)
    ("Insufficient lamports in vote account: " ++ toString entry.account.lamports ++ " < " ++
      toString lamports)
  return (Table.empty.insert entry.pubkey (entry.account.debit lamports)).insert
    recipient.pubkey (recipient.account.credit lamports)

def instructionOf (data : List UInt8) : Option Instruction :=
  Instruction.ofDiscriminant (leValue (data.extract 0 4))

def dispatch : Instruction → Except Failure Modified
  | .initializeAccount => executeInitialize context
  | .initializeAccountV2 => executeInitializeV2 host context
  | .authorize => executeAuthorize context
  | .authorizeChecked => executeAuthorizeChecked context
  | .vote | .voteSwitch => executeVote host context
  | .updateVoteState | .compactUpdateVoteState | .towerSync
  | .updateVoteStateSwitch | .compactUpdateVoteStateSwitch | .towerSyncSwitch =>
    executeVoteStateUpdate context
  | .updateValidatorIdentity => executeUpdateValidatorIdentity context
  | .updateCommission => executeUpdateCommission context
  | .withdraw => executeWithdraw context
  | .authorizeWithSeed => executeAuthorizeWithSeed context
  | .authorizeCheckedWithSeed => executeAuthorizeCheckedWithSeed context
  | .updateCommissionCollector | .updateCommissionBps | .depositDelegatorRewards =>
    .error (.error ("Unimplemented vote instruction type " ++
      toString (leValue (context.instructionData.extract 0 4))))

def computeUsed : Instruction → Nat
  | .initializeAccountV2 => satAdd defaultComputeUnits computeCostPop
  | _ => defaultComputeUnits

def execute : Except Failure ExecutionOutcome :=
  if context.instructionData = [] then .error (.error "Vote instruction data is empty")
  else if context.instructionData.length < 4 then
    .error (.error "Vote instruction data too short for type discriminant")
  else
    match instructionOf context.instructionData with
    | some instruction => do
      let modifiedAccounts ← dispatch host context instruction
      return { success := true, computeUnitsConsumed := computeUsed instruction, modifiedAccounts }
    | none => .error (.error ("Unknown vote instruction type " ++
        toString (leValue (context.instructionData.extract 0 4))))

theorem execute_ok {host : Host} {context : ExecutionContext} (ran : execute host context = .ok outcome) :
    ∃ instruction, instructionOf context.instructionData = some instruction ∧
      dispatch host context instruction = .ok outcome.modifiedAccounts := by
  unfold execute at ran
  split at ran
  · cases ran
  split at ran
  · cases ran
  split at ran
  · rename_i instruction found
    simp only [bind_eq_ok, pure_eq_ok] at ran
    obtain ⟨modified, dispatched, built⟩ := ran
    rw [← built]
    exact ⟨instruction, found, dispatched⟩
  · cases ran

/-- The new state has one new authority, as the arguments say. -/
def Authorizes (loaded : Option VoteAccount) (new : VoteAccount) (parse : Except Failure (Nat × Pubkey)) : Prop :=
  ∃ old, loaded = some old ∧ ∃ arguments, parse = .ok arguments ∧
    authorizeTo old arguments.1 arguments.2 = .ok new

/-- The state that an instruction writes over the one it loads. -/
def Writes (loaded : Option VoteAccount) (new : VoteAccount) : Instruction → Prop
  | .initializeAccount =>
    ∃ arguments, initializeArguments context.instructionData = .ok arguments ∧ new = arguments.state
  | .initializeAccountV2 =>
    ∃ arguments, initializeV2Arguments context.instructionData = .ok arguments ∧ new = arguments.state
  | .authorize => Authorizes loaded new (authorizeArguments context.instructionData)
  | .authorizeChecked => Authorizes loaded new (checkedArguments "AuthorizeChecked" context)
  | .authorizeWithSeed => Authorizes loaded new (authorizeWithSeedArguments context.instructionData)
  | .authorizeCheckedWithSeed => Authorizes loaded new (checkedArguments "AuthorizeCheckedWithSeed" context)
  | .vote | .voteSwitch => ∃ old, loaded = some old ∧ ∃ slotCount,
      readU64 context.instructionData 4 = .ok slotCount ∧ slotCount ≠ 0 ∧
        (List.range slotCount).foldlM (voteStep host context.instructionData) old = .ok new
  | .updateVoteState | .compactUpdateVoteState | .towerSync
  | .updateVoteStateSwitch | .compactUpdateVoteStateSwitch | .towerSyncSwitch =>
    ∃ old, loaded = some old ∧ ∃ arguments, updateArguments context.instructionData = .ok arguments ∧
      ∃ currentSlot voting, old.voting.applyVoteStateUpdate arguments.2 arguments.1 0 currentSlot = .ok voting ∧
        new = { old with voting }
  | .updateValidatorIdentity => ∃ old, loaded = some old ∧ ∃ identity, context.accounts[1]? = some identity ∧
      new = { old with nodePubkey := identity.pubkey }
  | .updateCommission => ∃ old, loaded = some old ∧
      (context.signers = [] ∨ old.authorizedWithdrawer ∈ context.signers) ∧
        ∃ commission, new = { old with commission }
  | .withdraw | .updateCommissionCollector | .updateCommissionBps | .depositDelegatorRewards => False

section

open ExecutionContext

variable {host : Host} {context : ExecutionContext}

theorem deserializeVoteState_eq_ok : deserializeVoteState data = .ok state ↔ VoteAccount.deserialize data = some state := by
  cases found : VoteAccount.deserialize data with
  | none | some other => simp [deserializeVoteState, found]

theorem loadVoteState_eq_ok : loadVoteState entry = .ok state ↔
      entry.writable = true ∧ VoteAccount.deserialize entry.account.data = some state := by
  simp only [loadVoteState, bind_eq_ok, required, deserializeVoteState_eq_ok]

theorem authorizing_writes
    (ran : (do
      let arguments ← parse
      let entry ← context.account 0
      storeAuthority entry arguments.1 arguments.2) = .ok modified) :
    ∃ entry state, context.accounts[0]? = some entry ∧ entry.writable = true ∧
      modified = storeVoteState entry state ∧ Authorizes (VoteAccount.deserialize entry.account.data) state parse := by
  simp only [storeAuthority, bind_eq_ok, account_eq_ok, loadVoteState_eq_ok, pure_eq_ok] at ran
  obtain ⟨arguments, parsed, entry, first, old, ⟨writable, loaded⟩, new, moved, built⟩ := ran
  exact ⟨entry, new, first, writable, built.symm, old, loaded, arguments, parsed, moved⟩

theorem dispatch_writes (ran : dispatch host context instruction = .ok modified) (other : instruction ≠ .withdraw) :
    ∃ entry state, context.accounts[0]? = some entry ∧ entry.writable = true ∧ modified = storeVoteState entry state ∧
      Writes host context (VoteAccount.deserialize entry.account.data) state instruction := by
  cases instruction with
  | withdraw => exact absurd rfl other
  | initializeAccount =>
    simp only [dispatch, executeInitialize, bind_eq_ok, required, account_eq_ok, pure_eq_ok] at ran
    obtain ⟨-, arguments, parsed, entry, first, writable, -, built⟩ := ran
    exact ⟨entry, _, first, writable, built.symm, arguments, parsed, rfl⟩
  | initializeAccountV2 =>
    simp only [dispatch, executeInitializeV2, bind_eq_ok, required, account_eq_ok, pure_eq_ok] at ran
    obtain ⟨-, arguments, parsed, entry, first, writable, -, -, -, -, built⟩ := ran
    exact ⟨entry, _, first, writable, built.symm, arguments, parsed, rfl⟩
  | authorize | authorizeWithSeed =>
    obtain ⟨_, -, ran⟩ := bind_eq_ok.mp ran
    exact authorizing_writes ran
  | authorizeChecked | authorizeCheckedWithSeed => exact authorizing_writes ran
  | vote | voteSwitch =>
    simp only [dispatch, executeVote, bind_eq_ok, required, account_eq_ok, loadVoteState_eq_ok, pure_eq_ok] at ran
    obtain ⟨-, -, slotCount, counted, some, bounds, -, -, entry, first, old, ⟨writable, loaded⟩, -, -, voted, ran,
      built⟩ := ran
    exact ⟨entry, voted, first, writable, built.symm, old, loaded, slotCount, counted, some, ran⟩
  | updateVoteState | updateVoteStateSwitch | compactUpdateVoteState | compactUpdateVoteStateSwitch
  | towerSync | towerSyncSwitch =>
    simp only [dispatch, executeVoteStateUpdate, bind_eq_ok, required, account_eq_ok, loadVoteState_eq_ok] at ran
    obtain ⟨-, -, entry, first, old, ⟨writable, loaded⟩, arguments, parsed, ran⟩ := ran
    split at ran
    · rename_i voting updated
      cases ran
      exact ⟨entry, _, first, writable, rfl, old, loaded, arguments, parsed, _, voting, updated, rfl⟩
    · cases ran
  | updateValidatorIdentity =>
    simp only [dispatch, executeUpdateValidatorIdentity, bind_eq_ok, required, account_eq_ok,
      deserializeVoteState_eq_ok, pure_eq_ok] at ran
    obtain ⟨-, entry, first, writable, identity, second, old, loaded, built⟩ := ran
    exact ⟨entry, _, first, writable, built.symm, old, loaded, identity, second, rfl⟩
  | updateCommission =>
    simp only [dispatch, executeUpdateCommission, bind_eq_ok, required, account_eq_ok, requireSigner_eq_ok,
      exists_const, loadVoteState_eq_ok, pure_eq_ok] at ran
    obtain ⟨-, -, commission, -, -, entry, first, old, ⟨writable, loaded⟩, signed, -, built⟩ := ran
    exact ⟨entry, _, first, writable, built.symm, old, loaded, signed, commission, rfl⟩
  | updateCommissionCollector | updateCommissionBps | depositDelegatorRewards => cases ran

end

end VoteProgram

end Karstflow.Sbpf
