import Karstflow.Sbpf.BytecodeVm

namespace Karstflow.Sbpf

open Data Karstflow.Types

/-! Cross-program invocation: a program hands the layout of an instruction to a
syscall, which reads it from the program's memory, runs the callee and writes
what the callee changed back into the program's input region. -/

def maxCpiDepth : Nat := 4

def maxCpiInstructionSize : Nat := 1280

def maxCpiInstructionAccounts : Nat := 255

def maxCpiAccountInfos : Nat := 255

def maxSignerSeeds : Nat := 16

def maxSeedBytes : Nat := 32

def maxCpiSigners : Nat := 16

def cpiInvokeUnits : Nat := 946

def cpiBytesPerUnit : Nat := 250

def cpiRustAccountMetaSize : Nat := 34

def cpiAccountInfoByteSize : Nat := 80

def maxLogCollectorSize : Nat := 10000

def maxComputeUnits : Nat := 1400000

def defaultHeapSize : Nat := 32 * 1024

/-- The machine that invocations are made on: a host that can also tell the
points of the curve. -/
structure CpiHost extends Host where
  isOnEd25519Curve : Hash → Bool

/-- The two layouts in which a caller may pass an instruction. -/
inductive CpiCallerAbi where
  | c
  | rust
deriving Repr, DecidableEq

structure CpiArguments where
  instruction : BitVec 64
  infos : BitVec 64
  infosCount : BitVec 64
  seeds : BitVec 64
  seedsCount : BitVec 64

structure CpiAccountMeta where
  pubkey : Pubkey
  isSigner : Bool
  isWritable : Bool
deriving DecidableEq

/-- How the syscall ends: with a code for the caller, with an error that stops
it, or by aborting. -/
inductive CpiEnd where
  | answered (code : Nat) (vm : VmState)
  | failed (error : VmError) (vm : VmState)
  | panicked

variable (host : CpiHost) (abi : CpiCallerAbi) (vm : VmState) (arguments : CpiArguments)

/-- Append a message unless the logs are full; whether it was appended. -/
def VmState.tryAppendLog (message : String) : Bool × VmState :=
  if maxLogCollectorSize < satAdd vm.logBytesWritten message.utf8ByteSize then
    (false, if vm.logTruncated then vm else { vm with logTruncated := true, logs := vm.logs ++ ["Log truncated"] })
  else
    (true,
      { vm with
        logBytesWritten := satAdd vm.logBytesWritten message.utf8ByteSize
        logs := vm.logs ++ [message] })

/-- Append messages until one does not fit. -/
def VmState.appendLogs (vm : VmState) : List String → VmState
  | [] => vm
  | message :: rest =>
    if (vm.tryAppendLog message).1 = true then (vm.tryAppendLog message).2.appendLogs rest
    else (vm.tryAppendLog message).2

/-- The answer to a call that breaks a limit. -/
def VmState.refuse (message : String) : CpiEnd := .answered 1 (vm.tryAppendLog message).2

def VmState.deductCompute (cost : Nat) : Except CpiEnd VmState :=
  if vm.computeMeter < cost then .error (.failed .computeBudgetExceeded { vm with computeMeter := 0 })
  else .ok { vm with computeMeter := vm.computeMeter - cost }

def VmState.readMemory (addr : BitVec 64) (size : Nat) : Except CpiEnd (List UInt8) :=
  match vm.memory.readSlice addr size with
  | .error error => .error (.failed (.memoryError error.display) vm)
  | .ok bytes => .ok bytes

def CpiHost.shift (base : BitVec 64) (offset : Nat) : Except CpiEnd (BitVec 64) :=
  if u64Max < base.toNat + offset ∧ host.overflowChecks = true then .error .panicked
  else .ok (base + .ofNat 64 offset)

def readPointer (bytes : List UInt8) (offset : Nat) : BitVec 64 := .ofNat 64 (readWord bytes offset)

def byteSet (bytes : List UInt8) (offset : Nat) : Bool := bytes[offset]? != some 0

/-- Where the record of an account starts. -/
structure InputRegionEntry where
  pubkey : Pubkey
  offset : Nat
deriving DecidableEq

/-- Where the next record starts, after `dataLen` bytes of data that end at
`dataEnd`. -/
def nextRecord (dataLen dataEnd : Nat) : Nat := dataEnd + maxPermittedDataIncrease + alignOffset dataLen + 8

def scanFrom (overflowChecks : Bool) (input : List UInt8) :
    Nat → Nat → List InputRegionEntry → Except CpiEnd (List InputRegionEntry)
  | 0, _, entries => .ok entries
  | count + 1, offset, entries =>
    if input.length ≤ offset then .ok entries
    else if input.getD offset 0 ≠ nonDupMarker then
      -- a repeated account; one that names no earlier account is skipped
      scanFrom overflowChecks input count (offset + 8)
        (entries ++ entries[(input.getD offset 0).toNat]?.toList)
    else if input.length < offset + 88 then .ok entries
    else if u64Max < offset + 88 + readWord input (offset + 80) ∧ overflowChecks = true then .error .panicked
    else if input.length < (offset + 88 + readWord input (offset + 80)) % (u64Max + 1) then .ok entries
    else
      scanFrom overflowChecks input count
        (nextRecord (readWord input (offset + 80)) ((offset + 88 + readWord input (offset + 80)) % (u64Max + 1)))
        (entries ++ [{ pubkey := readOctets 32 input (offset + 8), offset := offset }])

def inputRegionEntrySize : Nat := 40

/-- `isize::MAX`, the largest allocation. -/
def maxAllocation : Nat := 2 ^ 63 - 1

def scanInputRegion (overflowChecks : Bool) (input : List UInt8) : Except CpiEnd (List InputRegionEntry) :=
  if input.length < 8 then .ok []
  -- the table is allocated for as many accounts as the region claims to have
  else if maxAllocation < readWord input 0 * inputRegionEntrySize then .error .panicked
  else scanFrom overflowChecks input (readWord input 0) 8 []

/-- The account of a record. A length that overflows makes the slice start
after its end. -/
def readAccountFromInput (input : List UInt8) (offset : Nat) : Except CpiEnd (Option Account) :=
  if input.length < offset + 88 then .ok none
  else if u64Max < offset + 88 + readWord input (offset + 80) then .error .panicked
  else if input.length < offset + 88 + readWord input (offset + 80) then .ok none
  else .ok (some
    (({ Account.zeroed with
        owner := readOctets 32 input (offset + 40)
        executable := byteSet input (offset + 3)
        data := input.extract (offset + 88) (offset + 88 + readWord input (offset + 80)) } : Account).setLamports
      (readWord input (offset + 72))))

/-- The account that a meta stands for: the first record with its key. -/
def resolveAccount (input : List UInt8) (entries : List InputRegionEntry) (pubkey : Pubkey) :
    Except CpiEnd Account :=
  match entries.find? (fun entry => decide (entry.pubkey = pubkey)) with
  | none => .ok .zeroed
  | some entry => do
    let read ← readAccountFromInput input entry.offset
    return read.getD .zeroed

def readSeeds (seeds : BitVec 64) (place : Nat) : Except CpiEnd (List (List UInt8)) := do
  let entryAddr ← host.shift seeds (place * 16)
  let entry ← vm.readMemory entryAddr 16
  if maxSignerSeeds < readWord entry 8 then .error (vm.refuse "Too many seeds for PDA signer")
  else
    (List.range (readWord entry 8)).mapM fun index => do
      let pairAddr ← host.shift (readPointer entry 0) (index * 16)
      let pointer ← vm.readMemory pairAddr 8
      let lengthAddr ← host.shift pairAddr 8
      let length ← vm.readMemory lengthAddr 8
      if maxSeedBytes < readWord length 0 then .error (vm.refuse "Seed too long for PDA signer")
      else vm.readMemory (readPointer pointer 0) (readWord length 0)

def derivedAddress (seeds : List (List UInt8)) (programId : Pubkey) : Pubkey :=
  host.sha256 (seeds.flatten ++ programId.bytes ++ Pubkey.pdaMarker)

def deriveSigner (seeds : BitVec 64) (place : Nat) : Except CpiEnd Pubkey := do
  let seedData ← readSeeds host vm seeds place
  if host.isOnEd25519Curve (derivedAddress host seedData vm.programId) = true then
    .error (vm.refuse "Derived address is on ed25519 curve")
  else return derivedAddress host seedData vm.programId

/-- Too many signers are ignored, not refused. -/
def derivePdaSigners (seeds : BitVec 64) (count : Nat) : Except CpiEnd (List Pubkey) :=
  if count = 0 ∨ maxCpiSigners < count then .ok []
  else (List.range count).mapM (deriveSigner host vm seeds)

namespace CpiCallerAbi

def instructionSize : CpiCallerAbi → Nat
  | .c => 40
  | .rust => 80

def metasPointer (instruction : List UInt8) : CpiCallerAbi → BitVec 64
  | .c => readPointer instruction 8
  | .rust => readPointer instruction 0

def metasLen (instruction : List UInt8) : Nat := readWord instruction 16

def dataPointer (instruction : List UInt8) : BitVec 64 := readPointer instruction 24

def dataLen (instruction : List UInt8) : CpiCallerAbi → Nat
  | .c => readWord instruction 32
  | .rust => readWord instruction 40

/-- The callee is named by a pointer, or inline. -/
def readProgramId (instruction : List UInt8) : CpiCallerAbi → Except CpiEnd Pubkey
  | .c => do
    let bytes ← vm.readMemory (readPointer instruction 0) 32
    return readOctets 32 bytes 0
  | .rust => .ok (readOctets 32 instruction 48)

def metaSize : CpiCallerAbi → Nat
  | .c => 16
  | .rust => 34

/-- An account meta: a pointer to the key and the flags in the order writable,
signer; or the key inline and the flags the other way around. -/
def readMeta (bytes : List UInt8) : CpiCallerAbi → Except CpiEnd CpiAccountMeta
  | .c => do
    let pubkey ← vm.readMemory (readPointer bytes 0) 32
    return { pubkey := readOctets 32 pubkey 0, isSigner := byteSet bytes 9, isWritable := byteSet bytes 8 }
  | .rust => .ok
      { pubkey := readOctets 32 bytes 0, isSigner := byteSet bytes 32, isWritable := byteSet bytes 33 }

def infoSize : CpiCallerAbi → Nat
  | .c => 56
  | .rust => 48

end CpiCallerAbi

def readMetas (pointer : BitVec 64) (count : Nat) : Except CpiEnd (List CpiAccountMeta) :=
  (List.range count).mapM fun index => do
    let addr ← host.shift pointer (index * abi.metaSize)
    let bytes ← vm.readMemory addr abi.metaSize
    abi.readMeta vm bytes

def readInstructionData (pointer : BitVec 64) (length : Nat) : Except CpiEnd (List UInt8) :=
  if 0 < length then vm.readMemory pointer length else .ok []

def instructionTranslationUnits (dataLen metasLen : Nat) : Nat :=
  dataLen / cpiBytesPerUnit + satMul metasLen cpiRustAccountMetaSize / cpiBytesPerUnit

def accountTranslationUnits (infosCount : Nat) : Nat := satMul infosCount cpiAccountInfoByteSize / cpiBytesPerUnit

structure CpiRequest where
  programId : Pubkey
  instructionData : List UInt8
  metas : List CpiAccountMeta
  pdaSigners : List Pubkey
  vm : VmState

def VmState.limit (within : Prop) [Decidable within] (message : String) : Except CpiEnd Unit :=
  if within then .ok () else .error (vm.refuse message)

def readRequest : Except CpiEnd CpiRequest := do
  let vm ← vm.deductCompute cpiInvokeUnits
  vm.limit (vm.cpiDepth < maxCpiDepth) "CPI depth limit exceeded"
  let instruction ← vm.readMemory arguments.instruction abi.instructionSize
  vm.limit (CpiCallerAbi.metasLen instruction ≤ maxCpiInstructionAccounts) "Too many CPI instruction accounts"
  vm.limit (abi.dataLen instruction ≤ maxCpiInstructionSize) "CPI instruction data too large"
  let programId ← abi.readProgramId vm instruction
  let instructionData ← readInstructionData vm (CpiCallerAbi.dataPointer instruction) (abi.dataLen instruction)
  let vm ← vm.deductCompute
    (instructionTranslationUnits (abi.dataLen instruction) (CpiCallerAbi.metasLen instruction))
  vm.limit (arguments.infosCount.toNat ≤ maxCpiAccountInfos) "Too many CPI account infos"
  let vm ← vm.deductCompute (accountTranslationUnits arguments.infosCount.toNat)
  let metas ← readMetas host abi vm (abi.metasPointer instruction) (CpiCallerAbi.metasLen instruction)
  let pdaSigners ← derivePdaSigners host vm arguments.seeds arguments.seedsCount.toNat
  return { programId := programId, instructionData := instructionData, metas := metas, pdaSigners := pdaSigners, vm := vm }

/-- An invocation that is ready: the context for the callee, and what is needed
when the callee is done. -/
structure CpiCall where
  context : ProgramContext
  metas : List CpiAccountMeta
  entries : List InputRegionEntry
  vm : VmState

def CpiRequest.signers (request : CpiRequest) : List Pubkey :=
  request.pdaSigners ++ (request.metas.filter (·.isSigner)).map (·.pubkey)

def CpiRequest.accounts (request : CpiRequest) (entries : List InputRegionEntry) :
    Except CpiEnd (List InstructionAccount) :=
  request.metas.mapM fun accountMeta => do
    let account ← resolveAccount request.vm.memory.input entries accountMeta.pubkey
    return { pubkey := accountMeta.pubkey, account := account, writable := accountMeta.isWritable }

def CpiRequest.prepare (request : CpiRequest) : Except CpiEnd CpiCall := do
  let entries ← scanInputRegion host.overflowChecks request.vm.memory.input
  let accounts ← request.accounts entries
  return {
    context :=
      { accounts := accounts, instructionData := request.instructionData, sysvarSnapshot := none
        signers := request.signers, programId := request.programId, computeBudget := maxComputeUnits
        heapSize := defaultHeapSize }
    metas := request.metas
    entries := entries
    vm := request.vm }

def readCall : Except CpiEnd CpiCall := do
  let request ← readRequest host abi vm arguments
  request.prepare host

def VmState.withInput (input : List UInt8) : VmState :=
  { vm with memory := { vm.memory with input := input } }

/-- Owner and balance go in before the size of the data is looked at. -/
def writebackAccountToInput (offset : Nat) (account : Account) : Except CpiEnd VmState :=
  let input := MemoryMap.overwrite (MemoryMap.overwrite vm.memory.input account.owner.bytes (offset + 40))
    (leBytes 8 account.lamports) (offset + 72)
  let originalDataLen := readWord input (offset + 80)
  if satAdd originalDataLen maxPermittedDataIncrease < account.data.length then
    .error (.failed (.memoryError "CPI callee cannot grow account data beyond realloc limit") (vm.withInput input))
  else if input.length < offset + 88 + max account.data.length originalDataLen then .error .panicked
  else .ok (vm.withInput
    (MemoryMap.overwrite (MemoryMap.overwrite input (leBytes 8 account.data.length) (offset + 80))
      (account.data ++ .replicate (originalDataLen - account.data.length) 0) (offset + 88)))

structure Writeback where
  pubkey : Pubkey
  account : Account
  offset : Nat

/-- What is written back: changed accounts with a record, if some meta marks
them as writable. -/
def CpiCall.writebacks (call : CpiCall) (outcome : ProgramOutcome) : List Writeback :=
  if outcome.success = true then
    outcome.modifiedAccounts.entries.filterMap fun (pubkey, account) =>
      match call.entries.find? (fun entry => decide (entry.pubkey = pubkey)) with
      | none => none
      | some entry =>
        if call.metas.any (fun accountMeta => decide (accountMeta.pubkey = pubkey) && accountMeta.isWritable) then
          some { pubkey := pubkey, account := account, offset := entry.offset }
        else none
  else []

/-- The size of the account's data as the callee found it. -/
def CpiCall.originalDataLen (call : CpiCall) (pubkey : Pubkey) : Nat :=
  ((call.context.accounts.find? fun entry => decide (entry.pubkey = pubkey)).map (·.account.data.length)).getD 0

def CpiCall.dataLenChanges (call : CpiCall) (outcome : ProgramOutcome) : List (Pubkey × Nat) :=
  ((call.writebacks outcome).filter fun change => change.account.data.length ≠ call.originalDataLen change.pubkey).map
    fun change => (change.pubkey, change.account.data.length)

def readAccountInfoPubkey (memory : MemoryMap) (addr : BitVec 64) : Option Pubkey :=
  match memory.readSlice addr 8 with
  | .error _ => none
  | .ok pointer =>
    match memory.readSlice (readPointer pointer 0) 32 with
    | .error _ => none
    | .ok bytes => some (readOctets 32 bytes 0)

def MemoryMap.tryWrite (memory : MemoryMap) (addr : BitVec 64) (data : List UInt8) : MemoryMap :=
  match memory.writeSlice addr data with
  | .error _ => memory
  | .ok memory => memory

/-- The length in an account info: a field of it, or behind its pointer. -/
def updateDataLen (memory : MemoryMap) (addr : BitVec 64) (length : Nat) : CpiCallerAbi → Except CpiEnd MemoryMap
  | .c => do
    let lengthAddr ← host.shift addr 16
    return memory.tryWrite lengthAddr (leBytes 8 length)
  | .rust => do
    let pointerAddr ← host.shift addr 16
    match memory.readSlice pointerAddr 8 with
    | .error _ => return memory
    | .ok pointer => do
      let lengthAddr ← host.shift (readPointer pointer 0) 32
      return memory.tryWrite lengthAddr (leBytes 8 length)

def updateInfo (infos : BitVec 64) (changes : List (Pubkey × Nat))
    (memory : MemoryMap) (index : Nat) : Except CpiEnd MemoryMap := do
  let addr ← host.shift infos (index * abi.infoSize)
  match (readAccountInfoPubkey memory addr).bind fun key => changes.find? fun change => decide (change.1 = key) with
  | none => return memory
  | some change => updateDataLen host memory addr change.2 abi

def updateCallerAccountDataLens (changes : List (Pubkey × Nat)) (vm : VmState) : Except CpiEnd VmState :=
  if changes = [] then .ok vm
  else do
    let memory ← (List.range arguments.infosCount.toNat).foldlM (updateInfo host abi arguments.infos changes) vm.memory
    return { vm with memory := memory }

/-- Logs, returned data and the charge for the callee. -/
def VmState.settleOutcome (outcome : ProgramOutcome) : CpiEnd :=
  let vm := vm.appendLogs outcome.logs
  let vm := { vm with returnData := outcome.returnData.or vm.returnData }
  if outcome.computeUnitsConsumed ≤ vm.computeMeter then
    .answered (if outcome.success = true then 0 else 1)
      { vm with computeMeter := vm.computeMeter - outcome.computeUnitsConsumed }
  else .failed .computeBudgetExceeded { vm with computeMeter := 0 }

def CpiCall.publish (call : CpiCall) (outcome : ProgramOutcome) : Except CpiEnd VmState := do
  let vm ← (call.writebacks outcome).foldlM
    (fun vm change => writebackAccountToInput vm change.offset change.account) call.vm
  updateCallerAccountDataLens host abi arguments (call.dataLenChanges outcome) vm

def CpiCall.finish (call : CpiCall) : Except Failure ProgramOutcome → CpiEnd
  | .error .panic => .panicked
  | .error (.error _) => .answered 1 call.vm
  | .ok outcome =>
    match call.publish host abi arguments outcome with
    | .error ending => ending
    | .ok vm => vm.settleOutcome outcome

/-- `sol_invoke_signed_c` and `sol_invoke_signed_rust`. -/
def invokeSigned (executor : ProgramContext → Except Failure ProgramOutcome) (abi : CpiCallerAbi)
    (vm : VmState) (arguments : CpiArguments) : CpiEnd :=
  match readCall host abi vm arguments with
  | .error ending => ending
  | .ok call => call.finish host abi arguments (executor call.context)

end Karstflow.Sbpf
