import Karstflow.Sbpf.Balances
import Karstflow.Sbpf.InputRegion
import Karstflow.Sbpf.Validation

namespace Karstflow.Sbpf

open Data Karstflow.Types

/-! Running a deployed program: its accounts are written into the input region,
and what the region holds at the end is taken for the accounts afterwards. -/

def depleteCuMeterOnVmFailureFeature : Pubkey :=
  ⟨[0x50, 0x5E, 0x7B, 0x2A, 0x7B, 0x94, 0x10, 0xFD, 0x11, 0x72, 0x18, 0x65, 0xAF, 0xFE, 0x66, 0x3A,
    0xA2, 0x0E, 0xE0, 0xC0, 0x18, 0x1C, 0x11, 0xF5, 0xD7, 0x73, 0xB8, 0x54, 0x90, 0x24, 0xA0, 0xBF], rfl⟩

structure ProgramContext extends ExecutionContext where
  programId : Pubkey
  computeBudget : Nat
  heapSize : Nat

/-- An outcome with the logs and the data that the program returns. -/
structure ProgramOutcome extends ExecutionOutcome where
  logs : List String
  returnData : Option (List UInt8)

def ProgramOutcome.failure (computeUnits : Nat) (message : String) : ProgramOutcome :=
  { success := false, computeUnitsConsumed := computeUnits, modifiedAccounts := .empty
    logs := ["Program failed: " ++ message], returnData := none }

/-- The account as the region has it, if that differs from what it was. -/
def changedAccount (entry : InstructionAccount) (read : DeserializedAccount) : Option Account :=
  if read.lamports ≠ entry.account.lamports ∨ read.owner ≠ entry.account.owner ∨ read.data ≠ entry.account.data then
    some (({ entry.account with owner := read.owner, data := read.data } : Account).setLamports read.lamports)
  else none

def collectFrom : List (Option DeserializedAccount) → List InstructionAccount → Modified → Modified
  | some read :: results, entry :: rest, modified =>
    collectFrom results rest
      (match changedAccount entry read with
        | some account => modified.insert entry.pubkey account
        | none => modified)
  | none :: results, _ :: rest, modified => collectFrom results rest modified
  | _, _, modified => modified

/-- The accounts that a run changed. A region that cannot be read back changes
nothing. -/
def collectModifiedAccounts (inputRegion : List UInt8) (metas : List RegionMeta) (accounts : List InstructionAccount) :
    Modified :=
  match deserializeAligned inputRegion metas with
  | .error _ => .empty
  | .ok results => collectFrom results accounts .empty

structure BytecodeVm where
  syscalls : SyscallDispatch
  sysvarSnapshot : SysvarSnapshot
  overflowChecks : Bool

def LoadedProgram.memory (program : LoadedProgram) (heapSize : Nat) (input : List UInt8) : MemoryMap :=
  .new (if program.rodata.isEmpty then program.textBytes else program.rodata) totalStackSize heapSize input
    program.sbpfVersion.hasDynamicStackFrames

def haltOutcome (context : ProgramContext) (metas : List RegionMeta) (depletes : Bool) :
    Halt → Except Failure ProgramOutcome
  | .returned result => .ok
      { success := decide (result.returnValue = 0), computeUnitsConsumed := result.computeUnitsConsumed
        modifiedAccounts := collectModifiedAccounts result.inputRegion metas context.accounts
        logs := result.logs, returnData := result.returnData }
  | .failed .computeBudgetExceeded => .ok (.failure context.computeBudget "compute budget exceeded")
  | .failed error =>
    if depletes then .ok (.failure context.computeBudget error.display)
    else .error (.error ("execution failed: " ++ error.display))
  | .panicked => .error .panic

/-- The outcome of a program, if it ends within `passes` passes. -/
def BytecodeVm.runProgram (vm : BytecodeVm) (passes : Nat) (program : LoadedProgram) (context : ProgramContext) :
    Option (Except Failure ProgramOutcome) :=
  match serializeAligned context.accounts context.instructionData context.programId with
  | .error message => some (.error (.error ("execution failed: " ++ message)))
  | .ok serialized =>
    let snapshot := context.sysvarSnapshot.getD vm.sysvarSnapshot
    (execute passes program (program.memory context.heapSize serialized.buffer) context.computeBudget vm.syscalls
      vm.overflowChecks snapshot context.programId).map
        (haltOutcome context serialized.metas (isFeatureActive snapshot.activeFeatures depleteCuMeterOnVmFailureFeature))

end Karstflow.Sbpf
