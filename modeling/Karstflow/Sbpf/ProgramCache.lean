import Karstflow.Sbpf.BytecodeVm
import Karstflow.Sbpf.InterpreterSafety
import Karstflow.Types.Ids
import Karstflow.Types.LoaderState

namespace Karstflow.Sbpf

open Data Karstflow.Types

/-! Which code of a program runs: the cache of loaded programs, and the record of
the deployments that no call has met yet. -/

def delayVisibilitySlotOffset : Nat := 1

def evictionThresholdPercent : Nat := 90

def defaultMaxCacheEntries : Nat := 256

structure CachedProgram where
  program : LoadedProgram
  lastUsedSlot : Nat
  effectiveSlot : Nat

structure ProgramCache where
  entries : Table Pubkey CachedProgram := .empty
  maxEntries : Nat := defaultMaxCacheEntries

namespace ProgramCache

variable (cache : ProgramCache) (programId : Pubkey)

/-- The program, if it is visible, and the cache with this use noted. -/
def get (slot : Nat) : Option (LoadedProgram × ProgramCache) := do
  let entry ← cache.entries.get programId
  if slot < entry.effectiveSlot then none
  else some (entry.program,
    { cache with entries := cache.entries.insert programId { entry with lastUsedSlot := slot } })

def evictIfNeeded : ProgramCache :=
  if cache.entries.size < cache.maxEntries * evictionThresholdPercent / 100 then cache
  else
    let byAge := cache.entries.entries.mergeSort fun left right => left.2.lastUsedSlot ≤ right.2.lastUsedSlot
    { cache with entries :=
        ((byAge.take (cache.entries.size - cache.maxEntries * 3 / 4)).map Prod.fst).foldl .erase cache.entries }

def insert (entry : CachedProgram) : ProgramCache :=
  { cache with entries := cache.evictIfNeeded.entries.insert programId entry }

variable {cache programId}

theorem get_eq_some (kept : cache.get programId slot = some (program, used)) :
    ∃ entry, cache.entries.get programId = some entry ∧ program = entry.program ∧
      used.entries = cache.entries.insert programId { entry with lastUsedSlot := slot } := by
  obtain ⟨entry, cached, seen⟩ := Option.bind_eq_some_iff.mp kept
  split at seen
  · cases seen
  · cases seen
    exact ⟨entry, cached, rfl, rfl⟩

theorem get_evictIfNeeded (found : cache.evictIfNeeded.entries.get programId = some entry) :
    cache.entries.get programId = some entry := by
  unfold evictIfNeeded at found
  split at found
  · exact found
  · rw [Table.get_foldl_erase] at found
    split at found
    · cases found
    · exact found

end ProgramCache

/-- The account that holds the code of an upgradeable program. -/
def programdataAddress (program : Account) : Option Pubkey :=
  if program.owner ≠ bpfLoaderProgramId ∨ program.data.length < UpgradeableLoaderState.sizeOfProgram ∨
      leValue (program.data.extract 0 4) ≠ UpgradeableLoaderState.stateProgram then none
  else Octets.ofBytes 32 (program.data.extract 4 36)

/-- The code that a call finds in the accounts. -/
def elfBytes (context : ProgramContext) : Except Failure (List UInt8) := do
  let program ← orMissing (.error "invalid program")
    (context.accounts.find? fun entry => entry.pubkey = context.programId ∧ entry.account.executable)
  require (program.account.owner ∈
    [bpfLoaderProgramId, bpfLoaderV2ProgramId, bpfLoaderDeprecatedProgramId, loaderV4ProgramId]) "invalid program"
  let elf ← match programdataAddress program.account with
    | some address => do
      let programdata ← orMissing (.error "invalid program")
        (context.accounts.find? fun entry => entry.pubkey = address)
      require (UpgradeableLoaderState.sizeOfProgramdataMetadata < programdata.account.data.length)
        "invalid account data"
      pure (programdata.account.data.drop UpgradeableLoaderState.sizeOfProgramdataMetadata)
    | none => pure program.account.data
  require (elf ≠ []) "invalid account data"
  return elf

/-- The program that a loader instruction deploys or upgrades. -/
def deployedProgram (context : ExecutionContext) : Option Pubkey :=
  if context.instructionData.length < 4 then none
  else
    match leValue (context.instructionData.extract 0 4) with
    | 2 => context.accounts[2]?.map (·.pubkey)
    | 3 => context.accounts[1]?.map (·.pubkey)
    | _ => none

def deploymentSlot (context : ExecutionContext) : Nat := (context.sysvarSnapshot.map (·.slot)).getD 0

def effectiveSlot : Option Nat → Nat
  | some deploySlot => satAdd deploySlot delayVisibilitySlotOffset
  | none => 0

/-- The machine with its programs. What an ELF file loads as depends on the
features. -/
structure CachingVm extends BytecodeVm where
  loadProgram : List Pubkey → List UInt8 → Except Failure LoadedProgram
  cache : ProgramCache := {}
  deployedAt : Table Pubkey Nat := .empty

namespace CachingVm

variable (vm : CachingVm) (context : ProgramContext)

def invalidateProgram (programId : Pubkey) (deploymentSlot : Nat) : CachingVm :=
  { vm with
    cache := { vm.cache with entries := vm.cache.entries.erase programId }
    deployedAt := vm.deployedAt.insert programId deploymentSlot }

def invalidateAfterLoaderInstruction (context : ExecutionContext) : CachingVm :=
  match deployedProgram context with
  | some programId => vm.invalidateProgram programId (deploymentSlot context)
  | none => vm

def snapshot : SysvarSnapshot := context.sysvarSnapshot.getD vm.sysvarSnapshot

/-- The program that `execute` runs. A call that comes too early takes the record
of the deployment with it. -/
def fetch : Except Failure LoadedProgram × CachingVm :=
  match elfBytes context with
  | .error error => (.error error, vm)
  | .ok elf =>
    match vm.cache.get context.programId (vm.snapshot context).slot with
    | some (program, cache) => (.ok program, { vm with cache })
    | none =>
      match vm.loadProgram (vm.snapshot context).activeFeatures elf with
      | .error error => (.error error, vm)
      | .ok program =>
        let effective := effectiveSlot (vm.deployedAt.get context.programId)
        let taken := { vm with deployedAt := vm.deployedAt.erase context.programId }
        if (vm.snapshot context).slot < effective then (.error (.error "invalid program"), taken)
        else
          (.ok program,
            { taken with cache := vm.cache.insert context.programId ⟨program, (vm.snapshot context).slot, effective⟩ })

def loaded (features : List Pubkey) : Except Failure LoadedProgram := elfBytes context >>= vm.loadProgram features

def loads : Bool := (vm.loaded context (vm.snapshot context).activeFeatures).isOk

variable {vm context}

theorem loads_eq (finds : elfBytes context = .ok elf) :
    vm.loads context = (vm.loadProgram (vm.snapshot context).activeFeatures elf).isOk := by
  rw [loads, loaded, finds]
  rfl

end CachingVm

/-- A call on the machine. A deployment leaves `elf` as the code of its program. -/
inductive VmCall where
  | deploy (context : ExecutionContext) (elf : List UInt8)
  | execute (context : ProgramContext)

/-- The machine with what its calls so far amount to: the code of each program,
the slot that deployed it, and whether it was asked for since. -/
structure Standing where
  vm : CachingVm
  slot : Nat
  code : Pubkey → List UInt8
  deployed : Pubkey → Option Nat
  asked : Pubkey → Bool

namespace Standing

def fresh (vm : CachingVm) (code : Pubkey → List UInt8) : Standing :=
  { vm := { vm with cache := {}, deployedAt := .empty }, slot := 0, code, deployed := fun _ => none
    asked := fun _ => false }

def call (standing : Standing) : VmCall → Standing
  | .deploy context elf =>
    let vm := standing.vm.invalidateAfterLoaderInstruction context
    let slot := deploymentSlot context
    match deployedProgram context with
    | none => { standing with vm, slot }
    | some id =>
      { vm, slot, code := Function.update standing.code id elf, deployed := Function.update standing.deployed id slot
        asked := Function.update standing.asked id false }
  | .execute context =>
    { standing with
      vm := (standing.vm.fetch context).2
      slot := (standing.vm.snapshot context).slot
      asked := fun id => standing.asked id || decide (id = context.programId) && standing.vm.loads context }

/-- Slots do not go back, and only deployments change the code of a program. -/
def Orderly (standing : Standing) : VmCall → Prop
  | .deploy context _ => standing.slot ≤ deploymentSlot context
  | .execute context => standing.slot ≤ (standing.vm.snapshot context).slot ∧
      ∀ elf, elfBytes context = .ok elf → elf = standing.code context.programId

/-- What runs is visible, and is the code that the call finds. -/
def Delayed (standing : Standing) : VmCall → Prop
  | .deploy _ _ => True
  | .execute context => ∀ program, (standing.vm.fetch context).1 = .ok program →
      effectiveSlot (standing.deployed context.programId) ≤ (standing.vm.snapshot context).slot ∧
        ∃ features, standing.vm.loaded context features = .ok program

/-- A program that was asked for since its deployment is not asked for again
before it is visible. -/
def Patient (standing : Standing) : VmCall → Prop
  | .deploy _ _ => True
  | .execute context => standing.vm.loads context = true → standing.asked context.programId = true →
      effectiveSlot (standing.deployed context.programId) ≤ (standing.vm.snapshot context).slot

/-- Every call of a run meets a condition on the standing before it. -/
def Along (Ok : Standing → VmCall → Prop) : Standing → List VmCall → Prop
  | _, [] => True
  | standing, next :: rest => Ok standing next ∧ Along Ok (standing.call next) rest

/-- A deployment is on record until its program is asked for, and what is cached
is the current code, visible. -/
structure Sound (standing : Standing) : Prop where
  record : ∀ id, standing.vm.deployedAt.get id = if standing.asked id then none else standing.deployed id
  cached : ∀ id entry, standing.vm.cache.entries.get id = some entry → standing.asked id = true ∧
    effectiveSlot (standing.deployed id) ≤ standing.slot ∧
      ∃ features, standing.vm.loadProgram features (standing.code id) = .ok entry.program

theorem sound_fresh {vm : CachingVm} {code : Pubkey → List UInt8} : (fresh vm code).Sound where
  record id := by simp [fresh]
  cached id entry found := by cases found

variable {standing : Standing}

theorem Sound.later {slot : Nat} (sound : standing.Sound) (later : standing.slot ≤ slot) :
    { standing with slot }.Sound where
  record := sound.record
  cached id entry found := by
    obtain ⟨asked, visible, code⟩ := sound.cached id entry found
    exact ⟨asked, le_trans visible later, code⟩

theorem Sound.deploy (sound : standing.Sound)
    (orderly : standing.Orderly (.deploy context elf)) : (standing.call (.deploy context elf)).Sound := by
  have sound := sound.later orderly
  cases target : deployedProgram context with
  | none =>
    simp only [call, CachingVm.invalidateAfterLoaderInstruction, target]
    exact sound
  | some programId =>
    simp only [call, CachingVm.invalidateAfterLoaderInstruction, target, CachingVm.invalidateProgram]
    refine ⟨fun id => ?_, fun id entry found => ?_⟩
    · rw [Table.get_insert]
      by_cases own : id = programId
      · simp [own]
      · simp [own, sound.record]
    · rw [Table.get_erase] at found
      split at found
      · cases found
      · rename_i other
        simpa [other] using sound.cached id entry found

/-- A call is as patient as it is delayed, and a delayed one keeps what is cached
up to date. -/
theorem Sound.execute (sound : standing.Sound) (orderly : standing.Orderly (.execute context)) :
    (standing.Patient (.execute context) ↔ standing.Delayed (.execute context)) ∧
      (standing.Delayed (.execute context) → (standing.call (.execute context)).Sound) := by
  obtain ⟨later, current⟩ := orderly
  have record := sound.record context.programId
  have keeps : ∀ id entry, standing.vm.cache.entries.get id = some entry →
      (standing.call (.execute context)).asked id = true ∧
        effectiveSlot (standing.deployed id) ≤ (standing.vm.snapshot context).slot ∧
          ∃ features, standing.vm.loadProgram features (standing.code id) = .ok entry.program := by
    intro id entry found
    obtain ⟨asked, visible, code⟩ := sound.cached id entry found
    exact ⟨by simp [call, asked], le_trans visible later, code⟩
  have taken : standing.vm.loads context = true → ∀ id, (standing.vm.deployedAt.erase context.programId).get id =
      if (standing.call (.execute context)).asked id then none else standing.deployed id := by
    intro loads id
    rw [Table.get_erase]
    by_cases own : id = context.programId
    · simp [call, own, loads]
    · simp [call, own, sound.record]
  have stays : standing.vm.loads context = false → ∀ id, standing.vm.deployedAt.get id =
      if (standing.call (.execute context)).asked id then none else standing.deployed id := by
    intro unloaded
    simpa [call, unloaded] using sound.record
  simp only [Patient, Delayed, call] at keeps taken stays ⊢
  fun_cases CachingVm.fetch standing.vm context with
  | case1 error finds =>
    have unloaded : standing.vm.loads context = false := by rw [CachingVm.loads, CachingVm.loaded, finds]; rfl
    exact ⟨by simp [unloaded], fun _ => ⟨stays unloaded, keeps⟩⟩
  | case2 elf finds program cache kept =>
    -- a redeployment would have taken the entry out of the cache
    obtain ⟨entry, cached, rfl, used⟩ := ProgramCache.get_eq_some kept
    obtain ⟨asked, visible, features, loaded⟩ := sound.cached _ _ cached
    have reached := le_trans visible later
    refine ⟨⟨?_, fun _ _ _ => reached⟩, fun _ => ⟨fun id => ?_, fun id other found => ?_⟩⟩
    · rintro - program ⟨⟩
      exact ⟨reached, features, by rw [CachingVm.loaded, finds, current _ finds]; exact loaded⟩
    · rw [sound.record]
      by_cases own : id = context.programId
      · simp [own, asked]
      · simp [own]
    · rw [used, Table.get_insert] at found
      split at found
      · rename_i own
        cases found
        rw [own]
        have held := keeps _ _ cached
        exact held
      · exact keeps _ _ found
  | case3 elf finds missed error failed =>
    have unloaded : standing.vm.loads context = false := by rw [CachingVm.loads_eq finds, failed]; rfl
    exact ⟨by simp [unloaded], fun _ => ⟨stays unloaded, keeps⟩⟩
  | case4 elf finds missed program loaded effective early hidden =>
    have loads : standing.vm.loads context = true := by rw [CachingVm.loads_eq finds, loaded]; rfl
    -- the record is still there, so this is the first time since the deployment
    refine ⟨⟨fun _ _ ran => (by cases ran), fun _ _ asked => ?_⟩, fun _ => ⟨taken loads, keeps⟩⟩
    simp only [effective, record, asked, if_true] at hidden
    exact absurd hidden (Nat.not_lt_zero _)
  | case5 elf finds missed program loaded effective early visible =>
    have loads : standing.vm.loads context = true := by rw [CachingVm.loads_eq finds, loaded]; rfl
    refine ⟨⟨?_, fun delayed _ _ => (delayed _ rfl).1⟩, fun delayed => ⟨taken loads, fun id entry found => ?_⟩⟩
    · rintro patient program ⟨⟩
      refine ⟨?_, _, by rw [CachingVm.loaded, finds]; exact loaded⟩
      by_cases asked : standing.asked context.programId = true
      · exact patient loads asked
      · simpa [effective, record, asked] using visible
    · rw [ProgramCache.insert, Table.get_insert] at found
      split at found
      · rename_i own
        cases found
        subst own
        exact ⟨by simp [loads], (delayed _ rfl).1, _, current _ finds ▸ loaded⟩
      · exact keeps _ _ (ProgramCache.get_evictIfNeeded found)

theorem Sound.call (sound : standing.Sound) (orderly : standing.Orderly next) :
    (standing.Patient next ↔ standing.Delayed next) ∧ (standing.Delayed next → (standing.call next).Sound) := by
  cases next with
  | deploy context elf => exact ⟨.rfl, fun _ => sound.deploy orderly⟩
  | execute context => exact sound.execute orderly

theorem Sound.along_iff (sound : standing.Sound) (orderly : Along Orderly standing calls) :
    Along Delayed standing calls ↔ Along Patient standing calls := by
  induction calls generalizing standing with
  | nil => exact .rfl
  | cons next rest ih =>
    obtain ⟨first, later⟩ := orderly
    obtain ⟨same, kept⟩ := sound.call first
    rw [Along, Along, same]
    exact and_congr_right fun delayed => ih (kept delayed) later

/-- The delay is kept in the runs that ask for no program twice before it is
visible. The second call finds no record of the deployment. -/
theorem delayed_iff_patient {vm : CachingVm} {code : Pubkey → List UInt8} {calls : List VmCall}
    (orderly : Along Orderly (fresh vm code) calls) :
    Along Delayed (fresh vm code) calls ↔ Along Patient (fresh vm code) calls :=
  sound_fresh.along_iff orderly

/-- The context of a call at a slot, with one program in its accounts. -/
def contextAt (slot : Nat) : ProgramContext :=
  let program : Account := { Account.zeroed with owner := bpfLoaderV2ProgramId, executable := true, data := [1] }
  { accounts := .replicate 3 ⟨.zeroed, program, true⟩, instructionData := [2, 0, 0, 0], signers := []
    sysvarSnapshot := some { blankSnapshot with slot }, programId := .zeroed, computeBudget := 0, heapSize := 0 }

/-- A machine on which every file loads as a program that returns at once. -/
def exitVm : CachingVm :=
  { syscalls := noSyscalls, sysvarSnapshot := blankSnapshot, overflowChecks := true
    loadProgram := fun _ _ => .ok (singleInstruction (exitInstruction 0)) }

theorem called_once_delayed : Along Delayed (fresh exitVm fun _ => [])
    [.deploy (contextAt 5).toExecutionContext [1], .execute (contextAt 5), .execute (contextAt 6)] := by
  refine (delayed_iff_patient ?_).mpr ⟨trivial, fun _ asked => ?_, fun _ _ => le_refl 6, trivial⟩
  · refine ⟨Nat.zero_le 5, ⟨le_refl 5, ?_⟩, ⟨Nat.le_succ 5, ?_⟩, trivial⟩
    · rintro elf ⟨⟩
      rfl
    · rintro elf ⟨⟩
      rfl
  · cases asked

/-- In the slot of its deployment, the first call is refused and the second runs. -/
theorem called_twice_not_delayed : ¬ Along Delayed (fresh exitVm fun _ => [])
    [.deploy (contextAt 5).toExecutionContext [1], .execute (contextAt 5), .execute (contextAt 5)] := by
  rintro ⟨-, -, second, -⟩
  exact absurd (second _ rfl).1 (by decide)

end Standing

end Karstflow.Sbpf
