import Karstflow.Sbpf.CrossProgram
import Karstflow.Sbpf.InterpreterSafety

namespace Karstflow.Sbpf

open Data Karstflow.Types List

/-! What an invocation may pass on to the callee, and what it does pass on: the
flags of the account metas, whether or not the caller has such a privilege. -/

def ProgramContext.MayWrite (caller : ProgramContext) (pubkey : Pubkey) : Prop :=
  ∃ entry ∈ caller.accounts, entry.pubkey = pubkey ∧ entry.writable = true

/-- An address of the caller's program, from seeds that the arguments give. -/
def DerivedFor (host : CpiHost) (programId : Pubkey) (vm : VmState) (arguments : CpiArguments) (pubkey : Pubkey) : Prop :=
  ∃ place < arguments.seedsCount.toNat, ∃ seeds, readSeeds host vm arguments.seeds place = .ok seeds ∧
    host.isOnEd25519Curve pubkey = false ∧
    pubkey = host.sha256 (seeds.flatten ++ programId.bytes ++ Pubkey.pdaMarker)

structure Unescalated (host : CpiHost) (caller : ProgramContext) (arguments : CpiArguments) (call : CpiCall) :
    Prop where
  signers : ∀ pubkey ∈ call.context.signers,
    pubkey ∈ caller.signers ∨ DerivedFor host caller.programId call.vm arguments pubkey
  writable : ∀ entry ∈ call.context.accounts, entry.writable = true → caller.MayWrite entry.pubkey
  written : ∀ outcome, ∀ change ∈ call.writebacks outcome, caller.MayWrite change.pubkey

/-- The metas ask for no more than the caller has. -/
structure Entitled (host : CpiHost) (caller : ProgramContext) (arguments : CpiArguments) (request : CpiRequest) :
    Prop where
  signers : ∀ accountMeta ∈ request.metas, accountMeta.isSigner = true →
    accountMeta.pubkey ∈ caller.signers ∨
      DerivedFor host caller.programId request.vm arguments accountMeta.pubkey
  writable : ∀ accountMeta ∈ request.metas, accountMeta.isWritable = true → caller.MayWrite accountMeta.pubkey

section

variable {vm after : VmState} {request : CpiRequest}
  {call : CpiCall}

theorem deductCompute_programId (deducted : vm.deductCompute cost = .ok after) : after.programId = vm.programId := by
  by_cases short : vm.computeMeter < cost
  · rw [VmState.deductCompute, if_pos short] at deducted
    cases deducted
  · rw [VmState.deductCompute, if_neg short] at deducted
    cases deducted
    rfl

theorem readRequest_eq_ok (read : readRequest host abi vm arguments = .ok request) :
    request.vm.programId = vm.programId ∧
      derivePdaSigners host request.vm arguments.seeds arguments.seedsCount.toNat = .ok request.pdaSigners := by
  simp only [readRequest, bind_eq_ok, pure_eq_ok] at read
  obtain ⟨invoked, invoking, _, _, _, _, _, _, _, _, _, _, _, _, translated, translating, _, _, charged, charging, _, _,
    derived, deriving_, rfl⟩ := read
  refine ⟨?_, deriving_⟩
  rw [deductCompute_programId charging, deductCompute_programId translating, deductCompute_programId invoking]

theorem deriveSigner_eq_ok (derived : deriveSigner host vm seeds place = .ok pubkey) : ∃ seedData,
    readSeeds host vm seeds place = .ok seedData ∧ host.isOnEd25519Curve pubkey = false ∧
      pubkey = derivedAddress host seedData vm.programId := by
  simp only [deriveSigner, bind_eq_ok] at derived
  obtain ⟨seedData, read, found⟩ := derived
  by_cases curve : host.isOnEd25519Curve (derivedAddress host seedData vm.programId) = true
  · rw [if_pos curve] at found
    cases found
  · rw [if_neg curve] at found
    cases found
    exact ⟨seedData, read, Bool.eq_false_of_not_eq_true curve, rfl⟩

theorem derivedFor_of_mem (derived : derivePdaSigners host vm arguments.seeds arguments.seedsCount.toNat = .ok signers)
    (inside : pubkey ∈ signers) : DerivedFor host vm.programId vm arguments pubkey := by
  by_cases ignored : arguments.seedsCount.toNat = 0 ∨ maxCpiSigners < arguments.seedsCount.toNat
  · rw [derivePdaSigners, if_pos ignored] at derived
    cases derived
    exact absurd inside not_mem_nil
  · rw [derivePdaSigners, if_neg ignored] at derived
    obtain ⟨place, within, signed⟩ := (mem_mapM_ok derived).mp inside
    obtain ⟨seedData, read, curve, same⟩ := deriveSigner_eq_ok signed
    exact ⟨place, mem_range.mp within, seedData, read, curve, same⟩

theorem prepare_eq_ok (prepared : request.prepare host = .ok call) :
    call.vm = request.vm ∧ call.metas = request.metas ∧ call.context.signers = request.signers ∧
      request.accounts call.entries = .ok call.context.accounts := by
  simp only [CpiRequest.prepare, bind_eq_ok, pure_eq_ok] at prepared
  obtain ⟨entries, _, accounts, resolved, rfl⟩ := prepared
  exact ⟨rfl, rfl, rfl, resolved⟩

theorem mem_signers : pubkey ∈ request.signers ↔
    pubkey ∈ request.pdaSigners ∨ ∃ accountMeta ∈ request.metas, accountMeta.isSigner = true ∧
      accountMeta.pubkey = pubkey := by
  rw [CpiRequest.signers, mem_append, mem_map]
  simp only [mem_filter, and_assoc]

theorem exists_writable_iff (resolved : request.accounts entries = .ok accounts) :
    (∃ entry ∈ accounts, entry.writable = true ∧ entry.pubkey = pubkey) ↔
      ∃ accountMeta ∈ request.metas, accountMeta.isWritable = true ∧ accountMeta.pubkey = pubkey := by
  constructor
  · rintro ⟨entry, inside, writable, same⟩
    obtain ⟨accountMeta, asked, given⟩ := (mem_mapM_ok resolved).mp inside
    simp only [bind_eq_ok, pure_eq_ok] at given
    obtain ⟨account, _, rfl⟩ := given
    exact ⟨accountMeta, asked, writable, same⟩
  · rintro ⟨accountMeta, asked, writable, same⟩
    obtain ⟨entry, inside, given⟩ := exists_mapM_ok resolved asked
    simp only [bind_eq_ok, pure_eq_ok] at given
    obtain ⟨account, _, rfl⟩ := given
    exact ⟨_, inside, writable, same⟩

theorem exists_meta_of_mem_writebacks (inside : change ∈ call.writebacks outcome) :
    ∃ accountMeta ∈ call.metas, accountMeta.isWritable = true ∧ accountMeta.pubkey = change.pubkey := by
  by_cases success : outcome.success = true
  · rw [CpiCall.writebacks, if_pos success, mem_filterMap] at inside
    obtain ⟨⟨pubkey, account⟩, _, written⟩ := inside
    cases found : call.entries.find? (fun entry => decide (entry.pubkey = pubkey)) with
    | none => simp only [found, reduceCtorEq] at written
    | some entry =>
        simp only [found] at written
        split at written
        · rename_i marked
          cases written
          obtain ⟨accountMeta, asked, flags⟩ := any_eq_true.mp marked
          obtain ⟨same, writable⟩ := Bool.and_eq_true_iff.mp flags
          exact ⟨accountMeta, asked, writable, of_decide_eq_true same⟩
        · cases written
  · rw [CpiCall.writebacks, if_neg success] at inside
    exact absurd inside not_mem_nil

end

/-- An invocation passes on no more than the caller has exactly if the metas in
the caller's memory ask for no more. -/
theorem invocation_unescalated_iff (host : CpiHost) (caller : ProgramContext) (abi : CpiCallerAbi) (vm : VmState)
    (arguments : CpiArguments) (own : vm.programId = caller.programId) :
    (∀ call, readCall host abi vm arguments = .ok call → Unescalated host caller arguments call) ↔
      ∀ request call, readRequest host abi vm arguments = .ok request → request.prepare host = .ok call →
        Entitled host caller arguments request := by
  have reads : ∀ call, readCall host abi vm arguments = .ok call ↔
      ∃ request, readRequest host abi vm arguments = .ok request ∧ request.prepare host = .ok call :=
    fun call => bind_eq_ok
  constructor
  · intro unescalated request call read prepared
    obtain ⟨sameVm, sameMetas, sameSigners, resolved⟩ := prepare_eq_ok prepared
    have kept := unescalated call ((reads call).mpr ⟨request, read, prepared⟩)
    constructor
    · intro accountMeta asked signer
      rw [← sameVm]
      apply kept.signers
      rw [sameSigners]
      exact mem_signers.mpr (.inr ⟨accountMeta, asked, signer, rfl⟩)
    · intro accountMeta asked writable
      obtain ⟨entry, inside, marked, same⟩ := (exists_writable_iff resolved).mpr ⟨accountMeta, asked, writable, rfl⟩
      exact same ▸ kept.writable entry inside marked
  · intro entitled call found
    obtain ⟨request, read, prepared⟩ := (reads call).mp found
    obtain ⟨sameVm, sameMetas, sameSigners, resolved⟩ := prepare_eq_ok prepared
    obtain ⟨sameProgram, derived⟩ := readRequest_eq_ok read
    have asked := entitled request call read prepared
    constructor
    · intro pubkey signs
      rw [sameSigners] at signs
      rw [sameVm]
      obtain inside | ⟨accountMeta, inside, signer, rfl⟩ := mem_signers.mp signs
      · right
        rw [← own, ← sameProgram]
        exact derivedFor_of_mem derived inside
      · exact asked.signers accountMeta inside signer
    · intro entry inside marked
      obtain ⟨accountMeta, listed, writable, same⟩ := (exists_writable_iff resolved).mp ⟨entry, inside, marked, rfl⟩
      exact same ▸ asked.writable accountMeta listed writable
    · intro outcome change inside
      obtain ⟨accountMeta, listed, writable, same⟩ := exists_meta_of_mem_writebacks inside
      rw [sameMetas] at listed
      exact same ▸ asked.writable accountMeta listed writable

/-- The outcome without what it says of accounts that the caller may not write. -/
def ProgramOutcome.within (caller : ProgramContext) (outcome : ProgramOutcome) : ProgramOutcome :=
  { outcome with
    modifiedAccounts := outcome.modifiedAccounts.retain fun pubkey _ =>
      caller.accounts.any fun entry => decide (entry.pubkey = pubkey) && entry.writable }

theorem Unescalated.writebacks_within (unescalated : Unescalated host caller arguments call) (outcome : ProgramOutcome) :
    call.writebacks (outcome.within caller) = call.writebacks outcome := by
  by_cases success : outcome.success = true
  · have kept : (outcome.within caller).success = true := success
    have written := unescalated.written outcome
    rw [CpiCall.writebacks, if_pos success] at written
    rw [CpiCall.writebacks, CpiCall.writebacks, if_pos kept, if_pos success, ProgramOutcome.within,
      Table.entries_retain, filterMap_filter]
    refine filterMap_congr fun change member => ?_
    -- a change that is written back is of an account that the caller may write
    split
    · rfl
    · rename_i barred
      refine (Option.eq_none_iff_forall_ne_some.mpr fun back found => barred ?_).symm
      have mayWrite := written back (mem_filterMap.mpr ⟨change, member, found⟩)
      have same : back.pubkey = change.1 := by
        dsimp only at found
        split at found
        · cases found
        · split at found
          · cases found
            rfl
          · cases found
      obtain ⟨entry, inside, named, writable⟩ := same ▸ mayWrite
      exact any_eq_true.mpr ⟨entry, inside, by simp [named, writable]⟩
  · have failed : ¬ (outcome.within caller).success = true := success
    rw [CpiCall.writebacks, CpiCall.writebacks, if_neg failed, if_neg success]

/-- What the callee does to an account that the caller may not write never
reaches the caller: its memory, its logs and its meter end as they would without. -/
theorem Unescalated.finish_within (unescalated : Unescalated host caller arguments call) (outcome : ProgramOutcome) :
    call.finish host abi arguments (.ok (outcome.within caller)) = call.finish host abi arguments (.ok outcome) := by
  have published : call.publish host abi arguments (outcome.within caller) =
      call.publish host abi arguments outcome := by
    rw [CpiCall.publish, CpiCall.publish, CpiCall.dataLenChanges, CpiCall.dataLenChanges,
      unescalated.writebacks_within]
  rw [CpiCall.finish, CpiCall.finish, published]
  rfl

theorem invokeSigned_within (executor : ProgramContext → Except Failure ProgramOutcome)
    (unescalated : ∀ call, readCall host abi vm arguments = .ok call → Unescalated host caller arguments call) :
    invokeSigned host (fun context => (executor context).map (.within caller)) abi vm arguments =
      invokeSigned host executor abi vm arguments := by
  rw [invokeSigned, invokeSigned]
  cases read : readCall host abi vm arguments with
  | error ending => rfl
  | ok call =>
      dsimp only
      cases executor call.context with
      | error failure => cases failure <;> rfl
      | ok outcome => exact (unescalated call read).finish_within outcome

/-- An instruction for the program at key `target`, with a meta for the same key
and the given flags. -/
def callLayout (target : Pubkey) (isSigner isWritable : Bool) : List UInt8 :=
  leBytes 8 0x100000028 ++ leBytes 8 0x100000048 ++ leBytes 8 1 ++ leBytes 8 0 ++ leBytes 8 0 ++ target.bytes ++
    leBytes 8 0x100000028 ++ [flagByte isWritable, flagByte isSigner] ++ replicate 6 0

def callArguments : CpiArguments :=
  { instruction := regionProgramBase, infos := 0, infosCount := 0, seeds := 0, seedsCount := 0 }

/-- A program that has such an instruction in its read-only data. -/
def callerVm (isSigner isWritable : Bool) : VmState :=
  ((singleInstruction (exitInstruction 0)).start
    (.new (callLayout (.filled 32 7) isSigner isWritable) 4096 0 [] false) 1000 blankSnapshot .zeroed).vm

/-- Its context: the account is there, but neither writable nor a signer. -/
def callerContext : ProgramContext :=
  { accounts := [{ pubkey := .filled 32 7, account := .zeroed, writable := false }], instructionData := []
    sysvarSnapshot := none, signers := [.filled 32 9], programId := .zeroed, computeBudget := 1000, heapSize := 0 }

def CpiHost.bare : CpiHost := { Host.bare with isOnEd25519Curve := fun _ => false }

theorem plain_invocation_unescalated : (callerVm false false).programId = callerContext.programId ∧
      ∀ call, readCall .bare .c (callerVm false false) callArguments = .ok call →
        Unescalated .bare callerContext callArguments call := by
  refine ⟨rfl, (invocation_unescalated_iff .bare callerContext .c (callerVm false false) callArguments rfl).mpr ?_⟩
  intro request call read _
  have metas : (readRequest .bare .c (callerVm false false) callArguments).toOption.map (·.metas) =
      some [{ pubkey := .filled 32 7, isSigner := false, isWritable := false }] := by decide +kernel
  rw [read] at metas
  have listed : request.metas = [{ pubkey := .filled 32 7, isSigner := false, isWritable := false }] :=
    Option.some.inj metas
  constructor
  · intro accountMeta inside signer
    rw [listed, mem_singleton] at inside
    rw [inside] at signer
    cases signer
  · intro accountMeta inside writable
    rw [listed, mem_singleton] at inside
    rw [inside] at writable
    cases writable

/-- The callee gets a signer that the caller does not have, and write access to
an account that is read-only for the caller. -/
theorem flagged_invocation_escalates : ∃ call, readCall .bare .c (callerVm true true) callArguments = .ok call ∧
      Octets.filled 32 7 ∈ call.context.signers ∧
      (∃ entry ∈ call.context.accounts, entry.pubkey = Octets.filled 32 7 ∧ entry.writable = true) ∧
      ¬ Unescalated .bare callerContext callArguments call := by
  have passed : (readCall .bare .c (callerVm true true) callArguments).toOption.map
      (fun call => (call.context.signers, call.context.accounts)) =
      some ([.filled 32 7], [{ pubkey := .filled 32 7, account := .zeroed, writable := true }]) := by
    decide +kernel
  cases read : readCall .bare .c (callerVm true true) callArguments with
  | error ending =>
      rw [read] at passed
      cases passed
  | ok call =>
      rw [read] at passed
      obtain ⟨signers, accounts⟩ := Prod.mk.inj (Option.some.inj passed)
      have signs : .filled 32 7 ∈ call.context.signers := by
        rw [signers]
        exact mem_singleton_self _
      refine ⟨call, rfl, signs, ⟨_, accounts ▸ mem_singleton_self _, rfl, rfl⟩, ?_⟩
      intro unescalated
      obtain inside | ⟨place, within, _⟩ := unescalated.signers _ signs
      · exact absurd inside (by decide)
      · exact Nat.not_lt_zero place within

end Karstflow.Sbpf
