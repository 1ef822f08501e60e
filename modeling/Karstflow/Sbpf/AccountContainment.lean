import Karstflow.Sbpf.BytecodeVm
import Karstflow.Sbpf.InterpreterSafety

namespace Karstflow.Sbpf

variable {accounts : List InstructionAccount}

open Data Karstflow.Types List Option

/-! What a deployed program can do to the accounts of its instruction. -/

/-- Only accounts of the program lose lamports, or change their data or their
owner, and no lamports come or go. -/
structure Contained (context : ProgramContext) (modified : Modified) : Prop where
  owned : ∀ key before after, accountBefore context.accounts key = some before → modified.get key = some after →
    after.data ≠ before.data ∨ after.owner ≠ before.owner ∨ after.lamports < before.lamports →
    before.owner = context.programId
  conserved : heldLamports context.accounts modified = heldLamports context.accounts .empty

theorem bytes_readOctets : (readOctets size bytes offset).bytes = resizeBytes (bytes.drop offset) size := rfl

section

variable {right : List UInt8}

theorem drop_append_skip (sized : left.length = width) : (left ++ right).drop (width + offset) = right.drop offset := by
  rw [← sized, drop_append, drop_eq_nil_of_le (Nat.le_add_right _ _), nil_append, Nat.add_sub_cancel_left]

theorem readOctets_skip (sized : left.length = width) :
    readOctets size (left ++ right) (width + offset) = readOctets size right offset := by
  apply Octets.ext_bytes
  rw [bytes_readOctets, bytes_readOctets, drop_append_skip sized]

theorem readWord_skip (sized : left.length = width) :
    readWord (left ++ right) (width + offset) = readWord right offset := by
  rw [readWord, readWord, readOctets_skip sized]

theorem readOctets_front (array : Octets size) (rest : List UInt8) : readOctets size (array.bytes ++ rest) 0 = array := by
  apply Octets.ext_bytes
  have room : size - (array.bytes ++ rest).length = 0 := by
    rw [length_append, array.length_bytes]
    omega
  rw [bytes_readOctets, drop_zero, resizeBytes, take_left' array.length_bytes, room, replicate_zero, append_nil]

theorem readWord_front (fits : value ≤ u64Max) (rest : List UInt8) : readWord (leBytes 8 value ++ rest) 0 = value := by
  have read := readOctets_front ⟨leBytes 8 value, length_leBytes 8 value⟩ rest
  have small : value < 256 ^ 8 := Nat.lt_succ_of_le fits
  rw [readWord, read, leValue_leBytes, Nat.mod_eq_of_lt small]

end

/-- The fields of an account with what follows them. -/
def renderFields (account : DeserializedAccount) (spare : List UInt8) : List UInt8 :=
  account.owner.bytes ++ (leBytes 8 account.lamports ++ (leBytes 8 account.data.length ++ (account.data ++ spare)))

theorem length_renderFields : (renderFields account spare).length = 48 + account.data.length + spare.length := by
  simp only [renderFields, length_append, account.owner.length_bytes, length_leBytes]
  omega

theorem reads_renderFields
    (rendered : region = left ++ (header ++ (renderFields account spare ++ right))) (headed : header.length = 40)
    (lamports : account.lamports ≤ u64Max) (fits : account.data.length ≤ u64Max) :
    left.length + 88 + account.data.length ≤ region.length ∧ readOctets 32 region (left.length + 40) = account.owner ∧
      readWord region (left.length + 72) = account.lamports ∧ readWord region (left.length + 80) = account.data.length ∧
      region.extract (left.length + 88) (left.length + 88 + account.data.length) = account.data := by
  have owner : readOctets 32 region (left.length + (40 + 0)) = account.owner := by
    rw [rendered, readOctets_skip rfl, readOctets_skip headed, renderFields, append_assoc, readOctets_front]
  have balance : readWord region (left.length + (40 + (32 + 0))) = account.lamports := by
    rw [rendered, readWord_skip rfl, readWord_skip headed, renderFields, append_assoc,
      readWord_skip account.owner.length_bytes, append_assoc, readWord_front lamports]
  have length : readWord region (left.length + (40 + (32 + (8 + 0)))) = account.data.length := by
    rw [rendered, readWord_skip rfl, readWord_skip headed, renderFields, append_assoc,
      readWord_skip account.owner.length_bytes, append_assoc, readWord_skip (length_leBytes _ _), append_assoc,
      readWord_front fits]
  have data : region.drop (left.length + (40 + (32 + (8 + (8 + 0))))) = account.data ++ (spare ++ right) := by
    rw [rendered, drop_append_skip rfl, drop_append_skip headed, renderFields, append_assoc,
      drop_append_skip account.owner.length_bytes, append_assoc, drop_append_skip (length_leBytes _ _),
      append_assoc, drop_append_skip (length_leBytes _ _), append_assoc, drop_zero]
  refine ⟨?_, owner, balance, length, ?_⟩
  · simp only [rendered, length_append, length_renderFields, headed]
    omega
  · rw [extract, Nat.add_sub_cancel_left]
    exact (congrArg (take account.data.length) data).trans take_left

theorem readBack_renderFields (headed : header.length = 40) (lamports : account.lamports ≤ u64Max)
    (grown : account.data.length ≤ preLen + maxPermittedDataIncrease)
    (sized : account.data.length ≤ maxPermittedDataLength) :
    readBack (left ++ (header ++ (renderFields account spare ++ right))) index left.length preLen = .ok account := by
  obtain ⟨long, owner, balance, length, body⟩ := reads_renderFields
    (rfl : left ++ (header ++ (renderFields account spare ++ right)) = _) headed lamports
    (le_trans sized (by decide))
  rw [readBack]
  simp only [length, owner, balance, body]
  rw [if_neg (by omega), if_neg (by omega), if_neg (by omega), if_neg (by omega), if_neg (by omega), if_neg (by omega)]

section

variable (contents : InstructionAccount → DeserializedAccount)

/-- A region for the accounts with the given contents. -/
def refillFrom : List Pubkey → List InstructionAccount → List UInt8
  | _, [] => []
  | seen, entry :: rest =>
    (match seen.idxOf? entry.pubkey with
      | some _ => replicate 8 0
      | none => replicate 40 0 ++ renderFields (contents entry)
          (replicate (accountSpan entry.account.data.length - 88 - (contents entry).data.length) 0)) ++
      refillFrom (seen ++ [entry.pubkey]) rest

def refilledFrom : List Pubkey → List InstructionAccount → List (Option DeserializedAccount)
  | _, [] => []
  | seen, entry :: rest =>
    (match seen.idxOf? entry.pubkey with
      | some _ => none
      | none => if entry.writable then some (contents entry) else none) ::
      refilledFrom (seen ++ [entry.pubkey]) rest

variable {contents}

theorem deserializeFrom_refill (lamports : ∀ entry, (contents entry).lamports ≤ u64Max)
    (empty : ∀ entry, (contents entry).data = []) (right : List UInt8) (accounts : List InstructionAccount)
    (left : List UInt8) (seen : List Pubkey) (index : Nat) :
    deserializeFrom (left ++ (refillFrom contents seen accounts ++ right)) index left.length (metasFrom seen accounts) =
      .ok (refilledFrom contents seen accounts) := by
  induction accounts generalizing left seen index with
  | nil => rfl
  | cons entry rest ih =>
    rw [metasFrom, refillFrom, refilledFrom]
    cases seen.idxOf? entry.pubkey with
    | some first =>
      have later := ih (left ++ replicate 8 0) (seen ++ [entry.pubkey]) (index + 1)
      rw [length_append, length_replicate] at later
      simp only [append_assoc] at later ⊢
      rw [deserializeFrom, later]
      rfl
    | none =>
      have later := ih (left ++ (replicate 40 0 ++ renderFields (contents entry)
        (replicate (accountSpan entry.account.data.length - 88 - (contents entry).data.length) 0)))
        (seen ++ [entry.pubkey]) (index + 1)
      have span : (replicate 40 (0 : UInt8) ++ renderFields (contents entry)
          (replicate (accountSpan entry.account.data.length - 88 - (contents entry).data.length) 0)).length =
          accountSpan entry.account.data.length := by
        rw [length_append, length_renderFields, length_replicate, length_replicate, empty entry,
          length_nil, accountSpan]
        omega
      have none : (contents entry).data.length = 0 := by rw [empty entry, length_nil]
      rw [length_append, span] at later
      simp only [append_assoc] at later ⊢
      rw [deserializeFrom, readBack_renderFields length_replicate (lamports entry) (by omega) (by omega), later]
      rfl

/-- The accounts that are collected: those writable where they occur first,
if their contents differ. -/
theorem get_collectFrom_refilled : (collectFrom (refilledFrom contents seen accounts) accounts modified).get key =
      if key ∈ seen then modified.get key
      else ((accounts.find? fun entry => entry.pubkey = key).bind fun entry =>
        if entry.writable then changedAccount entry (contents entry) else none).or (modified.get key) := by
  induction accounts generalizing seen modified with
  | nil => simp [collectFrom, refilledFrom]
  | cons entry rest ih =>
    rw [refilledFrom]
    by_cases known : entry.pubkey ∈ seen
    · obtain ⟨first, found⟩ := isSome_iff_exists.mp (isSome_idxOf?.mpr known)
      rw [found, collectFrom, ih]
      by_cases other : entry.pubkey = key
      · simp [← other, known]
      · simp [other, Ne.symm other]
    · rw [idxOf?_eq_none_iff.mpr known]
      by_cases other : entry.pubkey = key
      · subst other
        cases writable : entry.writable with
        | false => simp [collectFrom, ih, writable]
        | true => cases changed : changedAccount entry (contents entry) with
          | none | some account => simp [collectFrom, ih, known, changed, writable]
      · have apart : ∀ account, (modified.insert entry.pubkey account).get key = modified.get key :=
          fun account => Table.get_insert_ne (symm other)
        cases entry.writable with
        | false => simp [collectFrom, ih, other, Ne.symm other]
        | true => cases changed : changedAccount entry (contents entry) with
          | none => simp [collectFrom, ih, other, Ne.symm other, changed]
          | some account => simp [collectFrom, ih, other, Ne.symm other, changed, apart]

end

/-- Contents that differ from the accounts in the balance of `target`. -/
def flipBalance (target : Pubkey) (entry : InstructionAccount) : DeserializedAccount :=
  { lamports := if entry.pubkey = target then (if entry.account.lamports = 0 then 1 else 0) else entry.account.lamports
    data := []
    owner := entry.account.owner }

theorem flipBalance_le (target : Pubkey) (entry : InstructionAccount) : (flipBalance target entry).lamports ≤ u64Max := by
  unfold flipBalance
  dsimp only
  split
  · split
    · decide
    · exact Nat.zero_le _
  · exact entry.account.lamports_le

theorem changedAccount_lamports {read : DeserializedAccount} (fits : read.lamports ≤ u64Max)
    (changed : changedAccount entry read = some account) : account.lamports = read.lamports := by
  unfold changedAccount at changed
  split at changed
  · cases changed
    exact Nat.mod_eq_of_lt (Nat.lt_succ_of_le fits)
  · cases changed

theorem balanceAfter_flip_ne (different : key ≠ target) :
    balanceAfter accounts (collectFrom (refilledFrom (flipBalance target) [] accounts) accounts .empty) key =
      balanceAfter accounts .empty key := by
  rw [balanceAfter, balanceAfter, accountAfter, accountAfter, get_collectFrom_refilled, if_neg not_mem_nil,
    accountBefore]
  cases found : accounts.find? fun entry => entry.pubkey = key with
  | none => rfl
  | some entry =>
    have same : entry.pubkey = key := pubkey_of_find? found
    rw [bind_some]
    split
    · cases changed : changedAccount entry (flipBalance target entry) with
      | none => rfl
      | some account =>
        have lamports := changedAccount_lamports (flipBalance_le target entry) changed
        rw [flipBalance, if_neg (same ▸ different)] at lamports
        exact lamports
    · rfl

section

variable (found : accounts.find? (fun entry => entry.pubkey = target) = some entry) (writable : entry.writable = true)

include found writable

theorem balanceAfter_flip_self :
    balanceAfter accounts (collectFrom (refilledFrom (flipBalance target) [] accounts) accounts .empty) target ≠
      balanceAfter accounts .empty target := by
  have same := pubkey_of_find? found
  have different : (flipBalance target entry).lamports ≠ entry.account.lamports := by
    unfold flipBalance
    dsimp only
    rw [if_pos same]
    split
    · omega
    · omega
  obtain ⟨account, changed⟩ : ∃ account, changedAccount entry (flipBalance target entry) = some account :=
    ⟨_, if_pos (.inl different)⟩
  have lamports := changedAccount_lamports (flipBalance_le target entry) changed
  rw [balanceAfter, balanceAfter, accountAfter, accountAfter, get_collectFrom_refilled, if_neg not_mem_nil,
    accountBefore, found, bind_some, if_pos writable, changed]
  change account.lamports ≠ entry.account.lamports
  rw [lamports]
  exact different

theorem heldLamports_flip :
    heldLamports accounts (collectFrom (refilledFrom (flipBalance target) [] accounts) accounts .empty) ≠
      heldLamports accounts .empty := by
  have same := pubkey_of_find? found
  have member := mem_accountKeys.mpr ⟨entry, mem_of_find?_eq_some found, same⟩
  have others : ∑ key ∈ (accountKeys accounts).erase target, balanceAfter accounts
      (collectFrom (refilledFrom (flipBalance target) [] accounts) accounts .empty) key =
      ∑ key ∈ (accountKeys accounts).erase target, balanceAfter accounts .empty key :=
    Finset.sum_congr rfl fun key kept => balanceAfter_flip_ne (Finset.ne_of_mem_erase kept)
  intro equal
  rw [heldLamports, heldLamports, ← Finset.add_sum_erase _ _ member, ← Finset.add_sum_erase _ _ member, others] at equal
  exact balanceAfter_flip_self found writable (add_right_cancel equal)

end

def callAndExit : LoadedProgram :=
  { instructions := [.assemble 0x85 0 0 0 5, .assemble 0x95 0 0 0 0]
    rodata := [], entryPoint := 0, callTargets := .empty, sbpfVersion := .v0, textBytes := [], textFileOffset := 0 }

/-- A machine whose syscalls put `region` in place of the input region: stores
only reach what a 64-bit address does, and the accounts here have any size. -/
def refillingVm (region : List UInt8) : BytecodeVm :=
  { syscalls :=
      { dispatch := fun _ vm => (.ok (), { vm with memory := { vm.memory with input := region } })
        hasHandler := fun _ => true }
    sysvarSnapshot := blankSnapshot
    overflowChecks := true }

def plainContext (accounts : List InstructionAccount) : ProgramContext :=
  { accounts := accounts, instructionData := [], sysvarSnapshot := none, signers := [], programId := .zeroed
    computeBudget := 2, heapSize := 0 }

theorem callAndExit_execute (region : List UInt8) (memory : MemoryMap) : ∃ consumed,
    execute 2 callAndExit memory 2 (refillingVm region).syscalls true blankSnapshot .zeroed = some (.returned
        { returnValue := 0, computeUnitsConsumed := consumed, logs := [], returnData := none, inputRegion := region }) :=
  ⟨_, rfl⟩

theorem callAndExit_validates : validates callAndExit [5] true = true := by decide

theorem refillingVm_runProgram (region : List UInt8) (few : accounts.length ≤ maxInstructionAccounts) : ∃ consumed,
    (refillingVm region).runProgram 2 callAndExit (plainContext accounts) = some (.ok
      { success := true, computeUnitsConsumed := consumed
        modifiedAccounts := collectModifiedAccounts region (metasFrom [] accounts) accounts
        logs := [], returnData := none }) := by
  obtain ⟨consumed, executed⟩ := callAndExit_execute region
    (callAndExit.memory 0 (leBytes 8 accounts.length ++ renderFrom [] accounts ++ leBytes 8 0 ++ [] ++ Pubkey.zeroed.bytes))
  refine ⟨consumed, ?_⟩
  rw [BytecodeVm.runProgram, serializeAligned]
  simp only [plainContext, not_lt.mpr few, if_false]
  exact congrArg (Option.map _) executed

theorem collectModifiedAccounts_refill :
    collectModifiedAccounts (replicate 8 0 ++ refillFrom (flipBalance target) [] accounts) (metasFrom [] accounts)
      accounts = collectFrom (refilledFrom (flipBalance target) [] accounts) accounts .empty := by
  have read := deserializeFrom_refill (flipBalance_le target) (fun entry => rfl) [] accounts (replicate 8 0) [] 0
  rw [append_nil, length_replicate] at read
  rw [collectModifiedAccounts, deserializeAligned, read]

theorem deserializeFrom_readOnly
    (closed : ∀ preLen, .account true preLen ∉ metas) (read : deserializeFrom buffer index offset metas = .ok results) :
    ∀ result ∈ results, result = none := by
  induction metas generalizing index offset results with
  | nil =>
    cases read
    exact fun result member => absurd member not_mem_nil
  | cons first rest ih =>
    have restClosed : ∀ preLen, .account true preLen ∉ rest :=
      fun preLen member => closed preLen (mem_cons_of_mem _ member)
    cases first with
    | duplicate place =>
      simp only [deserializeFrom, bind_eq_ok, pure_eq_ok] at read
      obtain ⟨others, later, rfl⟩ := read
      exact forall_mem_cons.mpr ⟨rfl, ih restClosed later⟩
    | account isWritable preLen =>
      simp only [deserializeFrom, bind_eq_ok, pure_eq_ok] at read
      obtain ⟨account, -, others, later, rfl⟩ := read
      cases isWritable with
      | true => exact absurd mem_cons_self (closed preLen)
      | false => exact forall_mem_cons.mpr ⟨rfl, ih restClosed later⟩

theorem collectFrom_none (nothing : ∀ result ∈ results, result = none) :
    collectFrom results accounts modified = modified := by
  induction results generalizing accounts with
  | nil => simp [collectFrom]
  | cons first rest ih =>
    cases nothing first mem_cons_self
    cases accounts with
    | nil => simp [collectFrom]
    | cons entry others =>
      exact ih fun result member => nothing result (mem_cons_of_mem _ member)

theorem mem_metasFrom (member : .account isWritable preLen ∈ metasFrom seen accounts) :
    ∃ entry, entry.pubkey ∉ seen ∧ accounts.find? (fun other => other.pubkey = entry.pubkey) = some entry ∧
      entry.writable = isWritable := by
  induction accounts generalizing seen with
  | nil => cases member
  | cons first rest ih =>
    rw [metasFrom, mem_cons] at member
    obtain here | later := member
    · cases found : seen.idxOf? first.pubkey with
      | some place =>
        rw [found] at here
        cases here
      | none =>
        rw [found] at here
        cases here
        exact ⟨first, idxOf?_eq_none_iff.mp found, by simp, rfl⟩
    · obtain ⟨entry, fresh, found, writable⟩ := ih later
      rw [mem_append, mem_singleton, not_or] at fresh
      refine ⟨entry, fresh.1, ?_, writable⟩
      rw [find?_cons_of_neg (by simpa using Ne.symm fresh.2)]
      exact found

theorem Contained.unchanged (context : ProgramContext) : Contained context .empty :=
  ⟨fun _ _ _ _ changed => absurd changed (some_ne_none _).symm, rfl⟩

theorem collectModifiedAccounts_readOnly
    (readOnly : ∀ entry, accounts.find? (fun other => other.pubkey = entry.pubkey) = some entry → entry.writable = false)
    (region : List UInt8) : collectModifiedAccounts region (metasFrom [] accounts) accounts = .empty := by
  have closed : ∀ preLen, .account true preLen ∉ metasFrom [] accounts := by
    intro preLen member
    obtain ⟨entry, -, found, writable⟩ := mem_metasFrom member
    rw [readOnly entry found] at writable
    cases writable
  unfold collectModifiedAccounts
  split
  · rfl
  · rename_i results read
    exact collectFrom_none (deserializeFrom_readOnly closed read)

theorem modifiedAccounts_haltOutcome (ended : haltOutcome context metas depletes halt = .ok outcome) :
    outcome.modifiedAccounts = .empty ∨
      ∃ region, outcome.modifiedAccounts = collectModifiedAccounts region metas context.accounts := by
  unfold haltOutcome at ended
  split at ended
  · cases ended
    exact .inr ⟨_, rfl⟩
  · cases ended
    exact .inl rfl
  · split at ended
    · cases ended
      exact .inl rfl
    · cases ended
  · cases ended

/-- No program can do more to the accounts of an instruction than the rules of
ownership allow exactly when none of them is writable where it first occurs, or
there are too many of them for any program to run. -/
theorem contained_iff (accounts : List InstructionAccount) :
    (∀ (vm : BytecodeVm) (program : LoadedProgram) (registeredSyscalls : List (BitVec 32)) (context : ProgramContext)
        (passes : Nat) (outcome : ProgramOutcome), validates program registeredSyscalls vm.overflowChecks = true →
      context.accounts = accounts → vm.runProgram passes program context = some (.ok outcome) →
      outcome.success = true → Contained context outcome.modifiedAccounts) ↔ maxInstructionAccounts < accounts.length ∨
      ∀ entry, accounts.find? (fun other => other.pubkey = entry.pubkey) = some entry → entry.writable = false := by
  constructor
  · intro safe
    by_contra exposed
    obtain ⟨few, reachable⟩ := not_or.mp exposed
    obtain ⟨entry, given⟩ := not_forall.mp reachable
    obtain ⟨found, writable⟩ := Classical.not_imp.mp given
    obtain ⟨consumed, ran⟩ := refillingVm_runProgram (replicate 8 0 ++ refillFrom (flipBalance entry.pubkey) [] accounts)
      (Nat.le_of_not_lt few)
    have contained := safe _ callAndExit [5] (plainContext accounts) 2 _ callAndExit_validates rfl ran rfl
    rw [collectModifiedAccounts_refill] at contained
    exact heldLamports_flip found (Bool.eq_true_of_not_eq_false writable) contained.conserved
  · intro closed vm program registeredSyscalls context passes outcome valid same ran success
    unfold BytecodeVm.runProgram at ran
    split at ran
    · cases ran
    rename_i serialized written
    obtain ⟨halt, -, ended⟩ := map_eq_some_iff.mp ran
    unfold serializeAligned at written
    split at written
    · cases written
    rename_i few
    cases written
    have readOnly := closed.resolve_left (same ▸ few)
    obtain nothing | collected := modifiedAccounts_haltOutcome ended
    · rw [nothing]
      exact .unchanged context
    · obtain ⟨region, collected⟩ := collected
      rw [collected, same, collectModifiedAccounts_readOnly readOnly region]
      exact .unchanged context

/-- A store to the balance of the first account, and an exit. -/
def storeAndExit : LoadedProgram :=
  { instructions := [.assemble 0x7A 1 0 80 0, .assemble 0x95 0 0 0 0]
    rodata := [], entryPoint := 0, callTargets := .empty, sbpfVersion := .v0, textBytes := [], textFileOffset := 0 }

def strangersAccount : InstructionAccount :=
  { pubkey := .filled 32 7
    account :=
      { lamports := 5, owner := .filled 32 8, executable := false, rentEpoch := 0, data := []
        lamports_le := by decide }
    writable := true }

def plainVm : BytecodeVm := { syscalls := noSyscalls, sysvarSnapshot := blankSnapshot, overflowChecks := true }

/-- A program empties an account that it does not own. -/
theorem storeAndExit_not_contained : validates storeAndExit [] true = true ∧ ∃ outcome,
      plainVm.runProgram 2 storeAndExit (plainContext [strangersAccount]) = some (.ok outcome) ∧
        outcome.success = true ∧ ¬ Contained (plainContext [strangersAccount]) outcome.modifiedAccounts := by
  refine ⟨by decide, ?_⟩
  have emptied : ((plainVm.runProgram 2 storeAndExit (plainContext [strangersAccount])).bind Except.toOption).any
      (fun outcome => outcome.success &&
        decide ((outcome.modifiedAccounts.get strangersAccount.pubkey).map Account.lamports = some 0)) = true := by
    decide +kernel
  obtain ⟨outcome, ran, emptied⟩ := (any_eq_true _ _).mp emptied
  obtain ⟨_ | _, ran, ended⟩ := bind_eq_some_iff.mp ran
  · cases ended
  cases ended
  rw [Bool.and_eq_true, decide_eq_true_eq, map_eq_some_iff] at emptied
  obtain ⟨success, after, found, balance⟩ := emptied
  refine ⟨outcome, ran, success, fun contained => ?_⟩
  have owned := contained.owned strangersAccount.pubkey strangersAccount.account after rfl found
    (.inr (.inr (by rw [balance]; decide)))
  exact absurd owned (by decide)

end Karstflow.Sbpf
