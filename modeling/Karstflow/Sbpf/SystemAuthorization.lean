import Karstflow.Sbpf.SystemProgram

namespace Karstflow.Sbpf.SystemProgram

open Data Karstflow.Types NonceVersionedState ExecutionContext Table Option Except

/-! Who has to sign for what a system instruction takes from an account. -/

/-- The account that the context lists under a key; the first, when the key
is listed again. -/
def before (context : ExecutionContext) (key : Pubkey) : Option Account :=
  (context.accounts.find? fun entry => decide (entry.pubkey = key)).map InstructionAccount.account

/-- The account lost lamports, or its owner or its data changed. -/
def Altered (old new : Account) : Prop :=
  new.lamports < old.lamports ∨ new.owner ≠ old.owner ∨ new.data ≠ old.data

/-- The modified accounts alter the account under `key`. -/
def Takes (context : ExecutionContext) (modified : Modified) (key : Pubkey) : Prop :=
  ∃ old new, before context key = some old ∧ modified.get key = some new ∧ Altered old new

/-- The address under `key` is derived from `base` by the seed and the owner
that the instruction carries. -/
def DerivationBase (host : Host) (context : ExecutionContext) (key base : Pubkey) : Instruction → Prop
  | .createAccountWithSeed => ∃ arguments,
      createAccountWithSeedArguments context.instructionData = .ok arguments ∧
      Pubkey.createWithSeed host.sha256 base arguments.seed arguments.owner = .ok key
  | .allocateWithSeed => ∃ arguments,
      allocateWithSeedArguments context.instructionData = .ok arguments ∧
      Pubkey.createWithSeed host.sha256 base arguments.seed arguments.owner = .ok key
  | .assignWithSeed => ∃ arguments,
      assignWithSeedArguments context.instructionData = .ok arguments ∧
      Pubkey.createWithSeed host.sha256 base arguments.seed arguments.owner = .ok key
  | .transferWithSeed => ∃ arguments,
      transferWithSeedArguments context.instructionData = .ok arguments ∧
      Pubkey.createWithSeed host.sha256 base arguments.seed arguments.fromOwner = .ok key
  | _ => False

/-- The nonce account under `key` stores `authority` before a nonce instruction. -/
def NonceAuthority (context : ExecutionContext) (key authority : Pubkey) : Instruction → Prop
  | .initializeNonceAccount | .advanceNonceAccount | .withdrawNonceAccount | .authorizeNonceAccount =>
    ∃ old version durableNonce lamportsPerSignature, before context key = some old ∧
      deserialize old.data =
        .ok (.initialized version authority durableNonce lamportsPerSignature)
  | _ => False

/-- The account signed, or the base that its address derives from, or the
authority that its nonce state names. -/
def Authorized (host : Host) (context : ExecutionContext) (instruction : Instruction) (key : Pubkey) :
    Prop :=
  key ∈ context.signers ∨
  (∃ base ∈ context.signers, DerivationBase host context key base instruction) ∨
  ∃ authority ∈ context.signers, NonceAuthority context key authority instruction

/-- The accounts that a handler takes from without having tested a signature,
read off the instruction's arguments and its accounts. -/
def Unchecked (context : ExecutionContext) (key : Pubkey) : Instruction → Prop
  | .createAccount => False
  | .createAccountAllowPrefund =>
    ∃ arguments, createArguments "CreateAccountAllowPrefund" context.instructionData = .ok arguments ∧
    ∃ funding, context.accounts[1]? = some funding ∧
      0 < arguments.lamports ∧ key = funding.pubkey
  | .assign =>
    ∃ owner, keyArgument "Assign" "owner" context.instructionData = .ok owner ∧
    ∃ entry, context.accounts[0]? = some entry ∧
      owner ≠ systemProgramId ∧ key = entry.pubkey
  | .transfer =>
    ∃ lamports, numberArgument "Transfer" "lamports" context.instructionData = .ok lamports ∧
    ∃ source, context.accounts[0]? = some source ∧ ∃ target, context.accounts[1]? = some target ∧
      0 < lamports ∧ source.pubkey ≠ target.pubkey ∧ key = source.pubkey
  | .allocate =>
    ∃ space, numberArgument "Allocate" "space" context.instructionData = .ok space ∧
    ∃ entry, context.accounts[0]? = some entry ∧
      0 < space ∧ key = entry.pubkey
  | .initializeNonceAccount | .advanceNonceAccount =>
    ∃ entry, context.accounts[0]? = some entry ∧ key = entry.pubkey
  | .authorizeNonceAccount =>
    ∃ newAuthority,
      keyArgument "AuthorizeNonceAccount" "new authority" context.instructionData = .ok newAuthority ∧
    ∃ entry, context.accounts[0]? = some entry ∧
    ∃ version authority durableNonce lamportsPerSignature,
      deserialize entry.account.data =
        .ok (.initialized version authority durableNonce lamportsPerSignature) ∧
      (authority ≠ newAuthority ∨ entry.account.data.length ≠ nonceAccountSize) ∧ key = entry.pubkey
  | .withdrawNonceAccount =>
    ∃ requested,
      numberArgument "WithdrawNonceAccount" "lamports" context.instructionData = .ok requested ∧
    ∃ source, context.accounts[0]? = some source ∧ ∃ target, context.accounts[1]? = some target ∧
    ∃ current, deserialize source.account.data = .ok current ∧
      key = source.pubkey ∧
      -- A second listing of the key is written last and undoes the debit.
      if source.pubkey = target.pubkey then Altered source.account (target.account.credit requested)
      else 0 < requested ∨ source.account.lamports = 0 ∧ current.isInitialized = true
  | .createAccountWithSeed =>
    ∃ arguments, createAccountWithSeedArguments context.instructionData = .ok arguments ∧
    ∃ source, context.accounts[0]? = some source ∧ ∃ target, context.accounts[1]? = some target ∧
    ∃ old, before context target.pubkey = some old ∧
      (key = source.pubkey ∧ source.pubkey ≠ target.pubkey ∧ 0 < arguments.lamports ∨
        key = target.pubkey ∧ (arguments.lamports < old.lamports ∨ arguments.owner ≠ old.owner ∨
          .replicate arguments.space 0 ≠ old.data))
  | .allocateWithSeed =>
    ∃ arguments, allocateWithSeedArguments context.instructionData = .ok arguments ∧
    ∃ entry, context.accounts[0]? = some entry ∧
      0 < arguments.space ∧ key = entry.pubkey
  | .assignWithSeed =>
    ∃ arguments, assignWithSeedArguments context.instructionData = .ok arguments ∧
    ∃ entry, context.accounts[0]? = some entry ∧
      arguments.owner ≠ entry.account.owner ∧ key = entry.pubkey
  | .transferWithSeed =>
    ∃ arguments, transferWithSeedArguments context.instructionData = .ok arguments ∧
    ∃ source, context.accounts[0]? = some source ∧ ∃ target, context.accounts[1]? = some target ∧
      source.pubkey ≠ target.pubkey ∧
      (0 < arguments.lamports ∧ key = source.pubkey ∨
        u64Max < target.account.lamports + arguments.lamports ∧ key = target.pubkey)
  | .upgradeNonceAccount => False

section

variable {target : InstructionAccount}

theorem altered_debit_iff (funded : amount ≤ old.lamports) : Altered old (old.debit amount) ↔ 0 < amount := by
  simp only [Altered, Account.debit_lamports, Account.debit_owner, Account.debit_data, ne_eq, not_true_eq_false,
    or_false]
  omega

theorem not_altered_credit : ¬ Altered old (old.credit amount) := by
  have kept := old.lamports_le_credit amount
  simp only [Altered, Account.credit_owner, Account.credit_data, ne_eq, not_true_eq_false, or_false]
  omega

theorem not_altered_self (account : Account) : ¬ Altered account account := by
  simp [Altered]

theorem before_first (first : context.accounts[0]? = some entry) :
    before context entry.pubkey = some entry.account := by
  cases listing : context.accounts with
  | nil => simp [listing] at first
  | cons head rest =>
    have same : head = entry := by simpa [listing] using first
    simp [before, listing, same]

theorem before_second (first : context.accounts[0]? = some source)
    (second : context.accounts[1]? = some target) (distinct : source.pubkey ≠ target.pubkey) :
    before context target.pubkey = some target.account := by
  match listing : context.accounts with
  | [] => simp [listing] at first
  | [head] => simp [listing] at second
  | head :: next :: rest =>
    have firstSame : head = source := by simpa [listing] using first
    have secondSame : next = target := by simpa [listing] using second
    simp [before, listing, firstSame, secondSame, distinct]

theorem takes_single (first : context.accounts[0]? = some entry) :
    Takes context (empty.insert entry.pubkey new) key ↔ key = entry.pubkey ∧ Altered entry.account new := by
  constructor
  · intro taken
    obtain ⟨old, written, listing, lookup, altered⟩ := taken
    rw [get_insert, get_empty] at lookup
    split at lookup
    · rename_i same
      cases lookup
      rw [same, before_first first] at listing
      cases listing
      exact ⟨same, altered⟩
    · cases lookup
  · intro taken
    obtain ⟨same, altered⟩ := taken
    rw [same]
    exact ⟨_, _, before_first first, get_insert_self _ _ _, altered⟩

theorem takes_pair (first : context.accounts[0]? = some source)
    (second : context.accounts[1]? = some target) (distinct : source.pubkey ≠ target.pubkey) :
    Takes context ((empty.insert source.pubkey paid).insert target.pubkey received) key ↔
      key = source.pubkey ∧ Altered source.account paid ∨ key = target.pubkey ∧ Altered target.account received := by
  constructor
  · intro taken
    obtain ⟨old, written, listing, lookup, altered⟩ := taken
    rw [get_insert] at lookup
    split at lookup
    · rename_i same
      cases lookup
      rw [same, before_second first second distinct] at listing
      cases listing
      exact .inr ⟨same, altered⟩
    · exact .inl ((takes_single first).mp ⟨old, written, listing, lookup, altered⟩)
  · intro taken
    obtain fromSource | fromTarget := taken
    · obtain ⟨same, altered⟩ := fromSource
      rw [same]
      refine ⟨_, _, before_first first, ?_, altered⟩
      rw [get_insert_ne distinct, get_insert_self]
    · obtain ⟨same, altered⟩ := fromTarget
      rw [same]
      exact ⟨_, _, before_second first second distinct, get_insert_self _ _ _, altered⟩

theorem takes_pair_same (first : context.accounts[0]? = some source) (same : source.pubkey = target.pubkey) :
    Takes context ((empty.insert source.pubkey paid).insert target.pubkey received) key ↔
      key = source.pubkey ∧ Altered source.account received := by
  rw [← same, insert_insert]
  exact takes_single first

theorem not_takes_empty : ¬ Takes context empty key := by
  rintro ⟨old, new, -, lookup, -⟩
  cases lookup

theorem createAccount_signed (signed : context.signers ≠ [])
    (ran : executeCreateAccount context = .ok modified) (taken : Takes context modified key) :
    key ∈ context.signers := by
  simp only [executeCreateAccount, bind_eq_ok, required, account_eq_ok, requireSigner_eq_ok, exists_const, signed,
    false_or, pure_eq_ok] at ran
  obtain ⟨-, arguments, -, -, source, first, target, second, -, sourceSigned, targetSigned, -, -, built⟩ := ran
  rw [← built] at taken
  by_cases same : source.pubkey = target.pubkey
  · rw [((takes_pair_same first same).mp taken).1]
    exact sourceSigned
  obtain fromSource | fromTarget := (takes_pair first second same).mp taken
  · rw [fromSource.1]
    exact sourceSigned
  · rw [fromTarget.1]
    exact targetSigned

theorem takes_assign_iff (ran : executeAssign context = .ok modified) :
    Takes context modified key ↔ Unchecked context key .assign := by
  simp only [executeAssign, bind_eq_ok, required, account_eq_ok] at ran
  obtain ⟨-, owner, parsed, entry, first, -, owned, ran⟩ := ran
  simp only [Unchecked, parsed, first, ok.injEq, some.injEq, exists_eq_left']
  split at ran
  · rename_i unchanged
    cases ran
    constructor
    · intro taken
      exact absurd taken not_takes_empty
    · intro taken
      exact absurd (unchanged.symm.trans owned) taken.1
  · cases ran
    rw [takes_single first, and_comm]
    simp [Altered, owned]

theorem takes_transfer_iff (ran : executeTransfer context = .ok modified) :
    Takes context modified key ↔ Unchecked context key .transfer := by
  simp only [executeTransfer, bind_eq_ok, required, account_eq_ok] at ran
  obtain ⟨-, lamports, parsed, source, first, target, second, -, -, funded, ran⟩ := ran
  simp only [Unchecked, parsed, first, second, ok.injEq, some.injEq, exists_eq_left']
  split at ran
  · rename_i same
    cases ran
    rw [takes_single first]
    simp [not_altered_self, same]
  · rename_i distinct
    cases ran
    rw [takes_pair first second distinct, altered_debit_iff funded]
    simp [not_altered_credit, distinct, and_comm]

theorem takes_allocate_iff (ran : executeAllocate context = .ok modified) :
    Takes context modified key ↔ Unchecked context key .allocate := by
  simp only [executeAllocate, bind_eq_ok, required, account_eq_ok, pure_eq_ok] at ran
  obtain ⟨-, space, parsed, -, entry, first, -, -, empty, built⟩ := ran
  simp only [Unchecked, parsed, first, ok.injEq, some.injEq, exists_eq_left']
  rw [← built, takes_single first, and_comm]
  simp [Altered, allocated, empty, pos_iff_ne_zero]

/-- The new account has signed; only the funding account is left to ask. -/
theorem prefund_taken (signed : context.signers ≠ [])
    (ran : executeCreateAccountAllowPrefund context = .ok modified) : (Takes context modified key →
      Unchecked context key .createAccountAllowPrefund ∨ key ∈ context.signers) ∧
    (Unchecked context key .createAccountAllowPrefund → Takes context modified key ∨ key ∈ context.signers) := by
  simp only [executeCreateAccountAllowPrefund, bind_eq_ok, required, account_eq_ok, requireSigner_eq_ok, exists_const,
    signed, false_or, fundPrefunded] at ran
  obtain ⟨-, arguments, parsed, -, -, target, first, -, targetSigned, -, ran⟩ := ran
  simp only [Unchecked, parsed, ok.injEq, exists_eq_left']
  split at ran
  · rename_i moves
    simp only [bind_eq_ok, required, account_eq_ok, pure_eq_ok] at ran
    obtain ⟨-, funding, second, -, funded, built⟩ := ran
    simp only [second, some.injEq, exists_eq_left', moves, true_and]
    by_cases same : target.pubkey = funding.pubkey
    · rw [← same] at built ⊢
      constructor
      · intro taken
        rw [← built, insert_insert] at taken
        exact .inl ((takes_single first).mp taken).1
      · intro named
        exact .inr (named ▸ targetSigned)
    · constructor
      · intro taken
        obtain ⟨old, new, listing, lookup, altered⟩ := taken
        by_cases here : key = target.pubkey
        · exact .inr (here ▸ targetSigned)
        · rw [← built, get_insert_ne here, get_insert] at lookup
          split at lookup
          · exact .inl (by assumption)
          · cases lookup
      · intro named
        subst named
        refine .inl ⟨_, _, before_second first second same, ?_, (altered_debit_iff funded).mpr moves⟩
        rw [← built, get_insert_ne (symm same), get_insert_self]
  · rename_i still
    cases ran
    constructor
    · intro taken
      rw [((takes_single first).mp taken).1]
      exact .inr targetSigned
    · rintro ⟨funding, -, moves, -⟩
      exact absurd moves still

theorem altered_withNonceState_iff : Altered old (withNonceState old state) ↔ state.serialize ≠ old.data := by
  simp [Altered, withNonceState]

theorem takes_initializeNonceAccount_iff (ran : executeInitializeNonceAccount host context = .ok modified) :
    Takes context modified key ↔ Unchecked context key .initializeNonceAccount := by
  simp only [executeInitializeNonceAccount, bind_eq_ok, required, account_eq_ok, snapshot_eq_ok, pure_eq_ok] at ran
  obtain ⟨-, authority, -, entry, first, -, -, current, read, fresh, snapshot, -, -, -, built⟩ := ran
  simp only [Unchecked, first, some.injEq, exists_eq_left']
  rw [← built, takes_single first, altered_withNonceState_iff, and_iff_left]
  -- The written state word says initialized; the old data has another size or another state word.
  intro same
  have sized : entry.account.data.length = nonceAccountSize := by
    rw [← same, length_serialize]
  rw [if_pos sized] at read
  cases current with
  | initialized => cases fresh
  | uninitialized version =>
    have word := deserialize_uninitialized read
    rw [← same, state_of_serialize_initialized] at word
    exact absurd word (by decide)

theorem takes_advanceNonceAccount_iff (ran : executeAdvanceNonceAccount host context = .ok modified) :
    Takes context modified key ↔ Unchecked context key .advanceNonceAccount := by
  simp only [executeAdvanceNonceAccount, bind_eq_ok, required, account_eq_ok, pure_eq_ok] at ran
  obtain ⟨-, entry, first, -, current, read, next, advanced, built⟩ := ran
  simp only [Unchecked, first, some.injEq, exists_eq_left']
  rw [← built, takes_single first, altered_withNonceState_iff, and_iff_left]
  cases current with
  | uninitialized version => cases advanced
  | initialized version authority durableNonce lamportsPerSignature =>
    simp only [advancedState, bind_eq_ok, required, snapshot_eq_ok, pure_eq_ok] at advanced
    obtain ⟨-, snapshot, -, -, moved, reached⟩ := advanced
    rw [← reached]
    exact serialize_ne_of_durableNonce read moved

theorem takes_authorizeNonceAccount_iff (ran : executeAuthorizeNonceAccount context = .ok modified) :
    Takes context modified key ↔ Unchecked context key .authorizeNonceAccount := by
  simp only [executeAuthorizeNonceAccount, bind_eq_ok, required, account_eq_ok, pure_eq_ok] at ran
  obtain ⟨-, newAuthority, parsed, entry, first, -, current, read, next, moved, built⟩ := ran
  cases current with
  | uninitialized version => cases moved
  | initialized version authority durableNonce lamportsPerSignature =>
    simp only [authorizedState, bind_eq_ok, required, pure_eq_ok] at moved
    obtain ⟨-, reached⟩ := moved
    simp only [Unchecked, parsed, first, read, ok.injEq, some.injEq, exists_eq_left', initialized.injEq]
    rw [← built, takes_single first, altered_withNonceState_iff, ← reached]
    constructor
    · intro taken
      refine ⟨version, authority, durableNonce, lamportsPerSignature, ⟨rfl, rfl, rfl, rfl⟩, ?_, taken.1⟩
      by_cases same : authority = newAuthority
      · refine .inr fun sized => taken.2 ?_
        rw [← same]
        exact serialize_of_deserialize read sized
      · exact .inl same
    · rintro ⟨_, _, _, _, ⟨rfl, rfl, rfl, rfl⟩, changed, here⟩
      refine ⟨here, ?_⟩
      obtain other | sized := changed
      · exact serialize_ne_of_authority read other
      · intro same
        apply sized
        rw [← same, length_serialize]

theorem altered_withdrawal_iff (read : deserialize source.account.data = .ok current)
    (withdrawn : withdrawal host context source requested current = .ok (left, signer)) :
    Altered source.account (left.debit requested) ↔
      0 < requested ∨ source.account.lamports = 0 ∧ current.isInitialized = true := by
  cases current with
  | uninitialized version =>
    simp only [withdrawal, bind_eq_ok, required, pure_eq_ok, Prod.mk.injEq] at withdrawn
    obtain ⟨funded, kept, -⟩ := withdrawn
    rw [← kept, altered_debit_iff funded]
    simp [isInitialized]
  | initialized version authority durableNonce lamportsPerSignature =>
    simp only [withdrawal] at withdrawn
    split at withdrawn
    · simp only [bind_eq_ok, required, pure_eq_ok, Prod.mk.injEq] at withdrawn
      obtain ⟨snapshot, -, -, kept, -⟩ := withdrawn
      have reset : (uninitialized nonceVersionCurrent).serialize ≠ source.account.data := by
        intro same
        obtain ⟨-, -, word, -⟩ := deserialize_initialized read
        rw [← same, state_of_serialize_uninitialized] at word
        exact absurd word (by decide)
      constructor
      · intro
        simp only [isInitialized, and_true]
        omega
      · intro
        refine .inr (.inr ?_)
        rw [← kept]
        exact reset
    · simp only [bind_eq_ok, required, pure_eq_ok, Prod.mk.injEq] at withdrawn
      obtain ⟨snapshot, -, -, funded, kept, -⟩ := withdrawn
      rw [← kept, altered_debit_iff (by omega)]
      constructor
      · exact .inl
      · rintro (moves | ⟨broke, -⟩)
        · exact moves
        · omega

theorem takes_withdrawNonceAccount_iff (ran : executeWithdrawNonceAccount host context = .ok modified) :
    Takes context modified key ↔ Unchecked context key .withdrawNonceAccount := by
  simp only [executeWithdrawNonceAccount, bind_eq_ok, required, account_eq_ok, pure_eq_ok] at ran
  obtain ⟨-, requested, parsed, source, first, target, second, -, current, read, ⟨left, signer⟩, withdrawn,
    -, built⟩ := ran
  simp only [Unchecked, parsed, first, second, read, ok.injEq, some.injEq, exists_eq_left']
  rw [← built]
  by_cases same : source.pubkey = target.pubkey
  · rw [takes_pair_same first same, if_pos same]
  · rw [takes_pair first second same, if_neg same]
    simp only [not_altered_credit, and_false, or_false, and_congr_right_iff]
    intro here
    exact altered_withdrawal_iff read withdrawn

theorem requireDerived_eq_ok : requireDerived host arguments key = .ok done ↔
      Pubkey.createWithSeed host.sha256 arguments.base arguments.seed arguments.owner = .ok key := by
  unfold requireDerived
  cases found : Pubkey.createWithSeed host.sha256 arguments.base arguments.seed arguments.owner with
  | error reason => simp
  | ok address =>
    rw [ok.injEq]
    exact require_eq_ok.trans eq_comm

theorem takes_createAccountWithSeed_iff (ran : executeCreateAccountWithSeed host context = .ok modified) :
    Takes context modified key ↔ Unchecked context key .createAccountWithSeed := by
  simp only [executeCreateAccountWithSeed, bind_eq_ok, require_eq_ok, requireDerived_eq_ok, exists_const, account_eq_ok,
    pure_eq_ok] at ran
  obtain ⟨-, arguments, parsed, target, second, -, source, first, ⟨empty, -⟩, -, funded, built⟩ := ran
  have bounded := source.account.lamports_le
  have stored : arguments.lamports % (u64Max + 1) = arguments.lamports := Nat.mod_eq_of_lt (by omega)
  simp only [Unchecked, parsed, first, second, ok.injEq, some.injEq, exists_eq_left']
  rw [← built]
  by_cases same : source.pubkey = target.pubkey
  · rw [takes_pair_same first same, ← same, before_first first]
    simp [Altered, empty, stored]
  · rw [takes_pair first second same, before_second first second same, altered_debit_iff funded]
    simp [Altered, empty, stored, same]

theorem takes_allocateWithSeed_iff (ran : executeAllocateWithSeed host context = .ok modified) :
    Takes context modified key ↔ Unchecked context key .allocateWithSeed := by
  simp only [executeAllocateWithSeed, bind_eq_ok, require_eq_ok, requireDerived_eq_ok, exists_const, account_eq_ok,
    pure_eq_ok] at ran
  obtain ⟨-, arguments, parsed, entry, first, -, ⟨empty, -⟩, -, built⟩ := ran
  simp only [Unchecked, parsed, first, ok.injEq, some.injEq, exists_eq_left']
  rw [← built, takes_single first, and_comm]
  simp [Altered, empty, pos_iff_ne_zero]

theorem takes_assignWithSeed_iff (ran : executeAssignWithSeed host context = .ok modified) :
    Takes context modified key ↔ Unchecked context key .assignWithSeed := by
  simp only [executeAssignWithSeed, bind_eq_ok, require_eq_ok, requireDerived_eq_ok, exists_const, account_eq_ok,
    pure_eq_ok] at ran
  obtain ⟨-, arguments, parsed, entry, first, -, built⟩ := ran
  simp only [Unchecked, parsed, first, ok.injEq, some.injEq, exists_eq_left']
  rw [← built, takes_single first, and_comm]
  simp [Altered]

theorem takes_transferWithSeed_iff (ran : executeTransferWithSeed host context = .ok modified) :
    Takes context modified key ↔ Unchecked context key .transferWithSeed := by
  simp only [executeTransferWithSeed, bind_eq_ok, required, account_eq_ok] at ran
  obtain ⟨-, arguments, parsed, source, first, target, second, -, funded, ran⟩ := ran
  simp only [Unchecked, parsed, first, second, ok.injEq, some.injEq, exists_eq_left']
  split at ran
  · rename_i same
    cases ran
    rw [takes_single first]
    simp [not_altered_self, same]
  rename_i distinct
  simp only [bind_eq_ok, pure_eq_ok] at ran
  obtain ⟨received, added, built⟩ := ran
  have sender := source.account.lamports_le
  have receiver := target.account.lamports_le
  have wrapped : received % (u64Max + 1) < target.account.lamports ↔
      u64Max < target.account.lamports + arguments.lamports := by
    unfold Host.fit at added
    split at added
    · cases added
      rw [Nat.mod_eq_of_lt (by omega)]
      omega
    split at added
    · cases added
    · cases added
      rw [Nat.mod_mod, Nat.mod_eq_sub_mod (by omega), Nat.mod_eq_of_lt (by omega)]
      omega
  rw [← built, takes_pair first second distinct, altered_debit_iff funded]
  simp [Altered, distinct, wrapped, and_comm]

theorem dispatch_taken (signed : context.signers ≠ [])
    (ran : dispatch host context instruction = .ok modified) (counted : instruction ≠ .upgradeNonceAccount) :
    (Takes context modified key → Unchecked context key instruction ∨ key ∈ context.signers) ∧
    (Unchecked context key instruction → Takes context modified key ∨ key ∈ context.signers) := by
  have exactly (agree : Takes context modified key ↔ Unchecked context key instruction) :
      (Takes context modified key → Unchecked context key instruction ∨ key ∈ context.signers) ∧
      (Unchecked context key instruction → Takes context modified key ∨ key ∈ context.signers) :=
    ⟨fun taken => .inl (agree.mp taken), fun unchecked => .inl (agree.mpr unchecked)⟩
  cases instruction with
  | createAccount => exact ⟨fun taken => .inr (createAccount_signed signed ran taken), False.elim⟩
  | createAccountAllowPrefund => exact prefund_taken signed ran
  | assign => exact exactly (takes_assign_iff ran)
  | transfer => exact exactly (takes_transfer_iff ran)
  | allocate => exact exactly (takes_allocate_iff ran)
  | initializeNonceAccount => exact exactly (takes_initializeNonceAccount_iff ran)
  | advanceNonceAccount => exact exactly (takes_advanceNonceAccount_iff ran)
  | withdrawNonceAccount => exact exactly (takes_withdrawNonceAccount_iff ran)
  | authorizeNonceAccount => exact exactly (takes_authorizeNonceAccount_iff ran)
  | createAccountWithSeed => exact exactly (takes_createAccountWithSeed_iff ran)
  | allocateWithSeed => exact exactly (takes_allocateWithSeed_iff ran)
  | assignWithSeed => exact exactly (takes_assignWithSeed_iff ran)
  | transferWithSeed => exact exactly (takes_transferWithSeed_iff ran)
  | upgradeNonceAccount => exact absurd rfl counted

/-- Every account that a successful instruction takes from is authorized. Only
an upgrade of a nonce account is exempt. -/
def Secured (host : Host) (context : ExecutionContext) (outcome : ExecutionOutcome) : Prop :=
  ∀ instruction, instructionOf context.instructionData = some instruction →
    instruction ≠ .upgradeNonceAccount →
    ∀ key, Takes context outcome.modifiedAccounts key → Authorized host context instruction key

/-- A successful instruction is secured exactly when the accounts that its
handler never asked about are authorized. -/
theorem secured_iff_unchecked_authorized {outcome : ExecutionOutcome} (signed : context.signers ≠ [])
    (ran : execute host context = .ok outcome) : Secured host context outcome ↔
      ∀ instruction, instructionOf context.instructionData = some instruction →
        ∀ key, Unchecked context key instruction → Authorized host context instruction key := by
  obtain nothing | dispatched := execute_ok ran
  · -- Empty data reads as discriminant zero, whose handler checks what it takes.
    obtain ⟨empty, untouched⟩ := nothing
    constructor
    · intro secured instruction found key unchecked
      rw [empty] at found
      cases found
      exact unchecked.elim
    · intro asked instruction found counted key taken
      rw [untouched] at taken
      exact absurd taken not_takes_empty
  · obtain ⟨instruction, found, dispatched⟩ := dispatched
    constructor
    · intro secured other foundOther key unchecked
      cases found.symm.trans foundOther
      by_cases exempt : instruction = .upgradeNonceAccount
      · rw [exempt] at unchecked
        exact unchecked.elim
      · obtain taken | keySigned := (dispatch_taken signed dispatched exempt).2 unchecked
        · exact secured instruction found exempt key taken
        · exact .inl keySigned
    · intro asked other foundOther counted key taken
      cases found.symm.trans foundOther
      obtain unchecked | keySigned := (dispatch_taken signed dispatched counted).1 taken
      · exact asked instruction found key unchecked
      · exact .inl keySigned

end

def wallet (lamports : Nat) : Account := Account.zeroed.setLamports lamports

/-- A transfer of `lamports` from the first account to the second. -/
def transferContext (lamports : Nat) (signer : UInt8) : ExecutionContext :=
  { accounts := [⟨.filled 32 1, wallet 1000, true⟩, ⟨.filled 32 2, wallet 0, true⟩]
    instructionData := leBytes 4 2 ++ leBytes 8 lamports
    sysvarSnapshot := none
    signers := [.filled 32 signer] }

/-- The third key signs, and the first account pays. -/
theorem unsigned_transfer_not_secured : ∃ outcome, execute Host.bare (transferContext 100 3) = .ok outcome ∧
      (transferContext 100 3).signers ≠ [] ∧ ¬ Secured Host.bare (transferContext 100 3) outcome := by
  refine ⟨_, rfl, by decide, ?_⟩
  intro secured
  have authorized := secured .transfer rfl (by decide) (.filled 32 1)
    ⟨wallet 1000, (wallet 1000).debit 100, rfl, rfl, .inl (by decide)⟩
  obtain keySigned | ⟨base, -, derived⟩ | ⟨authority, -, stored⟩ := authorized
  · exact absurd keySigned (by decide)
  · exact derived
  · exact stored

/-- The account that pays signs. -/
theorem signed_transfer_secured : ∃ outcome, execute Host.bare (transferContext 100 1) = .ok outcome ∧
      Secured Host.bare (transferContext 100 1) outcome := by
  refine ⟨_, rfl, (secured_iff_unchecked_authorized (by decide) rfl).mpr ?_⟩
  rintro instruction ⟨⟩ key ⟨lamports, _, source, ⟨⟩, target, _, _, _, rfl⟩
  exact .inl (by decide)

end Karstflow.Sbpf.SystemProgram
