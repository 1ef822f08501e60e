import Mathlib.Algebra.BigOperators.Group.Finset.Basic
import Karstflow.Sbpf.Execution

namespace Karstflow.Sbpf

open Data Karstflow.Types

/-! The lamports that an instruction's accounts hold, with its changes applied. -/

def accountKeys (accounts : List InstructionAccount) : Finset Pubkey :=
  (accounts.map InstructionAccount.pubkey).toFinset

def accountBefore (accounts : List InstructionAccount) (key : Pubkey) : Option Account :=
  (accounts.find? fun entry => entry.pubkey = key).map InstructionAccount.account

def accountAfter (accounts : List InstructionAccount) (modified : Modified) (key : Pubkey) : Option Account :=
  (modified.get key).or (accountBefore accounts key)

def balanceAfter (accounts : List InstructionAccount) (modified : Modified) (key : Pubkey) : Nat :=
  (accountAfter accounts modified key).elim 0 Account.lamports

/-- The lamports of all accounts, each key counted once. -/
def heldLamports (accounts : List InstructionAccount) (modified : Modified) : Nat :=
  ∑ key ∈ accountKeys accounts, balanceAfter accounts modified key

section

variable {accounts : List InstructionAccount}

theorem mem_accountKeys : key ∈ accountKeys accounts ↔ ∃ entry ∈ accounts, entry.pubkey = key := by
  rw [accountKeys, List.mem_toFinset, List.mem_map]

theorem pubkey_of_find? (found : accounts.find? (fun entry => entry.pubkey = key) = some entry) :
    entry.pubkey = key := by
  have named := List.find?_some found
  exact of_decide_eq_true named

end

end Karstflow.Sbpf
