import Karstflow.Runtime.Landing

namespace Karstflow.Runtime

open Data Karstflow.Types Option

/-- The transaction succeeds, or the account pays for it or holds its nonce. -/
def Call.MayChange (platform : Platform) (ledger : Ledger) (call : Call) (key : Pubkey) : Prop :=
  (∃ result, (call.process platform ledger).2 = some result ∧ result.success = true) ∨
    call.transaction.accountKeys.head? = some key ∨
    ∃ tracker landing info, admission platform ledger call.transaction call.computeLimit = .landed tracker landing ∧
      landing.durableNonce = some info ∧ info.nonceKey = key

theorem Call.changes (platform : Platform) (ledger : Ledger) (call : Call) (key : Pubkey) :
    (call.process platform ledger).1.shared.published.get key = ledger.shared.published.get key ∨
      call.MayChange platform ledger key := by
  cases processed : call.process platform ledger with | mk after answer =>
  cases processTransaction_outcome processed with
  | turnedAway | unloaded => exact .inl rfl
  | @executed _ landing _ _ state error _ result landed loads ran effect =>
    cases error with
    | none =>
      -- the loop came to its end, so the commit reports success
      have success : result.success = true := by
        simp only [Call.process, processTransaction, landed, processLanded, loads, ran] at processed
        cases processed
        rfl
      exact .inr (.inl ⟨result, congrArg Prod.snd processed, success⟩)
    | some error =>
      rw [effect.published, Table.get_overlay, elim_some]
      cases written : landing.failureWrites.get key with
      | none => exact .inl none_or
      | some account =>
        obtain ⟨rfl, _⟩ | ⟨info, durable, rfl, _⟩ := get_failureWrites written
        · obtain ⟨rest, keys⟩ := (admission_eq_landed landed).payer_first
          exact .inr (.inr (.inl (by rw [keys]; rfl)))
        · exact .inr (.inr (.inr ⟨_, landing, info, landed, durable, rfl⟩))

/-- Failed transactions leave no trace in accounts other than payers and nonces. -/
theorem afterCalls_changes (platform : Platform) (start : Ledger) (calls : List Call) (key : Pubkey) :
    (start.afterCalls platform calls).shared.published.get key = start.shared.published.get key ∨
      ∃ before call rest, calls = before ++ call :: rest ∧
        call.MayChange platform (start.afterCalls platform before) key := by
  induction calls generalizing start with
  | nil => exact .inl rfl
  | cons call rest ih =>
    obtain kept | ⟨before, other, later, rfl, may⟩ := ih (call.process platform start).1
    · obtain same | may := call.changes platform start key
      · exact .inl (kept.trans same)
      · exact .inr ⟨[], call, rest, rfl, may⟩
    · exact .inr ⟨call :: before, other, later, rfl, may⟩

end Karstflow.Runtime
