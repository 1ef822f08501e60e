import Karstflow.Alpenglow.PoolRules

namespace Karstflow.Alpenglow

open Data List

/-! # Slots that stay tracked

The pool drops the slots below the first unpruned one, and that slot only moves
up. What it holds for the other slots is what the calls have put there.
-/

namespace Pool

variable {pool after : Pool}

def parentStatus (pool : Pool) (block : BlockId) : Option ParentStatus :=
  (pool.slotState block.slot).parents.get block.hash

/-- The votes and certificates of the tracked slots are the same, and the blocks
in `told` have learnt that their parents are certified. -/
structure Follows (told : List BlockId) (pool after : Pool) : Prop where
  info : after.epochInfo = pool.epochInfo
  first : pool.firstUnprunedSlot ≤ after.firstUnprunedSlot
  upkeep : ∀ slot, after.firstUnprunedSlot ≤ slot →
    SlotState.Upkeep (pool.slotState slot) (after.slotState slot)
  certs : ∀ slot, after.firstUnprunedSlot ≤ slot → (after.slotState slot).certs = (pool.slotState slot).certs
  parents : ∀ block, after.firstUnprunedSlot ≤ block.slot →
    after.parentStatus block = if block ∈ told then some .certified else pool.parentStatus block

namespace Follows

theorem of_states (info : after.epochInfo = pool.epochInfo) (first : pool.firstUnprunedSlot ≤ after.firstUnprunedSlot)
    (states : ∀ slot, after.firstUnprunedSlot ≤ slot → after.slotState slot = pool.slotState slot) :
    Follows [] pool after := by
  refine ⟨info, first, fun slot tracked => ?_, fun slot tracked => ?_, fun block tracked => ?_⟩
  · rw [states slot tracked]
    exact .refl _
  · rw [states slot tracked]
  · rw [if_neg not_mem_nil, parentStatus, states _ tracked, parentStatus]

theorem same (info : after.epochInfo = pool.epochInfo) (own : after.ownId = pool.ownId)
    (finality : after.finality = pool.finality) (states : after.slotStates = pool.slotStates) :
    Follows [] pool after := by
  refine of_states info (le_of_eq ?_) fun slot _ => ?_
  · rw [firstUnprunedSlot, firstUnprunedSlot, finality]
  · rw [slotState, slotState, states, own]

theorem trans (first : Follows told pool middle) (second : Follows told' middle after) :
    Follows (told ++ told') pool after := by
  have tracked : ∀ {slot}, after.firstUnprunedSlot ≤ slot → middle.firstUnprunedSlot ≤ slot :=
    le_trans second.first
  refine ⟨second.info.trans first.info, le_trans first.first second.first, ?_, ?_, ?_⟩
  · intro slot inside
    exact (first.upkeep slot (tracked inside)).trans (second.upkeep slot inside)
  · intro slot inside
    exact (second.certs slot inside).trans (first.certs slot (tracked inside))
  · intro block inside
    rw [second.parents block inside, first.parents block (tracked inside)]
    by_cases later : block ∈ told'
    · rw [if_pos later, if_pos (mem_append_right _ later)]
    · by_cases earlier : block ∈ told
      · rw [if_neg later, if_pos earlier, if_pos (mem_append_left _ earlier)]
      · rw [if_neg later, if_neg earlier, if_neg (by simp [later, earlier])]

end Follows

theorem finalizeWith_follows {call : FinalityCall}
    (ran : pool.finalizeWith (call.apply pool.finality) out = .ok (after, out')) :
    Follows [] pool after ∧ after.s2nWaiting = pool.s2nWaiting := by
  obtain ⟨⟨finality, event⟩, called, ran⟩ := bind_eq_ok.mp ran
  obtain ⟨⟨parentReady, ready⟩, marked, ran⟩ := bind_eq_ok.mp ran
  obtain ⟨sent, sending, done⟩ := bind_eq_ok.mp ran
  cases done
  refine ⟨.of_states rfl (FinalityCall.apply_effect called).first_le fun slot tracked => ?_, rfl⟩
  exact (slotState_prune _ slot).trans (if_pos tracked)

theorem notifyChild_follows (ran : pool.notifyChild block out = .ok (after, out')) :
    Follows [block] pool after ∧ after.s2nWaiting = pool.s2nWaiting := by
  obtain ⟨⟨state, notify⟩, answered, done⟩ := bind_eq_ok.mp ran
  cases done
  obtain ⟨upkeep, certs⟩ := SlotState.notifyParentCertified_upkeep answered
  have marked := (SlotState.notifyParentCertified_spec answered).1.upkeep.2.2
  refine ⟨⟨rfl, le_refl _, fun slot _ => ?_, fun slot _ => ?_, fun other _ => ?_⟩, rfl⟩
  · rw [slotState_setState]
    split
    · next here => exact here ▸ upkeep
    · exact .refl _
  · rw [slotState_setState]
    split
    · next here => exact here ▸ certs
    · rfl
  · rw [parentStatus, slotState_setState]
    by_cases here : other.slot = block.slot
    · rw [if_pos here, marked, Table.get_insert]
      by_cases hash : other.hash = block.hash
      · have same : other = block := by
          cases other
          simp_all
        rw [if_pos hash, if_pos (mem_singleton.mpr same)]
      · rw [if_neg hash, if_neg fun member => hash (congrArg BlockId.hash (mem_singleton.mp member)),
          parentStatus, here]
    · rw [if_neg here, if_neg fun member => here (congrArg BlockId.slot (mem_singleton.mp member)), parentStatus]

/-- Nobody waits for the block any more. -/
def Unparks (pool after : Pool) (block : BlockId) : Prop :=
  ∀ parent, after.s2nWaiting.get parent = if parent = block then none else pool.s2nWaiting.get parent

theorem notifyWaiting_follows (ran : pool.notifyWaiting block out = .ok (after, out')) :
    Follows (pool.s2nWaiting.get block).toList pool after ∧ Unparks pool after block := by
  rw [notifyWaiting] at ran
  split at ran
  · rename_i nobody
    cases ran
    rw [nobody]
    refine ⟨.same rfl rfl rfl rfl, fun parent => ?_⟩
    split
    · next here => rw [here, nobody]
    · rfl
  rename_i child waiting
  obtain ⟨follows, unparked⟩ := notifyChild_follows ran
  rw [waiting]
  have parked : Follows [] pool { pool with s2nWaiting := pool.s2nWaiting.erase block } := .same rfl rfl rfl rfl
  refine ⟨parked.trans follows, fun parent => ?_⟩
  rw [unparked]
  split
  · next here => rw [here, Table.get_erase_self]
  · next there => rw [Table.get_erase_ne there]

theorem markCertified_follows (ran : pool.markCertified block out = .ok (after, out')) :
    Follows (pool.s2nWaiting.get block).toList pool after ∧ Unparks pool after block := by
  obtain ⟨⟨middle, out₁⟩, notified, ran⟩ := bind_eq_ok.mp ran
  obtain ⟨⟨parentReady, parents⟩, marked, done⟩ := bind_eq_ok.mp ran
  cases done
  obtain ⟨follows, waiting⟩ := notifyWaiting_follows notified
  have whole := follows.trans (@Follows.same middle { middle with parentReady } rfl rfl rfl rfl)
  rw [append_nil] at whole
  exact ⟨whole, waiting⟩

theorem addValidCert_follows (ran : pool.addValidCert cert out = .ok (after, out')) :
    match (PoolCause.certStored cert).certified with
    | some block =>
      Follows (pool.s2nWaiting.get block).toList (pool.storeCert cert) after ∧ Unparks pool after block
    | none => Follows [] (pool.storeCert cert) after ∧ after.s2nWaiting = pool.s2nWaiting := by
  cases cert with
  | notar cert =>
    obtain ⟨⟨finalized, out₂⟩, finalizing, ran⟩ := bind_eq_ok.mp ran
    obtain ⟨⟨certified, out₁⟩, certifying, done⟩ := bind_eq_ok.mp ran
    cases done
    rcases @finalizeWith_follows (pool.storeCert (.notar cert)) _ _ _
      (.markNotarized ⟨cert.slot, cert.blockHash⟩) finalizing with ⟨finality, waiting⟩
    obtain ⟨follows, unparks⟩ := markCertified_follows certifying
    rw [waiting] at follows
    rw [Unparks, waiting] at unparks
    exact ⟨finality.trans follows, unparks⟩
  | notarFallback cert =>
    obtain ⟨⟨middle, out₁⟩, certifying, done⟩ := bind_eq_ok.mp ran
    cases done
    exact markCertified_follows certifying
  | skip cert =>
    obtain ⟨⟨parentReady, parents⟩, marked, done⟩ := bind_eq_ok.mp ran
    cases done
    exact ⟨.same rfl rfl rfl rfl, rfl⟩
  | fastFinal cert =>
    obtain ⟨⟨middle, out₁⟩, finalizing, done⟩ := bind_eq_ok.mp ran
    cases done
    exact @finalizeWith_follows (pool.storeCert (.fastFinal cert)) _ _ _
      (.markFastFinalized ⟨cert.slot, cert.blockHash⟩) finalizing
  | final cert =>
    obtain ⟨⟨middle, out₁⟩, finalizing, done⟩ := bind_eq_ok.mp ran
    cases done
    exact @finalizeWith_follows (pool.storeCert (.final cert)) _ _ _ (.markFinalized cert.slot) finalizing

theorem withCounted_follows (pool : Pool) (vote : Vote) (state : SlotState) :
    Follows [] (pool.setState vote.slot state) (pool.withCounted vote state) ∧
      (pool.withCounted vote state).s2nWaiting = pool.s2nWaiting := by
  rw [withCounted, recordOwn]
  split
  · exact ⟨.same rfl rfl rfl rfl, rfl⟩
  · exact ⟨.same rfl rfl rfl rfl, rfl⟩

structure KeepsVotes (pool after : Pool) : Prop where
  info : after.epochInfo = pool.epochInfo
  first : pool.firstUnprunedSlot ≤ after.firstUnprunedSlot
  upkeep : ∀ slot, after.firstUnprunedSlot ≤ slot →
    SlotState.Upkeep (pool.slotState slot) (after.slotState slot)

theorem KeepsVotes.trans (first : KeepsVotes pool middle) (second : KeepsVotes middle after) :
    KeepsVotes pool after := by
  refine ⟨second.info.trans first.info, le_trans first.first second.first, fun slot inside => ?_⟩
  exact (first.upkeep slot (le_trans second.first inside)).trans (second.upkeep slot inside)

theorem Follows.keepsVotes (follows : Follows told pool after) : KeepsVotes pool after :=
  ⟨follows.info, follows.first, follows.upkeep⟩

theorem storeCert_keepsVotes (pool : Pool) (cert : Cert) : KeepsVotes pool (pool.storeCert cert) := by
  refine ⟨rfl, le_refl _, fun slot _ => ?_⟩
  rw [slotState_storeCert]
  split
  · exact (pool.slotState slot).addCert_upkeep cert
  · exact .refl _

theorem addValidCert_keepsVotes (ran : pool.addValidCert cert out = .ok (after, out')) : KeepsVotes pool after := by
  have stored := pool.storeCert_keepsVotes cert
  have follows := addValidCert_follows ran
  split at follows
  · exact stored.trans follows.1.keepsVotes
  · exact stored.trans follows.1.keepsVotes

theorem addValidCerts_keepsVotes (ran : pool.addValidCerts certs out = .ok (after, out')) : KeepsVotes pool after := by
  induction certs generalizing pool out with
  | nil =>
    cases ran
    exact ⟨rfl, le_refl _, fun slot _ => .refl _⟩
  | cons first rest ih =>
    obtain ⟨⟨middle, out₁⟩, added, ran⟩ := bind_eq_ok.mp ran
    exact (addValidCert_keepsVotes added).trans (ih ran)

theorem slotInBounds_spec (inside : pool.slotInBounds slot = .ok true) : pool.firstUnprunedSlot ≤ slot := by
  obtain ⟨far, _, done⟩ := bind_eq_ok.mp inside
  have both := Except.ok.inj done
  rw [Bool.and_eq_true, decide_eq_true_eq] at both
  exact both.1

theorem addVote_tracks (ran : pool.addVote vote out = .ok (answer, after, out')) :
    after.epochInfo = pool.epochInfo ∧ pool.firstUnprunedSlot ≤ after.firstUnprunedSlot ∧
      ∀ slot, after.firstUnprunedSlot ≤ slot →
        ¬ (slot = vote.slot ∧ pool.Admits vote) ∧ SlotState.Upkeep (pool.slotState slot) (after.slotState slot) ∨
        (slot = vote.slot ∧ pool.Admits vote) ∧ SlotState.Upkeep
          ((pool.slotState slot).withVote vote (pool.epochInfo.stakeAt vote.signer)) (after.slotState slot) := by
  obtain ⟨refused, rfl, _⟩ | ⟨admits, state, outputs, counted, adding⟩ := addVote_cases ran
  · exact ⟨rfl, le_refl _, fun slot _ => .inl ⟨fun taken => refused taken.2, .refl _⟩⟩
  have keeps := (pool.withCounted_follows vote state).1.keepsVotes.trans (addValidCerts_keepsVotes adding)
  refine ⟨keeps.info, keeps.first, fun slot tracked => ?_⟩
  have kept := keeps.upkeep slot tracked
  rw [slotState_setState] at kept
  split at kept
  · rename_i here
    subst here
    exact .inr ⟨⟨rfl, admits⟩, (SlotState.addVote_added counted).marks.upkeep.1.trans kept⟩
  · rename_i other
    exact .inl ⟨fun taken => other taken.1, kept⟩

end Pool

end Karstflow.Alpenglow
