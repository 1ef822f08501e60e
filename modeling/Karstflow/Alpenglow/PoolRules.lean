import Karstflow.Alpenglow.Finality
import Karstflow.Alpenglow.Pool
import Karstflow.Alpenglow.VoteCounts

namespace Karstflow.Alpenglow

open Data

/-! # What the pool does

Once a certificate is stored or a block is known, the pool passes the news on in
a few acts: to the finality tracker, to the parent-ready tracker and to the
slots that wait for it.
-/

inductive PoolCause where
  | certStored (cert : Cert)
  | blockAdded (block parent : BlockId)

namespace PoolCause

def call : PoolCause → Option FinalityCall
  | certStored (.notar cert) => some (.markNotarized ⟨cert.slot, cert.blockHash⟩)
  | certStored (.fastFinal cert) => some (.markFastFinalized ⟨cert.slot, cert.blockHash⟩)
  | certStored (.final cert) => some (.markFinalized cert.slot)
  | certStored _ => none
  | blockAdded block parent => some (.addParent block parent)

def certified : PoolCause → Option BlockId
  | certStored (.notar cert) => some ⟨cert.slot, cert.blockHash⟩
  | certStored (.notarFallback cert) => some ⟨cert.slot, cert.blockHash⟩
  | _ => none

def skipped : PoolCause → Option Nat
  | certStored (.skip cert) => some cert.slot
  | _ => none

end PoolCause

inductive PoolAct (cause : PoolCause) (pool : Pool) (out : PoolOut) : Pool → PoolOut → Prop
  | finality {call : FinalityCall} {finality : FinalityTracker} {event : FinalizationEvent}
      (asked : cause.call = some call) (ran : call.apply pool.finality = .ok (finality, event)) :
      PoolAct cause pool out { pool with finality } (out.pushFinalization event)
  | finalized {event : FinalizationEvent} {parentReady : ParentReadyTracker} {ready : Option ParentReady}
      {out' : PoolOut} (reported : event ∈ out.finalizations)
      (ran : pool.parentReady.handleFinalization event.finalized event.implicitlyFinalized
        event.implicitlySkipped = .ok (parentReady, ready))
      (sent : Pool.sendParentReady out ready = .ok out') :
      PoolAct cause pool out { pool with parentReady } out'
  | pruned : PoolAct cause pool out pool.prune out
  | known {block parent : BlockId} (asked : cause = .blockAdded block parent) :
      PoolAct cause pool out
        (pool.setState block.slot ((pool.slotState block.slot).notifyParentKnown block.hash)) out
  | parked {block parent : BlockId} (asked : cause = .blockAdded block parent) :
      PoolAct cause pool out { pool with s2nWaiting := pool.s2nWaiting.insert parent block } out
  | unparked {parent : BlockId} :
      PoolAct cause pool out { pool with s2nWaiting := pool.s2nWaiting.erase parent } out
  | told {child parent : BlockId} {state : SlotState} {notify : NotifyParent}
      (certified : cause.certified = some parent ∧ pool.s2nWaiting.get parent = some child ∨
        cause = .blockAdded child parent ∧ (pool.slotState parent.slot).isNotarFallback parent.hash = true)
      (ran : (pool.slotState child.slot).notifyParentCertified child.hash pool.epochInfo = .ok (state, notify)) :
      PoolAct cause pool out (pool.setState child.slot state) (Pool.pushNotify out notify)
  | certified {block : BlockId} {parentReady : ParentReadyTracker} {parents : List ParentReady}
      (asked : cause.certified = some block)
      (ran : pool.parentReady.markNotarFallback block = .ok (parentReady, parents)) :
      PoolAct cause pool out { pool with parentReady } (out.pushParents parents)
  | skipped {slot : Nat} {parentReady : ParentReadyTracker} {parents : List ParentReady}
      (asked : cause.skipped = some slot)
      (ran : pool.parentReady.markSkipped slot = .ok (parentReady, parents)) :
      PoolAct cause pool out { pool with parentReady } (out.pushParents parents)
  | repaired {block : BlockId} : PoolAct cause pool out pool (out.pushRepair block)

inductive PoolActs (cause : PoolCause) : Pool → PoolOut → Pool → PoolOut → Prop
  | none (pool : Pool) (out : PoolOut) : PoolActs cause pool out pool out
  | next {pool middle after : Pool} {out out₁ out' : PoolOut} (act : PoolAct cause pool out middle out₁)
      (rest : PoolActs cause middle out₁ after out') : PoolActs cause pool out after out'

namespace PoolActs

theorem one (act : PoolAct cause pool out after out') : PoolActs cause pool out after out' :=
  .next act (.none _ _)

theorem trans (first : PoolActs cause pool out middle out₁) (second : PoolActs cause middle out₁ after out') :
    PoolActs cause pool out after out' := by
  induction first with
  | none => exact second
  | next act _ ih => exact .next act (ih second)

end PoolActs

namespace Pool

variable {cause : PoolCause} {pool after : Pool} {out out' : PoolOut}

theorem slotState_setState (pool : Pool) (slot other : Nat) (state : SlotState) :
    (pool.setState slot state).slotState other = if other = slot then state else pool.slotState other := by
  simp only [slotState, setState, Table.get_insert]
  split <;> rfl

theorem slotState_prune (pool : Pool) (slot : Nat) : pool.prune.slotState slot =
      if pool.finality.firstUnprunedSlot ≤ slot then pool.slotState slot else .new slot pool.ownId := by
  simp only [slotState, prune]
  rw [Table.get_retain_key]
  simp only [decide_eq_true_eq]
  split <;> rfl

/-- Slots are dropped or kept up: no vote, stake or certificate changes. -/
structure Keeps (pool after : Pool) : Prop where
  info : after.epochInfo = pool.epochInfo
  own : after.ownId = pool.ownId
  slots : ∀ slot, ∃ base, (base = .new slot pool.ownId ∨ base = pool.slotState slot) ∧
    SlotState.Upkeep base (after.slotState slot) ∧ (after.slotState slot).certs = base.certs

namespace Keeps

theorem same (info : after.epochInfo = pool.epochInfo) (own : after.ownId = pool.ownId)
    (states : after.slotStates = pool.slotStates) : Keeps pool after := by
  refine ⟨info, own, fun slot => ⟨pool.slotState slot, .inr rfl, ?_⟩⟩
  have equal : after.slotState slot = pool.slotState slot := by rw [slotState, slotState, states, own]
  rw [equal]
  exact ⟨.refl _, rfl⟩

theorem set {state : SlotState} (upkeep : SlotState.Upkeep (pool.slotState slot) state)
    (certs : state.certs = (pool.slotState slot).certs) : Keeps pool (pool.setState slot state) := by
  refine ⟨rfl, rfl, fun other => ⟨pool.slotState other, .inr rfl, ?_⟩⟩
  rw [slotState_setState]
  split
  · next here => exact here ▸ ⟨upkeep, certs⟩
  · exact ⟨.refl _, rfl⟩

theorem trans (first : Keeps pool middle) (second : Keeps middle after) : Keeps pool after := by
  refine ⟨second.info.trans first.info, second.own.trans first.own, fun slot => ?_⟩
  obtain ⟨base, new | rfl, upkeep, certs⟩ := second.slots slot
  · rw [first.own] at new
    exact ⟨base, .inl new, upkeep, certs⟩
  · obtain ⟨base, origin, earlier, same⟩ := first.slots slot
    exact ⟨base, origin, earlier.trans upkeep, certs.trans same⟩

end Keeps

theorem keeps_of_act (act : PoolAct cause pool out after out') : Keeps pool after := by
  cases act with
  | finality asked ran | finalized reported ran sent | parked asked | unparked | certified asked ran
  | skipped asked ran | repaired => exact .same rfl rfl rfl
  | pruned =>
    refine ⟨rfl, rfl, fun slot => ?_⟩
    rw [slotState_prune]
    split
    · exact ⟨_, .inr rfl, .refl _, rfl⟩
    · exact ⟨_, .inl rfl, .refl _, rfl⟩
  | known asked =>
    obtain ⟨upkeep, certs⟩ := SlotState.notifyParentKnown_upkeep (pool.slotState _) _
    exact .set upkeep certs
  | told certified ran =>
    obtain ⟨upkeep, certs⟩ := SlotState.notifyParentCertified_upkeep ran
    exact .set upkeep certs

theorem keeps_of_acts (acts : PoolActs cause pool out after out') : Keeps pool after := by
  induction acts with
  | none => exact .same rfl rfl rfl
  | next act _ ih => exact (keeps_of_act act).trans ih

theorem finalizeWith_acts (asked : cause.call = some call)
    (ran : pool.finalizeWith (call.apply pool.finality) out = .ok (after, out')) :
    PoolActs cause pool out after out' := by
  obtain ⟨⟨finality, event⟩, called, ran⟩ := bind_eq_ok.mp ran
  obtain ⟨⟨parentReady, ready⟩, marked, ran⟩ := bind_eq_ok.mp ran
  obtain ⟨sent, sending, done⟩ := bind_eq_ok.mp ran
  cases done
  refine .next (.finality asked called) (.next (.finalized ?_ marked sending) (.one .pruned))
  exact List.mem_append_right _ List.mem_cons_self

theorem markCertified_acts (asked : cause.certified = some block)
    (ran : pool.markCertified block out = .ok (after, out')) : PoolActs cause pool out after out' := by
  obtain ⟨⟨middle, out₁⟩, notified, ran⟩ := bind_eq_ok.mp ran
  obtain ⟨⟨parentReady, parents⟩, marked, done⟩ := bind_eq_ok.mp ran
  cases done
  have told : PoolActs cause pool out middle out₁ := by
    rw [notifyWaiting] at notified
    split at notified
    · cases notified
      exact .none _ _
    · rename_i child waiting
      obtain ⟨⟨state, notify⟩, answered, done⟩ := bind_eq_ok.mp notified
      cases done
      exact .next (.told (.inl ⟨asked, waiting⟩) answered) (.one .unparked)
  exact told.trans (.next (.certified asked marked) (.one .repaired))

def storeCert (pool : Pool) (cert : Cert) : Pool :=
  (pool.setState cert.slot ((pool.slotState cert.slot).addCert cert)).recordCert cert.slot cert

theorem slotState_storeCert : (pool.storeCert cert).slotState slot =
      if slot = cert.slot then (pool.slotState slot).addCert cert else pool.slotState slot := by
  have set := pool.slotState_setState cert.slot slot ((pool.slotState cert.slot).addCert cert)
  refine set.trans ?_
  split
  · next here => rw [here]
  · rfl

theorem addValidCert_acts (ran : pool.addValidCert cert out = .ok (after, out')) :
    ∃ out₁, PoolActs (.certStored cert) (pool.storeCert cert) out after out₁ ∧
      out' = out₁.pushEvent (.certCreated cert) := by
  cases cert with
  | notar cert =>
    obtain ⟨⟨finalized, out₂⟩, finalizing, ran⟩ := bind_eq_ok.mp ran
    obtain ⟨⟨certified, out₁⟩, certifying, done⟩ := bind_eq_ok.mp ran
    cases done
    have finality := @finalizeWith_acts (.certStored (.notar cert)) _ _ _ _
      (.markNotarized ⟨cert.slot, cert.blockHash⟩) rfl finalizing
    exact ⟨out₁, finality.trans (markCertified_acts rfl certifying), rfl⟩
  | notarFallback cert =>
    obtain ⟨⟨middle, out₁⟩, certifying, done⟩ := bind_eq_ok.mp ran
    cases done
    exact ⟨out₁, markCertified_acts rfl certifying, rfl⟩
  | skip cert =>
    obtain ⟨⟨parentReady, parents⟩, marked, done⟩ := bind_eq_ok.mp ran
    cases done
    exact ⟨_, .one (.skipped rfl marked), rfl⟩
  | fastFinal cert =>
    obtain ⟨⟨middle, out₁⟩, finalizing, done⟩ := bind_eq_ok.mp ran
    cases done
    exact ⟨out₁, @finalizeWith_acts (.certStored (.fastFinal cert)) _ _ _ _
      (.markFastFinalized ⟨cert.slot, cert.blockHash⟩) rfl finalizing, rfl⟩
  | final cert =>
    obtain ⟨⟨middle, out₁⟩, finalizing, done⟩ := bind_eq_ok.mp ran
    cases done
    exact ⟨out₁, @finalizeWith_acts (.certStored (.final cert)) _ _ _ _ (.markFinalized cert.slot) rfl finalizing, rfl⟩

theorem isNotarFallback_slotState (hash : BlockHash) :
    ((pool.slotStates.get slot).map (·.isNotarFallback hash)).getD false =
      (pool.slotState slot).isNotarFallback hash := by
  rw [slotState]
  cases pool.slotStates.get slot <;> rfl

theorem addBlock_acts (ran : pool.addBlock block parent out = .ok (after, out')) :
    PoolActs (.blockAdded block parent) pool out after out' := by
  obtain ⟨_, _, ran⟩ := bind_eq_ok.mp ran
  obtain ⟨⟨middle, out₁⟩, finalizing, ran⟩ := bind_eq_ok.mp ran
  have finality := @finalizeWith_acts (.blockAdded block parent) _ _ _ _ (.addParent block parent) rfl finalizing
  refine finality.trans (.next (.known rfl) ?_)
  dsimp only at ran
  split at ran
  · rename_i certified
    obtain ⟨⟨state, notify⟩, answered, done⟩ := bind_eq_ok.mp ran
    cases done
    refine .one (.told (.inr ⟨rfl, ?_⟩) answered)
    rw [← isNotarFallback_slotState]
    exact certified
  · cases ran
    exact .one (.parked rfl)

theorem addCert_cases (ran : pool.addCert cert out = .ok (answer, after, out')) : after = pool ∧ out' = out ∨
      cert.checkThreshold pool.epochInfo = .ok true ∧ pool.addValidCert cert out = .ok (after, out') := by
  obtain ⟨bounds, _, ran⟩ := bind_eq_ok.mp ran
  split at ran
  · cases ran
    exact .inl ⟨rfl, rfl⟩
  obtain ⟨met, threshold, ran⟩ := bind_eq_ok.mp ran
  split at ran
  · cases ran
    exact .inl ⟨rfl, rfl⟩
  rename_i enough
  have enough : met = true := by simpa using enough
  split at ran
  · cases ran
    exact .inl ⟨rfl, rfl⟩
  split at ran
  · cases ran
    exact .inl ⟨rfl, rfl⟩
  · obtain ⟨⟨added, out₁⟩, adding, done⟩ := bind_eq_ok.mp ran
    cases done
    exact .inr ⟨enough ▸ threshold, adding⟩

def Admits (pool : Pool) (vote : Vote) : Prop :=
  pool.slotInBounds vote.slot = .ok true ∧ vote.signer < pool.epochInfo.validatorCnt ∧
    (pool.slotState vote.slot).Accepts vote

/-- The pool with a vote counted, before the certificates are added. -/
def withCounted (pool : Pool) (vote : Vote) (state : SlotState) : Pool :=
  (pool.setState vote.slot state).recordOwn vote

theorem withCounted_keeps (pool : Pool) (vote : Vote) (state : SlotState) :
    Keeps (pool.setState vote.slot state) (pool.withCounted vote state) := by
  rw [withCounted, recordOwn]
  split
  · exact .same rfl rfl rfl
  · exact .same rfl rfl rfl

theorem addVote_cases (ran : pool.addVote vote out = .ok (answer, after, out')) :
    ¬ pool.Admits vote ∧ after = pool ∧ out' = out ∨ pool.Admits vote ∧ ∃ state outputs,
        (pool.slotState vote.slot).addVote vote (pool.epochInfo.stakeAt vote.signer) pool.epochInfo =
          .ok (state, outputs) ∧ (pool.withCounted vote state).addValidCerts outputs.certs { out with
            events := out.events ++ outputs.events.map PoolEvent.toVotor
            repairs := out.repairs ++ outputs.repairs } = .ok (after, out') := by
  obtain ⟨bounds, bounded, ran⟩ := bind_eq_ok.mp ran
  split at ran
  · rename_i outside
    cases ran
    refine .inl ⟨?_, rfl, rfl⟩
    rintro ⟨inside, _⟩
    rw [bounded] at inside
    cases inside
    cases outside
  rename_i inside
  have inside : bounds = true := by simpa using inside
  split at ran
  · rename_i unknown
    cases ran
    exact .inl ⟨fun admits => not_lt.mpr unknown admits.2.1, rfl, rfl⟩
  rename_i known
  obtain ⟨validator, found, ran⟩ := bind_eq_ok.mp ran
  rw [(EpochInfo.validator_eq_ok found).2] at ran
  rw [if_neg (show ¬ (!vote.checkSig) = true from Bool.false_ne_true)] at ran
  split at ran
  · rename_i offence slashed
    cases ran
    refine .inl ⟨?_, rfl, rfl⟩
    rintro ⟨_, _, innocent, _⟩
    rw [slashed] at innocent
    cases innocent
  rename_i innocent
  split at ran
  · rename_i duplicate
    cases ran
    exact .inl ⟨fun admits => Bool.eq_false_iff.mp admits.2.2.2 duplicate, rfl, rfl⟩
  rename_i fresh
  obtain ⟨⟨state, outputs⟩, counted, ran⟩ := bind_eq_ok.mp ran
  obtain ⟨⟨added, out₁⟩, adding, done⟩ := bind_eq_ok.mp ran
  cases done
  exact .inr ⟨⟨inside ▸ bounded, not_le.mp known, innocent, Bool.eq_false_iff.mpr fresh⟩,
    state, outputs, counted, adding⟩

end Pool

end Karstflow.Alpenglow
