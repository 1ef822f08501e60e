import Karstflow.Alpenglow.Finality
import Karstflow.Alpenglow.ParentSpread
import Karstflow.Alpenglow.Protocol

namespace Karstflow.Alpenglow

open Data Protocol List

/-! # What the trackers stand for

The two trackers of a pool hold conclusions from the certificates that the pool
has seen. Each of them holds of the votes cast so far, also where pruning and
repeated calls make the trackers forget.
-/

variable {log : List Vote}

/-- All that a parent-ready tracker holds is true of the log. -/
structure ParentReadyTracker.Evident (committee : Committee Nat) (parentOf : BlockId → BlockId) (log : List Vote)
    (tracker : ParentReadyTracker) : Prop where
  fallbacks : ∀ slot, ∀ hash ∈ (tracker.slotState slot).notarFallbacks,
    Usable committee parentOf log ⟨slot, hash⟩
  skip : ∀ slot, (tracker.slotState slot).skip = true → Bypassed committee parentOf log slot
  ready : ∀ slot, ∀ parent ∈ (tracker.slotState slot).readyIds, Ready committee parentOf log slot parent

def ParentReady.Evident (committee : Committee Nat) (parentOf : BlockId → BlockId) (log : List Vote)
    (ready : ParentReady) : Prop :=
  Ready committee parentOf log ready.slot ready.parent

namespace ParentReadyTracker

variable {tracker after : ParentReadyTracker} {parents : List BlockId}

theorem Evident.mono (evident : tracker.Evident committee parentOf log) (grows : log ⊆ log') :
    tracker.Evident committee parentOf log' where
  fallbacks slot hash member := (evident.fallbacks slot hash member).mono grows
  skip slot skipped := (evident.skip slot skipped).mono grows
  ready slot parent member := (evident.ready slot parent member).mono grows

theorem Evident.default : default.Evident committee parentOf log := by
  refine ⟨?_, ?_, ?_⟩
  · intro slot hash member
    rw [slotState_default] at member
    split at member
    · rename_i first
      cases first
      have genesis := mem_singleton.mp member
      exact .inr ⟨_, .inl rfl, genesis ▸ .refl⟩
    · cases member
  · intro slot skipped
    rw [slotState_default] at skipped
    split at skipped <;> cases skipped
  · intro slot parent member
    rw [slotState_default] at member
    split at member <;> cases member

theorem Evident.set (evident : tracker.Evident committee parentOf log) {state : ParentReadyState}
    (fallbacks : ∀ hash ∈ state.notarFallbacks, Usable committee parentOf log ⟨slot, hash⟩)
    (skip : state.skip = true → Bypassed committee parentOf log slot)
    (ready : ∀ parent ∈ state.readyIds, Ready committee parentOf log slot parent) :
    (tracker.setState slot state).Evident committee parentOf log := by
  refine ⟨?_, ?_, ?_⟩
  all_goals
    intro other
    rw [slotState_setState]
    split
  · next here => exact here ▸ fallbacks
  · exact evident.fallbacks other
  · next here => exact here ▸ skip
  · exact evident.skip other
  · next here => exact here ▸ ready
  · exact evident.ready other

theorem readyIds_of_addToReady (ran : parents.foldlM ParentReadyState.addToReady state = .ok reached) :
    reached = { state with readyIds := state.readyIds ++ parents } := by
  induction parents generalizing state with
  | nil =>
    cases ran
    rw [append_nil]
  | cons first rest ih =>
    obtain ⟨next, added, ran⟩ := bind_eq_ok.mp ran
    rw [ParentReadyState.addToReady] at added
    split at added
    · cases added
    · cases added
      rw [ih ran, append_assoc]
      rfl

section

variable (evident : tracker.Evident committee parentOf log)

include evident

theorem Evident.visit (ready : ∀ parent ∈ parents, Ready committee parentOf log slot parent)
    (ran : tracker.visit parents slot = .ok (after, out)) :
    after.Evident committee parentOf log ∧ ∀ entry ∈ out, entry.Evident committee parentOf log := by
  rw [ParentReadyTracker.visit] at ran
  split at ran
  · obtain ⟨middle, added, done⟩ := bind_eq_ok.mp ran
    cases done
    obtain ⟨state, folded, done⟩ := bind_eq_ok.mp added
    cases done
    rw [readyIds_of_addToReady folded]
    refine ⟨evident.set (evident.fallbacks slot) (evident.skip slot) ?_, ?_⟩
    · intro parent member
      exact (mem_append.mp member).elim (evident.ready slot parent) (ready parent)
    · intro entry member
      obtain ⟨parent, listed, rfl⟩ := mem_map.mp member
      exact ready parent listed
  · cases ran
    exact ⟨evident, fun entry member => absurd member not_mem_nil⟩

theorem Evident.spread (ready : ∀ parent ∈ parents, Ready committee parentOf log slot parent)
    (ran : spread parents remaining tracker slot = .ok (after, out)) :
    after.Evident committee parentOf log ∧ ∀ entry ∈ out, entry.Evident committee parentOf log := by
  induction remaining generalizing tracker slot out with
  | zero =>
    obtain ⟨⟨middle, found⟩, visited, ran⟩ := bind_eq_ok.mp ran
    dsimp only at ran
    split at ran
    · cases ran
    · cases ran
      exact evident.visit ready visited
  | succ remaining ih =>
    obtain ⟨⟨middle, found⟩, visited, ran⟩ := bind_eq_ok.mp ran
    obtain ⟨evident, now⟩ := evident.visit ready visited
    dsimp only at ran
    split at ran
    · rename_i skipped
      obtain ⟨⟨last, further⟩, went, done⟩ := bind_eq_ok.mp ran
      cases done
      rcases ih evident (fun parent member => (ready parent member).past (evident.skip slot skipped)) went with
        ⟨evident, later⟩
      exact ⟨evident, fun entry member => (mem_append.mp member).elim (now entry) (later entry)⟩
    · cases ran
      exact ⟨evident, now⟩

theorem Evident.spreadAfter (ready : ∀ parent ∈ parents, Ready committee parentOf log (slot + 1) parent)
    (ran : tracker.spreadAfter parents slot = .ok (after, out)) :
    after.Evident committee parentOf log ∧ ∀ entry ∈ out, entry.Evident committee parentOf log := by
  obtain ⟨next, increment, ran⟩ := bind_eq_ok.mp ran
  rw [(addU64_eq_ok.mp increment).1] at ran
  exact evident.spread ready ran

theorem Evident.markNotarFallback {id : BlockId}
    (usable : Usable committee parentOf log id) (ran : tracker.markNotarFallback id = .ok (after, out)) :
    after.Evident committee parentOf log ∧ ∀ entry ∈ out, entry.Evident committee parentOf log := by
  rw [ParentReadyTracker.markNotarFallback] at ran
  split at ran
  · cases ran
    exact ⟨evident, fun entry member => absurd member not_mem_nil⟩
  split at ran
  · cases ran
    exact ⟨evident, fun entry member => absurd member not_mem_nil⟩
  have marked : (tracker.setState id.slot { tracker.slotState id.slot with
      notarFallbacks := (tracker.slotState id.slot).notarFallbacks ++ [id.hash] }).Evident
      committee parentOf log := by
    refine evident.set ?_ (evident.skip id.slot) (evident.ready id.slot)
    intro hash member
    obtain old | new := mem_append.mp member
    · exact evident.fallbacks id.slot hash old
    · rw [mem_singleton.mp new]
      exact usable
  refine marked.spreadAfter ?_ ran
  intro parent member
  rw [mem_singleton.mp member]
  exact usable.ready

theorem Evident.gather (below : slot ≤ markedSlot) :
    ∀ parent ∈ tracker.gather markedSlot slot, Ready committee parentOf log (slot + 1) parent := by
  have round : ∀ slot rest, slot ≤ markedSlot →
      (∀ parent ∈ rest, firstSlotInWindow markedSlot ≤ slot ∧ tracker.root ≤ slot ∧
        Ready committee parentOf log slot parent) →
      ∀ parent ∈ tracker.gatherAt markedSlot slot rest, Ready committee parentOf log (slot + 1) parent := by
    intro slot rest below others parent member
    rw [gatherAt] at member
    split at member
    · have held : ∀ parent ∈ (if slot ≠ markedSlot then
          (tracker.slotState slot).notarFallbacks.map (.mk slot) else []),
          Ready committee parentOf log (slot + 1) parent := by
        intro parent member
        split at member
        · obtain ⟨hash, listed, rfl⟩ := mem_map.mp member
          exact (evident.fallbacks slot hash listed).ready
        · cases member
      dsimp only at member
      split at member
      · rename_i skipped
        obtain front | later := mem_append.mp member
        · obtain fallback | ready := mem_append.mp front
          · exact held parent fallback
          · exact (evident.ready slot parent ready).past (evident.skip slot skipped)
        · exact (others parent later).2.2.past (evident.skip slot skipped)
      · exact held parent member
    · rename_i outside
      obtain ⟨window, root, _⟩ := others parent member
      exact absurd ⟨window, below, root⟩ outside
  induction slot with
  | zero => exact round 0 [] below (by simp)
  | succ slot ih =>
    refine round (slot + 1) _ below ?_
    intro parent member
    split at member
    · cases member
    · rename_i inside
      rw [not_or, not_lt, not_lt] at inside
      exact ⟨inside.1, inside.2, ih (Nat.le_of_succ_le below) parent member⟩

theorem Evident.markSkipped
    (bypassed : Bypassed committee parentOf log slot) (ran : tracker.markSkipped slot = .ok (after, out)) :
    after.Evident committee parentOf log ∧ ∀ entry ∈ out, entry.Evident committee parentOf log := by
  rw [ParentReadyTracker.markSkipped] at ran
  split at ran
  · cases ran
    exact ⟨evident, fun entry member => absurd member not_mem_nil⟩
  split at ran
  · cases ran
    exact ⟨evident, fun entry member => absurd member not_mem_nil⟩
  · have marked : (tracker.setState slot { tracker.slotState slot with skip := true }).Evident
        committee parentOf log :=
      evident.set (evident.fallbacks slot) (fun _ => bypassed) (evident.ready slot)
    exact marked.spreadAfter (marked.gather (le_refl _)) ran

end

theorem mem_consider (chosen : consider best found = some entry) : best = some entry ∨ entry ∈ found := by
  induction found generalizing best with
  | nil => exact .inl chosen
  | cons first rest ih =>
    obtain here | later := ih chosen
    · cases best with
      | none => exact .inr (Option.some.inj here ▸ mem_cons_self)
      | some held =>
        dsimp only at here
        split at here
        · exact .inr (Option.some.inj here ▸ mem_cons_self)
        · exact .inl here
    · exact .inr (mem_cons_of_mem _ later)

section

variable (evident : tracker.Evident committee parentOf log)

include evident

theorem Evident.considerAll
    {mark : ParentReadyTracker → α → Except Panic (ParentReadyTracker × List ParentReady)} {items : List α}
    (chosen : ∀ entry, best = some entry → entry.Evident committee parentOf log)
    (marks : ∀ item ∈ items, ∀ {tracker after : ParentReadyTracker} {out},
      tracker.Evident committee parentOf log → mark tracker item = .ok (after, out) →
      after.Evident committee parentOf log ∧ ∀ entry ∈ out, entry.Evident committee parentOf log)
    (ran : considerAll mark items tracker best = .ok (after, best')) :
    after.Evident committee parentOf log ∧ ∀ entry, best' = some entry → entry.Evident committee parentOf log := by
  induction items generalizing tracker best with
  | nil =>
    cases ran
    exact ⟨evident, chosen⟩
  | cons first rest ih =>
    obtain ⟨⟨middle, best₁⟩, round, ran⟩ := bind_eq_ok.mp ran
    obtain ⟨⟨marked, found⟩, marking, done⟩ := bind_eq_ok.mp round
    cases done
    obtain ⟨evident, entries⟩ := marks first mem_cons_self evident marking
    refine ih evident ?_ (fun item member => marks item (mem_cons_of_mem _ member)) ran
    intro entry kept
    exact (mem_consider kept).elim (chosen entry) (entries entry)

theorem Evident.handleFinalization {ready : Option ParentReady}
    (settled : ∀ block ∈ finalized.toList ++ implicitlyFinalized, Settled committee parentOf log block)
    (passed : ∀ slot ∈ implicitlySkipped, PassedOver committee parentOf log slot)
    (ran : tracker.handleFinalization finalized implicitlyFinalized implicitlySkipped = .ok (after, ready)) :
    after.Evident committee parentOf log ∧ ∀ entry, ready = some entry → entry.Evident committee parentOf log := by
  obtain ⟨⟨first, best⟩, marked, ran⟩ := bind_eq_ok.mp ran
  obtain ⟨⟨second, best'⟩, marked', ran⟩ := bind_eq_ok.mp ran
  have parents : ∀ block ∈ finalized.toList ++ implicitlyFinalized,
      ∀ {tracker after : ParentReadyTracker} {out}, tracker.Evident committee parentOf log →
        tracker.markNotarFallback block = .ok (after, out) →
        after.Evident committee parentOf log ∧ ∀ entry ∈ out, entry.Evident committee parentOf log :=
    fun block member _ _ _ evident ran => evident.markNotarFallback (.inr (settled block member)) ran
  rcases evident.considerAll (by simp) (fun block member => parents block (mem_append_left _ member)) marked with
    ⟨evident, chosen⟩
  rcases evident.considerAll chosen (fun block member => parents block (mem_append_right _ member)) marked' with
    ⟨evident, chosen⟩
  exact evident.considerAll chosen
    (fun slot member _ _ _ evident ran => evident.markSkipped (.inr (passed slot member)) ran) ran

theorem Evident.prune (newRoot : Nat) : (tracker.prune newRoot).Evident committee parentOf log := by
  have states : ∀ slot, (tracker.prune newRoot).slotState slot =
      if newRoot ≤ slot then tracker.slotState slot else .new slot := by
    intro slot
    simp only [slotState, ParentReadyTracker.prune]
    rw [Table.get_retain_key]
    simp only [decide_eq_true_eq]
    split <;> rfl
  refine ⟨?_, ?_, ?_⟩
  all_goals
    intro slot
    rw [states]
    split
  · exact evident.fallbacks slot
  · exact fun hash member => absurd member not_mem_nil
  · exact evident.skip slot
  · exact fun skipped => Bool.noConfusion skipped
  · exact evident.ready slot
  · exact fun parent member => absurd member not_mem_nil

end

end ParentReadyTracker

def FinalityCall.Evident (committee : Committee Nat) (parentOf : BlockId → BlockId) (log : List Vote) :
    FinalityCall → Prop
  | addParent block parent => parentOf block = parent
  | markNotarized block => Notarized committee log block
  | markFastFinalized block => FastFinalized committee log block
  | markFinalized slot => FinalVoted committee log slot

structure FinalizationEvent.Evident (committee : Committee Nat) (parentOf : BlockId → BlockId) (log : List Vote)
    (event : FinalizationEvent) : Prop where
  reported : ∀ block ∈ event.reported, Settled committee parentOf log block
  skipped : ∀ slot ∈ event.implicitlySkipped, PassedOver committee parentOf log slot

structure FinalityTracker.Evident (committee : Committee Nat) (parentOf : BlockId → BlockId) (log : List Vote)
    (tracker : FinalityTracker) : Prop where
  links : ∀ child parent, tracker.parents.get child = some parent →
    parentOf child = parent ∧ parent.slot < child.slot
  notarized : ∀ slot hash, tracker.status.get slot = some (.notarized, hash) →
    (⟨slot, hash⟩ : BlockId) = .genesis 0 ∨ Notarized committee log ⟨slot, hash⟩
  pending : ∀ slot hash, tracker.status.get slot = some (.finalPendingNotar, hash) →
    FinalVoted committee log slot
  finalized : ∀ slot hash, tracker.verdictAt slot = some (.finalized hash) →
    Settled committee parentOf log ⟨slot, hash⟩

theorem FinalizationEvent.Evident.mono {event : FinalizationEvent} (evident : event.Evident committee parentOf log)
    (grows : log ⊆ log') : event.Evident committee parentOf log' where
  reported block member := (evident.reported block member).mono grows
  skipped slot member := (evident.skipped slot member).mono grows

theorem FinalizationEvent.Evident.default : default.Evident committee parentOf log where
  reported _ member := absurd member not_mem_nil
  skipped _ member := absurd member not_mem_nil

namespace FinalityTracker

variable {tracker after : FinalityTracker} {call : FinalityCall}

theorem Evident.mono (evident : tracker.Evident committee parentOf log) (grows : log ⊆ log') :
    tracker.Evident committee parentOf log' where
  links := evident.links
  notarized slot hash held := (evident.notarized slot hash held).imp_right (.mono grows)
  pending slot hash held := (evident.pending slot hash held).mono grows
  finalized slot hash held := (evident.finalized slot hash held).mono grows

theorem Evident.default : default.Evident committee parentOf log := by
  have states : ∀ slot, FinalityTracker.default.status.get slot =
      if slot = 0 then some (.notarized, genesisBlockHash) else none := by
    intro slot
    simp only [FinalityTracker.default, Table.get_insert, Table.get_empty]
  refine ⟨?_, ?_, ?_, ?_⟩
  · intro child parent held
    simp [FinalityTracker.default] at held
  · intro slot hash held
    rw [states] at held
    split at held
    · rename_i first
      cases held
      cases first
      exact .inl rfl
    · cases held
  · intro slot hash held
    rw [states] at held
    split at held <;> cases held
  · intro slot hash held
    rw [verdictAt, states] at held
    split at held <;> cases held

section

variable (evident : tracker.Evident committee parentOf log)

include evident

theorem Evident.descends (line : tracker.Line block ancestor) : Descends parentOf block ancestor := by
  induction line with
  | refl => exact .refl
  | tail _ link ih => exact ih.tail (evident.links _ _ link)

theorem Evident.settled (settled : Settled committee parentOf log block) (line : tracker.Line block ancestor) :
    Settled committee parentOf log ancestor := by
  obtain ⟨final, finalized, descends⟩ := settled
  exact ⟨final, finalized, descends.trans (evident.descends line)⟩

theorem Evident.passedOver
    (settled : Settled committee parentOf log block) (across : tracker.PassedOver (block.slot + 1) block slot) :
    Protocol.PassedOver committee parentOf log slot := by
  obtain ⟨final, finalized, descends⟩ := settled
  obtain ⟨above, below⟩ | ⟨child, parent, line, link, above, below⟩ := across
  · omega
  · obtain ⟨rfl, _⟩ := evident.links child parent link
    exact ⟨final, finalized, child, descends.trans (evident.descends line), above, below⟩

end

theorem Evident.walk (evident : before.Evident committee parentOf log) {block : BlockId}
    {start : FinalizationEvent} (settled : Settled committee parentOf log block)
    (reported : start.Evident committee parentOf log) (walk : Walk before (block.slot + 1) block start after event) :
    after.Evident committee parentOf log ∧ event.Evident committee parentOf log := by
  have undecided : ∀ slot status hash, after.status.get slot = some (status, hash) →
      FinStatus.verdict (status, hash) = none → before.status.get slot = some (status, hash) := by
    intro slot status hash held none
    obtain same | ⟨_, verdict, decided, _⟩ := walk.changed slot
    · rw [← same, held]
    · rw [verdictAt_of_status held, Option.bind_some, none] at decided
      cases decided
  refine ⟨⟨?_, ?_, ?_, ?_⟩, ?_, ?_⟩
  · rw [walk.parents]
    exact evident.links
  · exact fun slot hash held => evident.notarized slot hash (undecided slot _ hash held rfl)
  · exact fun slot hash held => evident.pending slot hash (undecided slot _ hash held rfl)
  · intro slot hash held
    obtain same | ⟨_, verdict, decided, implied⟩ := walk.changed slot
    · rw [verdictAt, same] at held
      exact evident.finalized slot hash held
    · rw [held] at decided
      cases decided
      exact evident.settled settled implied
  · intro block' member
    obtain direct | implicit := mem_append.mp member
    · rw [walk.finalized] at direct
      exact reported.reported block' (mem_append_left _ direct)
    · obtain old | ⟨_, line, _⟩ := walk.implicit block' implicit
      · exact reported.reported block' (mem_append_right _ old)
      · exact evident.settled settled line
  · intro slot member
    obtain old | ⟨_, across, _⟩ := walk.skipped slot member
    · exact reported.skipped slot old
    · exact evident.passedOver settled across

theorem Evident.pruned (evident : before.Evident committee parentOf log) (pruned : Pruned before after) :
    after.Evident committee parentOf log := by
  have kept : ∀ slot entry, after.status.get slot = some entry → before.status.get slot = some entry := by
    intro slot entry held
    rw [pruned.status] at held
    split at held
    · exact held
    · cases held
  refine ⟨?_, ?_, ?_, ?_⟩
  · intro child parent held
    rw [pruned.parents] at held
    split at held
    · exact evident.links child parent held
    · cases held
  · exact fun slot hash held => evident.notarized slot hash (kept slot _ held)
  · exact fun slot hash held => evident.pending slot hash (kept slot _ held)
  · intro slot hash held
    apply evident.finalized slot hash
    rw [verdictAt] at held ⊢
    cases found : after.status.get slot with
    | none =>
      rw [found] at held
      cases held
    | some entry =>
      rw [kept slot entry found]
      rwa [found] at held

section

variable (evident : tracker.Evident committee parentOf log)

include evident

theorem Evident.statusInsert {status : FinStatus} {hash : BlockHash}
    (notarized : status = .notarized → (⟨slot, hash⟩ : BlockId) = .genesis 0 ∨ Notarized committee log ⟨slot, hash⟩)
    (pending : status = .finalPendingNotar → FinalVoted committee log slot)
    (finalized : FinStatus.verdict (status, hash) = some (.finalized hash) →
      Settled committee parentOf log ⟨slot, hash⟩) :
    (tracker.statusInsert slot status hash).Evident committee parentOf log := by
  refine ⟨evident.links, ?_, ?_, ?_⟩
  · intro other hash' held
    rw [status_statusInsert] at held
    split at held
    · rename_i here
      cases held
      exact here ▸ notarized rfl
    · exact evident.notarized other hash' held
  · intro other hash' held
    rw [status_statusInsert] at held
    split at held
    · rename_i here
      cases held
      exact here ▸ pending rfl
    · exact evident.pending other hash' held
  · intro other hash' held
    rw [verdictAt_statusInsert] at held
    split at held
    · rename_i here
      have same : hash' = hash := by
        cases status <;> simp [FinStatus.verdict] at held
        · exact held.symm
        · exact held.symm
      cases same
      exact here ▸ finalized held
    · exact evident.finalized other hash' held

theorem Evident.addLink (link : parentOf block = parent) (below : parent.slot < block.slot) :
    Evident committee parentOf log { tracker with parents := tracker.parents.insert block parent } := by
  refine ⟨?_, evident.notarized, evident.pending, evident.finalized⟩
  intro child above held
  rw [Table.get_insert] at held
  split at held
  · rename_i here
    cases held
    exact here ▸ ⟨link, below⟩
  · exact evident.links child above held

theorem Evident.finalizes
    (asked : call.Evident committee parentOf log) (because : call.Finalizes block (tracker.status.get block.slot)) :
    Finalized committee log block := by
  cases found : tracker.status.get block.slot with
  | none =>
    rw [found] at because
    cases because
    exact .inr (.inl asked)
  | some entry =>
    obtain ⟨status, hash⟩ := entry
    rw [found] at because
    cases status with
    | finalPendingNotar =>
      obtain rfl | rfl := because
      · exact .inr (.inl asked)
      · exact .inr (.inr ⟨evident.pending _ _ found, asked⟩)
    | notarized =>
      obtain ⟨rfl, rfl | rfl⟩ := because
      · exact .inr (.inl asked)
      · obtain genesis | notarized := evident.notarized _ _ found
        · exact .inl genesis
        · exact .inr (.inr ⟨asked, notarized⟩)
    | finalized | implicitlyFinalized | implicitlySkipped => exact because.elim

end

theorem Evident.apply (evident : before.Evident committee parentOf log) (asked : call.Evident committee parentOf log)
    (ran : call.apply before = .ok (after, event)) :
    after.Evident committee parentOf log ∧ event.Evident committee parentOf log := by
  cases FinalityCall.apply_effect ran with
  | ignored => exact ⟨evident, .default⟩
  | linked below tracked => exact ⟨evident.addLink asked below, .default⟩
  | notarized tracked known =>
    exact ⟨evident.statusInsert (fun _ => .inr asked) (fun other => by cases other) (fun other => by cases other),
      .default⟩
  | pending tracked known =>
    exact ⟨evident.statusInsert (fun other => by cases other) (fun _ => asked) (fun other => by cases other),
      .default⟩
  | again tracked known =>
    exact ⟨evident.statusInsert (fun other => by cases other) (fun other => by cases other)
      (fun _ => evident.finalized _ _ known), .default⟩
  | @finalized _ block walked _ _ tracked because walk pruned =>
    have settled : Settled committee parentOf log block := ⟨block, evident.finalizes asked because, .refl⟩
    have marked : (before.statusInsert block.slot .finalized block.hash).Evident committee parentOf log :=
      evident.statusInsert (fun other => by cases other) (fun other => by cases other) (fun _ => settled)
    have raised : Evident committee parentOf log
        { before.statusInsert block.slot .finalized block.hash with
          highestFinalizedSlot := max before.highestFinalizedSlot block.slot } :=
      ⟨marked.links, marked.notarized, marked.pending, marked.finalized⟩
    have start : FinalizationEvent.Evident committee parentOf log
        { FinalizationEvent.default with finalized := some block } := by
      refine ⟨?_, fun slot member => absurd member not_mem_nil⟩
      intro reported member
      have same : reported = block := by simpa [FinalizationEvent.reported, FinalizationEvent.default] using member
      exact same ▸ settled
    obtain ⟨evident, event⟩ := raised.walk settled start walk
    exact ⟨evident.pruned pruned, event⟩
  | extended below tracked known walk pruned =>
    obtain ⟨evident, event⟩ := (evident.addLink asked below).walk (evident.finalized _ _ known) .default walk
    exact ⟨evident.pruned pruned, event⟩

end FinalityTracker

end Karstflow.Alpenglow
