import Karstflow.Alpenglow.PoolCertificates
import Karstflow.Alpenglow.VotorEvidence

namespace Karstflow.Alpenglow

open Data Protocol List

/-! # Agreement between validators

Correct validators run a Pool and a Votor each. A message may reach a validator
at any time after it was sent, repeatedly or never, and a timeout may fire at
any time. Faulty validators sign what they like under their own index.
-/

/-- A correct validator, with the reports of its pool that Votor may handle and
the answers of its finality tracker. -/
structure Node where
  pool : Pool
  votor : Votor
  events : List VotorPoolEvent
  reports : List FinalizationEvent
  stopped : Bool

inductive NodeInput where
  | pool (input : PoolInput)
  | votor (input : VotorInput)
  | standstill
deriving Repr, DecidableEq

namespace Node

def new (id : Nat) (info : EpochInfo) : Node :=
  { pool := .new id info, votor := .initial id, events := [], reports := [], stopped := false }

def receive (node : Node) (pool : Pool) (out : PoolOut) : Node :=
  { node with pool, events := node.events ++ out.events, reports := node.reports ++ out.finalizations }

def apply (node : Node) : NodeInput → Except Panic (Node × List Vote)
  | .pool input => do
    let (pool, out) ← input.apply node.pool
    return (node.receive pool out, [])
  | .votor input => do
    let (votor, out) ← input.apply node.votor
    return ({ node with votor }, out.votes)
  | .standstill => do
    let (_, out) ← node.pool.recoverFromStandstill .empty
    return (node.receive node.pool out, [])

end Node

/-- The correct validators, and the votes they have cast in this order. -/
structure Network where
  nodes : Nat → Node
  log : List Vote

namespace Network

abbrev Step := Nat × NodeInput

def initial (info : EpochInfo) : Network := { nodes := fun id => .new id info, log := [] }

def setNode (network : Network) (id : Nat) (node : Node) : Network :=
  { network with nodes := Function.update network.nodes id node }

/-- A validator that panics stops, and what the call had done is lost. -/
def step (network : Network) (step : Step) : Network :=
  let node := network.nodes step.1
  if node.stopped then network
  else match node.apply step.2 with
    | .ok (after, votes) => { network.setNode step.1 after with log := network.log ++ votes }
    | .error _ => network.setNode step.1 { node with stopped := true }

def run (network : Network) (steps : List Step) : Network := steps.foldl step network

/-- What can happen next: votes and certificates are not forged, a hash stands
for one block, and Votor handles reports of its own pool. -/
def Admissible (deployment : Deployment) (network : Network) (step : Step) : Prop :=
  deployment.correct step.1 ∧
    match step.2 with
    | .pool (.vote vote) => deployment.correct vote.signer → vote ∈ network.log
    | .pool (.cert cert) => cert.Unforged deployment network.log
    | .pool (.block block parent) => deployment.parentOf block = parent
    | .votor (.pool event) => event ∈ (network.nodes step.1).events
    | .votor (.blockstore (.block slot block parent)) => deployment.parentOf ⟨slot, block.hash⟩ = parent
    | .votor _ => True
    | .standstill => True

/-- The step makes no Votor notarize a slot it has voted on, and no pool count
a voter for a block twice. -/
def Guarded (network : Network) (step : Step) : Prop :=
  match step.2 with
  | .pool (.vote vote) => ¬ (network.nodes step.1).pool.CountsTwice vote
  | .votor input => ¬ input.Renotarizes (network.nodes step.1).votor
  | _ => True

/-- The condition holds of every step in the network it is taken in. -/
def Along (condition : Network → Step → Prop) (network : Network) : List Step → Prop
  | [] => True
  | step :: rest => condition network step ∧ (network.step step).Along condition rest

instance (log : List Vote) (id : Nat) : (cert : Cert) → Decidable (cert.SignedBy log id)
  | .notar _ | .fastFinal _ | .final _ => inferInstanceAs (Decidable (_ ∈ log))
  | .notarFallback _ | .skip _ => inferInstanceAs (Decidable (_ ∈ log ∨ _ ∈ log))

instance (deployment : Deployment) (log : List Vote) (cert : Cert) : Decidable (cert.Unforged deployment log) :=
  inferInstanceAs (Decidable (∀ id, id < deployment.info.validatorCnt → deployment.correct id →
    cert.isSigner id = true → cert.SignedBy log id))

instance (deployment : Deployment) (network : Network) : (step : Step) →
    Decidable (network.Admissible deployment step)
  | (_, .pool (.vote vote)) =>
    inferInstanceAs (Decidable (_ ∧ (deployment.correct vote.signer = true → vote ∈ network.log)))
  | (_, .pool (.cert cert)) => inferInstanceAs (Decidable (_ ∧ cert.Unforged deployment network.log))
  | (_, .pool (.block block parent)) => inferInstanceAs (Decidable (_ ∧ deployment.parentOf block = parent))
  | (id, .votor (.pool event)) => inferInstanceAs (Decidable (_ ∧ event ∈ (network.nodes id).events))
  | (_, .votor (.blockstore (.block slot block parent))) =>
    inferInstanceAs (Decidable (_ ∧ deployment.parentOf ⟨slot, block.hash⟩ = parent))
  | (_, .votor (.blockstore (.firstShred _))) => inferInstanceAs (Decidable (_ ∧ True))
  | (_, .votor (.blockstore (.invalidBlock _))) => inferInstanceAs (Decidable (_ ∧ True))
  | (_, .votor (.timeout _)) => inferInstanceAs (Decidable (_ ∧ True))
  | (_, .standstill) => inferInstanceAs (Decidable (_ ∧ True))

instance decidableAlong (condition : Network → Step → Prop)
    [decidable : ∀ network step, Decidable (condition network step)] :
    (steps : List Step) → (network : Network) → Decidable (network.Along condition steps)
  | [], _ => isTrue trivial
  | step :: rest, network =>
    have := decidableAlong condition rest (network.step step)
    inferInstanceAs (Decidable (condition network step ∧ (network.step step).Along condition rest))

/-- No two reports of correct validators contradict each other. -/
def Agreement (deployment : Deployment) (network : Network) : Prop :=
  ∀ one other, deployment.correct one → deployment.correct other →
    ∀ report ∈ (network.nodes one).reports, ∀ report' ∈ (network.nodes other).reports,
      ∀ block ∈ report.reported, block.slot ∉ report'.implicitlySkipped ∧
        ∀ block' ∈ report'.reported, block.slot = block'.slot → block.hash = block'.hash

end Network

namespace Node

variable {id : Nat} {log : List Vote} {node : Node}

/-- What a validator holds and has reported is true of the log. -/
structure Evident (deployment : Deployment) (id : Nat) (log : List Vote) (node : Node) : Prop where
  pool : node.pool.Evident deployment log
  index : node.votor.validatorIndex = id
  votor : node.votor.view.Evident deployment id log
  events : ∀ event ∈ node.events, event.Evident deployment log
  reports : ∀ report ∈ node.reports, report.Evident deployment.committee deployment.parentOf log

theorem Evident.new (deployment : Deployment) (id : Nat) : (new id deployment.info).Evident deployment id [] where
  pool := .new id
  index := rfl
  votor := .initial id
  events _ member := absurd member not_mem_nil
  reports _ member := absurd member not_mem_nil

theorem Evident.receive {pool : Pool} (evident : node.Evident deployment id log)
    (after : pool.Evident deployment log) (reported : out.Evident deployment log) :
    (node.receive pool out).Evident deployment id log where
  pool := after
  index := evident.index
  votor := evident.votor
  events event member := (mem_append.mp member).elim (evident.events event) (reported.events event)
  reports report member :=
    (mem_append.mp member).elim (evident.reports report) (reported.finalizations report)

theorem Evident.others (evident : node.Evident deployment id log) (others : ∀ vote ∈ votes, vote.signer ≠ id) :
    node.Evident deployment id (log ++ votes) := by
  have grows : log ⊆ log ++ votes := subset_append_left _ _
  exact ⟨evident.pool.mono grows, evident.index, evident.votor.others others,
    fun event member => (evident.events event member).mono grows,
    fun report member => (evident.reports report member).mono grows⟩

theorem Evident.poolInput {pool : Pool} {network : Network}
    (evident : node.Evident deployment id network.log) (same : network.nodes id = node)
    (summable : deployment.Summable) (admissible : network.Admissible deployment (id, .pool input))
    (guarded : network.Guarded (id, .pool input)) (ran : input.apply node.pool = .ok (pool, out)) :
    pool.Evident deployment network.log ∧ out.Evident deployment network.log := by
  cases input with
  | vote vote =>
      obtain ⟨⟨answer, pool', out'⟩, added, done⟩ := bind_eq_ok.mp ran
      cases done
      have single : ¬ node.pool.CountsTwice vote := same ▸ guarded
      exact evident.pool.addVote .empty summable single admissible.2 added
  | cert cert =>
      obtain ⟨⟨answer, pool', out'⟩, added, done⟩ := bind_eq_ok.mp ran
      cases done
      exact evident.pool.addCert .empty summable admissible.2 added
  | block block parent => exact evident.pool.addBlock .empty summable admissible.2 ran

theorem Evident.votorInput {input : VotorInput} {votor : Votor}
    (evident : node.Evident deployment id log) (lawful : Lawful deployment.committee deployment.parentOf log)
    (correct : deployment.correct id) (asked : input.Evident deployment log)
    (safe : ¬ input.Renotarizes node.votor) (ran : input.apply node.votor = .ok (votor, out)) :
    Evident deployment id (log ++ out.votes) { node with votor } ∧
      Lawful deployment.committee deployment.parentOf (log ++ out.votes) ∧ ∀ vote ∈ out.votes, vote.signer = id := by
  obtain ⟨index, votes, acts, cast⟩ := VotorInput.apply_moves ran safe
  rw [evident.index] at acts
  obtain ⟨view, lawful⟩ := evident.votor.acts lawful correct asked acts
  have grows : log ⊆ log ++ votes := subset_append_left _ _
  rw [cast]
  exact ⟨⟨evident.pool.mono grows, index.trans evident.index, view,
    fun event member => (evident.events event member).mono grows,
    fun report member => (evident.reports report member).mono grows⟩, lawful, VotorView.signer_of_acts asked acts⟩

end Node

namespace Network

variable {network : Network}

structure Evident (deployment : Deployment) (network : Network) : Prop where
  lawful : Lawful deployment.committee deployment.parentOf network.log
  nodes : ∀ id, deployment.correct id → (network.nodes id).Evident deployment id network.log

theorem Evident.initial (deployment : Deployment) : (initial deployment.info).Evident deployment := by
  refine ⟨⟨?_, ?_, ?_, ?_⟩, fun id _ => .new deployment id⟩
  · intro earlier vote later split
    simp [Network.initial] at split
  all_goals simp [Network.initial]

theorem Evident.asked {id : Nat} (evident : network.Evident deployment)
    (admissible : network.Admissible deployment (id, .votor input)) : input.Evident deployment network.log := by
  obtain ⟨correct, admissible⟩ := admissible
  cases input with
  | pool event => exact (evident.nodes id correct).events event admissible
  | timeout event => trivial
  | blockstore event => cases event <;> exact admissible

section

variable (evident : network.Evident deployment)

include evident

theorem Evident.setNode {id : Nat} {node : Node} {votes : List Vote}
    (lawful : Lawful deployment.committee deployment.parentOf (network.log ++ votes))
    (own : ∀ vote ∈ votes, vote.signer = id) (here : node.Evident deployment id (network.log ++ votes)) :
    Evident deployment { network.setNode id node with log := network.log ++ votes } := by
  refine ⟨lawful, fun other correct => ?_⟩
  simp only [Network.setNode, Function.update_apply]
  split
  · next same => exact same ▸ here
  · rename_i different
    refine (evident.nodes other correct).others fun vote member signer => ?_
    rw [own vote member] at signer
    exact different signer.symm

theorem Evident.step {step : Step} (summable : deployment.Summable)
    (admissible : network.Admissible deployment step) (guarded : network.Guarded step) :
    (network.step step).Evident deployment := by
  obtain ⟨id, input⟩ := step
  have node := evident.nodes id admissible.1
  -- a step without votes
  have quiet : ∀ {after : Node}, after.Evident deployment id network.log →
      (network.setNode id after).Evident deployment := by
    intro after here
    have set := @Evident.setNode deployment network evident id after []
    simp only [append_nil] at set
    exact set evident.lawful (fun vote member => absurd member not_mem_nil) here
  rw [Network.step]
  split
  · exact evident
  cases ran : (network.nodes id).apply input with
  | error panic => exact quiet ⟨node.pool, node.index, node.votor, node.events, node.reports⟩
  | ok reached =>
      dsimp only
      cases input with
      | pool input =>
          obtain ⟨⟨pool, out⟩, called, done⟩ := bind_eq_ok.mp ran
          cases done
          obtain ⟨pool, out⟩ := node.poolInput rfl summable admissible guarded called
          rw [append_nil]
          exact quiet (node.receive pool out)
      | votor input =>
          obtain ⟨⟨votor, out⟩, called, done⟩ := bind_eq_ok.mp ran
          cases done
          rcases node.votorInput evident.lawful admissible.1 (evident.asked admissible) guarded called with
            ⟨here, lawful, own⟩
          exact evident.setNode lawful own here
      | standstill =>
          obtain ⟨⟨bundle, out⟩, called, done⟩ := bind_eq_ok.mp ran
          cases done
          obtain ⟨next, _, called⟩ := bind_eq_ok.mp called
          obtain ⟨_, _, called⟩ := bind_eq_ok.mp called
          cases called
          rw [append_nil]
          exact quiet (node.receive node.pool (PoolOut.Evident.empty.pushEvent rfl))

theorem Evident.run (summable : deployment.Summable)
    (admissible : network.Along (Admissible deployment) steps) (guarded : network.Along Guarded steps) :
    (network.run steps).Evident deployment := by
  induction steps generalizing network with
  | nil => exact evident
  | cons step rest ih => exact ih (evident.step summable admissible.1 guarded.1) admissible.2 guarded.2

theorem Evident.agreement : network.Agreement deployment := by
  intro one other correct correct' report member report' member' block reported
  have settled := ((evident.nodes one correct).reports report member).reported block reported
  have answer := (evident.nodes other correct').reports report' member'
  refine ⟨?_, ?_⟩
  · intro skipped
    exact evident.lawful.settled_not_passedOver settled (answer.skipped block.slot skipped)
  · intro block' reported' same
    exact congrArg BlockId.hash (evident.lawful.settled_unique settled (answer.reported block' reported') same)

end

/-- In every run without the two lapses, correct validators finalize no two
blocks of a slot, and skip no slot in which one of them has finalized a block. -/
theorem agreement_of_guarded (deployment : Deployment) (summable : deployment.Summable) (steps : List Step)
    (admissible : (initial deployment.info).Along (Admissible deployment) steps)
    (guarded : (initial deployment.info).Along Guarded steps) :
    ((initial deployment.info).run steps).Agreement deployment :=
  ((Evident.initial deployment).run summable admissible guarded).agreement

/-- Three validators, of which the second is faulty, and blocks on genesis. -/
def threeValidators : Deployment where
  info :=
    { validators := [⟨0, 89⟩, ⟨1, 10⟩, ⟨2, 1⟩]
      totalStake := 100
      nonempty := by decide
      idIsIndex := by decide
      total := by decide }
  parentOf := fun _ => .genesis 0
  correct := fun id => id ≠ 1
  majority := by
    simp [EpochInfo.stakeOf, weigh, Finset.sum_range_succ, EpochInfo.stakeAt, EpochInfo.validatorCnt]

theorem threeValidators_summable : threeValidators.Summable := by
  simp [Deployment.Summable, threeValidators, EpochInfo.stakeOf, weigh, Finset.sum_range_succ, EpochInfo.stakeAt,
    EpochInfo.validatorCnt, u64Max]

/-- Validator 0 skips slot 4 while its block waits for the parent, notarizes it
all the same, and goes on with a block of slot 8. Its skip votes reach its own
pool, the two notar votes for slot 4 reach validator 2. -/
def skippedAndNotarized : List Step :=
  [(0, .votor (.timeout (.timeout 1))),
    (0, .pool (.vote (.newSkip 1 0))),
    (0, .pool (.vote (.newSkip 2 0))),
    (0, .pool (.vote (.newSkip 3 0))),
    (0, .votor (.blockstore (.block 4 ⟨4, 1⟩ (.genesis 0)))),
    (0, .votor (.timeout (.timeout 4))),
    (0, .votor (.pool (.parentReady 4 (.genesis 0)))),
    (0, .pool (.vote (.newSkip 4 0))),
    (0, .pool (.vote (.newSkip 5 0))),
    (0, .pool (.vote (.newSkip 6 0))),
    (0, .pool (.vote (.newSkip 7 0))),
    (0, .votor (.pool (.parentReady 8 (.genesis 0)))),
    (0, .votor (.blockstore (.block 8 ⟨8, 2⟩ (.genesis 0)))),
    (0, .pool (.block ⟨8, 2⟩ (.genesis 0))),
    (0, .pool (.vote (.newNotar 8 2 1))),
    (0, .pool (.vote (.newNotar 8 2 0))),
    (2, .pool (.vote (.newNotar 4 1 1))),
    (2, .pool (.vote (.newNotar 4 1 0)))]

/-- Validator 2 finalizes the block of slot 4, and validator 0 skips the slot. -/
theorem skippedAndNotarized_no_agreement : threeValidators.Summable ∧
      (initial threeValidators.info).Along (Admissible threeValidators) skippedAndNotarized ∧
      ¬ ((initial threeValidators.info).run skippedAndNotarized).Agreement threeValidators := by
  refine ⟨threeValidators_summable, by decide +kernel, fun agreement => ?_⟩
  have clash : ∃ report ∈ (((initial threeValidators.info).run skippedAndNotarized).nodes 2).reports,
      ∃ block ∈ report.reported,
        ∃ report' ∈ (((initial threeValidators.info).run skippedAndNotarized).nodes 0).reports,
          block.slot ∈ report'.implicitlySkipped := by
    decide +kernel
  obtain ⟨report, member, block, reported, report', member', skipped⟩ := clash
  exact (agreement 2 0 rfl rfl report member report' member' block reported).1 skipped

def oneBlock : List Step :=
  [(0, .votor (.blockstore (.block 1 ⟨1, 1⟩ (.genesis 0)))),
    (0, .pool (.vote (.newNotar 1 1 1))),
    (0, .pool (.vote (.newNotar 1 1 0))),
    (2, .pool (.vote (.newNotar 1 1 1))),
    (2, .pool (.vote (.newNotar 1 1 0)))]

theorem oneBlock_guarded : (initial threeValidators.info).Along Guarded oneBlock := by
  refine ⟨?_, ?_, ?_, ?_, ?_, trivial⟩
  · rintro ⟨_, _, _, slot, block, parent, pending, _⟩
    simp only [Votor.withNotar, Votor.slotState, Votor.setState, Votor.initial, initial, Node.new,
      Table.get_insert] at pending
    split at pending
    · cases pending
    · split at pending <;> cases pending
  all_goals
    rintro ⟨_, twice⟩
    revert twice
    decide +kernel

theorem oneBlock_agreement : ((initial threeValidators.info).run oneBlock).Agreement threeValidators :=
  agreement_of_guarded threeValidators threeValidators_summable oneBlock (by decide +kernel) oneBlock_guarded

end Network

end Karstflow.Alpenglow
