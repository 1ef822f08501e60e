import Karstflow.Alpenglow.PoolCertificates
import Karstflow.Alpenglow.PoolTracking

namespace Karstflow.Alpenglow

open Data List
open Bool hiding not_or not_not or_false
open Option hiding any_eq_true or

/-! # Votes that exclude each other

The votes of one validator for one slot arrive in some order. A vote that
repeats an earlier one is dropped, and skip and skip-fallback votes count as
repetitions of each other.
-/

structure Holding where
  notar : Option BlockHash
  fallbacks : List BlockHash
  skip : Bool
  skipFallback : Bool
  final : Bool
deriving Repr, DecidableEq

namespace Holding

def empty : Holding := ⟨none, [], false, false, false⟩

def offends (holding : Holding) : Vote → Bool
  | .notar vote => holding.skip || holding.notar.any (· ≠ vote.blockHash)
  | .notarFallback _ => holding.final
  | .skip _ => holding.final || holding.notar.isSome
  | .skipFallback _ => holding.final
  | .final _ => holding.skip || holding.skipFallback || !holding.fallbacks.isEmpty

def repeats (holding : Holding) : Vote → Bool
  | .notar _ => holding.notar.isSome
  | .notarFallback vote => holding.fallbacks.contains vote.blockHash
  | .skip _ | .skipFallback _ => holding.skip || holding.skipFallback
  | .final _ => holding.final

def add (holding : Holding) : Vote → Holding
  | .notar vote => { holding with notar := some vote.blockHash }
  | .notarFallback vote => { holding with fallbacks := vote.blockHash :: holding.fallbacks }
  | .skip _ => { holding with skip := true }
  | .skipFallback _ => { holding with skipFallback := true }
  | .final _ => { holding with final := true }

def take (holding : Holding) (vote : Vote) : Holding :=
  if holding.offends vote || holding.repeats vote then holding else holding.add vote

def of (votes : List Vote) : Holding := votes.foldl take empty

theorem of_append (votes : List Vote) (vote : Vote) : of (votes ++ [vote]) = (of votes).take vote := by
  rw [of, foldl_append]
  rfl

theorem take_cases {motive : Holding → Prop} {holding : Holding} {vote : Vote} (kept : motive holding)
    (added : holding.offends vote = false → holding.repeats vote = false → motive (holding.add vote)) :
    motive (holding.take vote) := by
  rw [take]
  split
  · exact kept
  · rename_i fresh
    rw [or_eq_true, not_or, not_eq_true, not_eq_true] at fresh
    exact added fresh.1 fresh.2

/-- The vote, or one that it repeats, is held. -/
def Shows (holding : Holding) : Vote → Prop
  | .notar vote => holding.notar = some vote.blockHash
  | .notarFallback vote => vote.blockHash ∈ holding.fallbacks
  | .skip _ | .skipFallback _ => holding.skip = true ∨ holding.skipFallback = true
  | .final _ => holding.final = true

theorem Shows.take {holding : Holding} {vote : Vote} (shows : holding.Shows vote) (next : Vote) :
    (holding.take next).Shows vote := by
  refine @take_cases (fun result => result.Shows vote) _ _ shows fun _ fresh => ?_
  cases next with
  | notar next =>
      cases vote with
      | notar vote =>
          rw [repeats, show holding.notar = some vote.blockHash from shows] at fresh
          cases fresh
      | _ => exact shows
  | notarFallback next =>
      cases vote with
      | notarFallback vote => exact mem_cons_of_mem _ shows
      | _ => exact shows
  | skip next =>
      cases vote with
      | skip | skipFallback => exact .inl rfl
      | _ => exact shows
  | skipFallback next =>
      cases vote with
      | skip | skipFallback => exact .inr rfl
      | _ => exact shows
  | final next =>
      cases vote with
      | final => rfl
      | _ => exact shows

end Holding

namespace Holding

end Holding

namespace SlotState

variable {after : SlotState}

def Unvoted (state : SlotState) (signer : Nat) : Prop :=
  state.vv signer = .default ∧ ∀ hash, ¬ state.votedFallback signer hash

structure Reads (state : SlotState) (signer : Nat) (holding : Holding) : Prop where
  notar : state.votedNotar signer = holding.notar
  fallbacks : ∀ hash, state.votedFallback signer hash ↔ hash ∈ holding.fallbacks
  skip : (state.vv signer).skip.isSome = holding.skip
  skipFallback : (state.vv signer).skipFallback.isSome = holding.skipFallback
  final : (state.vv signer).finalize.isSome = holding.final

namespace Reads

theorem empty (unvoted : state.Unvoted signer) : Reads state signer .empty := by
  obtain ⟨votes, fallbacks⟩ := unvoted
  refine ⟨?_, fun hash => iff_of_false (fallbacks hash) not_mem_nil, ?_, ?_, ?_⟩
  · rw [votedNotar, votes]
    rfl
  all_goals
    rw [votes]
    rfl

section

variable (reads : Reads state signer holding)

include reads

theorem notar_isSome : (state.vv signer).notar.isSome = holding.notar.isSome := by
  rw [← reads.notar, votedNotar, isSome_map]

theorem anyFallback : state.nfVotes.entries.any (·.1.1 = signer) = !holding.fallbacks.isEmpty := by
  rw [Bool.eq_iff_iff, any_eq_true]
  constructor
  · rintro ⟨⟨⟨voter, hash⟩, cast⟩, member, own⟩
    have own : voter = signer := of_decide_eq_true own
    have found := Table.get_eq_some_iff_mem.mpr member
    have held := (reads.fallbacks hash).mp (Table.contains_iff.mpr ⟨cast, own ▸ found⟩)
    cases fallbacks : holding.fallbacks with
    | nil =>
        rw [fallbacks] at held
        cases held
    | cons first rest => rfl
  · intro some
    cases fallbacks : holding.fallbacks with
    | nil =>
        rw [fallbacks] at some
        cases some
    | cons hash rest =>
        have voted := (reads.fallbacks hash).mpr (fallbacks ▸ mem_cons_self)
        obtain ⟨cast, found⟩ := Table.contains_iff.mp voted
        exact ⟨((signer, hash), cast), Table.get_eq_some_iff_mem.mp found, decide_eq_true rfl⟩

theorem checkSlashableOffence (own : vote.signer = signer) :
    (state.checkSlashableOffence vote).isSome = holding.offends vote := by
  -- an offence given under a condition is given exactly when the condition holds
  have given : ∀ (held : Prop) [Decidable held] (offence : Slashable) (rest : Option Slashable),
      (if held then some offence else rest).isSome = (decide held || rest.isSome) := by
    intro held _ offence rest
    by_cases holds : held <;> simp [holds]
  unfold SlotState.checkSlashableOffence Holding.offends
  rw [own]
  cases vote with
  | notar vote =>
      rw [given, decide_eq_true, ← reads.skip, ← reads.notar, votedNotar]
      cases (state.vv signer).notar with
      | none => rfl
      | some existing =>
          rw [given, isSome_none, Bool.or_false]
          rfl
  | notarFallback | skipFallback =>
      rw [given, decide_eq_true, isSome_none, Bool.or_false, reads.final]
  | skip vote =>
      rw [given, given, decide_eq_true, decide_eq_true, isSome_none, Bool.or_false, reads.final, reads.notar_isSome]
  | final vote =>
      rw [given, given, decide_or, decide_eq_true, decide_eq_true, decide_eq_true,
        isSome_none, Bool.or_false, reads.skip, reads.skipFallback, reads.anyFallback]

theorem shouldIgnoreVote (own : vote.signer = signer) : state.shouldIgnoreVote vote = holding.repeats vote := by
  subst own
  cases vote with
  | notar vote => exact reads.notar_isSome
  | notarFallback vote =>
      rw [Bool.eq_iff_iff]
      exact (reads.fallbacks vote.blockHash).trans contains_iff_mem.symm
  | skip vote | skipFallback vote => exact congrArg₂ or reads.skip reads.skipFallback
  | final vote => exact reads.final

theorem upkeep (upkeep : Upkeep state after) : Reads after signer holding := by
  obtain ⟨_, _, _, _, _, rfl⟩ := upkeep
  exact ⟨reads.notar, reads.fallbacks, reads.skip, reads.skipFallback, reads.final⟩

theorem withVote (own : vote.signer = signer) (stake : Nat) :
    Reads (state.withVote vote stake) signer (holding.add vote) := by
  subst own
  have votes := state.vv_withVote vote stake vote.signer
  rw [if_pos rfl] at votes
  refine ⟨?_, fun hash => ?_, ?_, ?_, ?_⟩
  · rw [votedNotar, votes]
    cases vote with
    | notar vote => rfl
    | _ => exact reads.notar
  · rw [votedFallback_withVote]
    cases vote with
    | notarFallback vote =>
        have earlier := reads.fallbacks hash
        dsimp only [Vote.signer, Holding.add] at earlier ⊢
        rw [mem_cons, ← earlier, and_iff_right rfl]
    | _ => exact reads.fallbacks hash
  · rw [votes]
    cases vote with
    | skip vote => rfl
    | _ => exact reads.skip
  · rw [votes]
    cases vote with
    | skipFallback vote => rfl
    | _ => exact reads.skipFallback
  · rw [votes]
    cases vote with
    | final vote => rfl
    | _ => exact reads.final

end

end Reads

/-! ## Votes that complete no quorum are counted -/

section

variable {info : EpochInfo} {state after : SlotState} {hash : BlockHash}

end

end SlotState

namespace Pool

variable {pool after : Pool}

end Pool

end Karstflow.Alpenglow
