import Karstflow.Sbpf.VoteState
import Karstflow.Types.Account

namespace Karstflow.Sbpf

open Data Karstflow.Types List
open Option hiding map_id'

open Consensus (Lockout maxLockoutHistory)

/-- The whole vote account: its authorities and commission, the part that voting
works on, and the key of the next protocol. -/
structure VoteAccount where
  nodePubkey : Pubkey
  authorizedVoter : Pubkey
  authorizedWithdrawer : Pubkey
  commission : UInt8
  voting : VoteState
  blsPubkey : Option (Octets 48)
deriving DecidableEq

namespace VoteAccount

def new (nodePubkey authorizedVoter authorizedWithdrawer : Pubkey) (commission : UInt8) : VoteAccount :=
  { nodePubkey, authorizedVoter, authorizedWithdrawer, commission, voting := .new, blsPubkey := none }

def voteBytes (vote : LandedVote) : List UInt8 :=
  leBytes 8 vote.lockout.slot ++ leBytes 4 vote.lockout.confirmationCount

def creditBytes (entry : Nat × Nat × Nat) : List UInt8 :=
  leBytes 8 entry.1 ++ (leBytes 8 entry.2.1 ++ leBytes 8 entry.2.2)

def rootBytes : Option Nat → List UInt8
  | some root => 1 :: leBytes 8 root
  | none => [0]

/-- An account without the key ends where the older format ended. -/
def blsBytes : Option (Octets 48) → List UInt8
  | some key => 1 :: key.bytes
  | none => []

def serialize (state : VoteAccount) : List UInt8 :=
  state.nodePubkey.bytes ++ (state.authorizedVoter.bytes ++ (state.authorizedWithdrawer.bytes ++
    state.commission :: (leBytes 4 state.voting.votes.length ++ (state.voting.votes.flatMap voteBytes ++
      (rootBytes state.voting.rootSlot ++ (leBytes 4 state.voting.epochCredits.length ++
        (state.voting.epochCredits.flatMap creditBytes ++ blsBytes state.blsPubkey)))))))

def readVote (bytes : List UInt8) : Option (LandedVote × List UInt8) := do
  let (slot, rest) ← takeWord 8 bytes
  let (confirmationCount, rest) ← takeWord 4 rest
  return ({ latency := 0, lockout := { slot, confirmationCount } }, rest)

def readCredit (bytes : List UInt8) : Option ((Nat × Nat × Nat) × List UInt8) := do
  let (epoch, rest) ← takeWord 8 bytes
  let (credits, rest) ← takeWord 8 rest
  let (previous, rest) ← takeWord 8 rest
  return ((epoch, credits, previous), rest)

/-- Any tag but one is a missing root, and so is the end of the data. -/
def readRoot : List UInt8 → Option (Option Nat × List UInt8)
  | [] => some (none, [])
  | tag :: rest =>
    if tag = 1 then (takeWord 8 rest).map fun taken => (some taken.1, taken.2)
    else some (none, rest)

def readCredits (bytes : List UInt8) : List (Nat × Nat × Nat) × List UInt8 :=
  match takeWord 4 bytes with
  | some (count, rest) => takeUpTo readCredit (min count maxEpochCreditsHistory) rest
  | none => ([], bytes)

def readBls : List UInt8 → Option (Octets 48)
  | [] => none
  | tag :: rest => if tag = 1 then (takeOctets 48 rest).map Prod.fst else none

def readByte : List UInt8 → Option (UInt8 × List UInt8)
  | [] => none
  | byte :: rest => some (byte, rest)

/-- The offset walk of `deserialize`; every failure is `InvalidAccountData`. -/
def deserialize (data : List UInt8) : Option VoteAccount := do
  let (nodePubkey, rest) ← takeOctets 32 data
  let (authorizedVoter, rest) ← takeOctets 32 rest
  let (authorizedWithdrawer, rest) ← takeOctets 32 rest
  let (commission, rest) ← readByte rest
  let (voteCount, rest) ← takeWord 4 rest
  let (votes, rest) ← takeExactly readVote voteCount rest
  let (rootSlot, rest) ← readRoot rest
  let (epochCredits, rest) := readCredits rest
  return {
    nodePubkey, authorizedVoter, authorizedWithdrawer, commission
    voting := { votes, rootSlot, epochCredits }
    blsPubkey := readBls rest }

end VoteAccount

/-- The numbers of the state fit the widths they are stored with. -/
structure VoteState.Fits (state : VoteState) : Prop where
  count : state.votes.length < 256 ^ 4
  votes : ∀ vote ∈ state.votes, vote.lockout.slot < 256 ^ 8 ∧ vote.lockout.confirmationCount < 256 ^ 4
  root : ∀ root, state.rootSlot = some root → root < 256 ^ 8
  credits : ∀ entry ∈ state.epochCredits, entry.1 < 256 ^ 8 ∧ entry.2.1 < 256 ^ 8 ∧ entry.2.2 < 256 ^ 8

abbrev LandedVote.Fits (vote : LandedVote) : Prop :=
  vote.lockout.slot < 256 ^ 8 ∧ vote.lockout.confirmationCount < 256 ^ 4

abbrev CreditFits (entry : Nat × Nat × Nat) : Prop := entry.1 < 256 ^ 8 ∧ entry.2.1 < 256 ^ 8 ∧ entry.2.2 < 256 ^ 8

/-- A vote as it is stored, without its latency. -/
def LandedVote.stored (vote : LandedVote) : LandedVote := { vote with latency := 0 }

namespace VoteAccount

def stored (state : VoteAccount) : VoteAccount :=
  { state with voting := { state.voting with votes := state.voting.votes.map .stored } }

section

variable {state : VoteAccount}

theorem readVote_voteBytes (slot : vote.lockout.slot < 256 ^ 8)
    (count : vote.lockout.confirmationCount < 256 ^ 4) (rest : List UInt8) :
    readVote (voteBytes vote ++ rest) = some (vote.stored, rest) := by
  simp [readVote, voteBytes, append_assoc, takeWord_append slot, takeWord_append count, LandedVote.stored]

theorem readCredit_creditBytes (epoch : entry.1 < 256 ^ 8)
    (credits : entry.2.1 < 256 ^ 8) (previous : entry.2.2 < 256 ^ 8) (rest : List UInt8) :
    readCredit (creditBytes entry ++ rest) = some (entry, rest) := by
  simp [readCredit, creditBytes, append_assoc, takeWord_append epoch, takeWord_append credits, takeWord_append previous]

theorem readRoot_rootBytes (fits : ∀ slot, root = some slot → slot < 256 ^ 8)
    (rest : List UInt8) : readRoot (rootBytes root ++ rest) = some (root, rest) := by
  cases root with
  | none => rfl
  | some slot => simp [readRoot, rootBytes, takeWord_append (fits slot rfl)]

theorem readRoot_lt (taken : readRoot bytes = some (some slot, rest)) : slot < 256 ^ 8 := by
  cases bytes with
  | nil => cases taken
  | cons tag after =>
    rw [readRoot] at taken
    split at taken
    · simp only [map_eq_some_iff, Prod.exists] at taken
      obtain ⟨value, _, read, rfl, -⟩ := taken
      exact takeWord_lt read
    · cases taken

theorem readCredits_creditBytes (fits : ∀ entry ∈ credits, CreditFits entry)
    (short : credits.length ≤ maxEpochCreditsHistory) (rest : List UInt8) :
    readCredits (leBytes 4 credits.length ++ (credits.flatMap creditBytes ++ rest)) = (credits, rest) := by
  have counted : credits.length < 256 ^ 4 := by
    have small : maxEpochCreditsHistory < 256 ^ 4 := by decide
    omega
  rw [readCredits, takeWord_append counted]
  dsimp only
  rw [min_eq_left short]
  exact (takeAll_append (fun entry member rest =>
    readCredit_creditBytes (fits entry member).1 (fits entry member).2.1 (fits entry member).2.2 rest) rest).2

theorem readVotes_voteBytes {votes : List LandedVote} (fits : ∀ vote ∈ votes, vote.Fits)
    (rest : List UInt8) : takeExactly readVote votes.length (votes.flatMap voteBytes ++ rest) =
      some (votes.map .stored, rest) := by
  have reads : ∀ vote ∈ votes.map .stored, ∀ rest,
      readVote (voteBytes vote ++ rest) = some (vote, rest) := by
    intro vote member rest
    obtain ⟨original, present, rfl⟩ := mem_map.mp member
    obtain ⟨slot, count⟩ := fits original present
    exact @readVote_voteBytes original.stored slot count rest
  have stored := (takeAll_append reads rest).1
  rwa [length_map, flatMap_map] at stored

/-- Reading a stored vote account gives back what stands before the credits, up
to the latencies. -/
theorem deserialize_serialize (fits : state.voting.Fits)
    (taken : readCredits (leBytes 4 state.voting.epochCredits.length ++
      (state.voting.epochCredits.flatMap creditBytes ++ blsBytes state.blsPubkey)) = (credits, rest)) :
    deserialize state.serialize = some { state.stored with
      voting := { state.stored.voting with epochCredits := credits }
      blsPubkey := readBls rest } := by
  simp only [deserialize, serialize, takeOctets_append, bind_eq_bind, bind_some, readByte,
    takeWord_append fits.count, readVotes_voteBytes fits.votes, readRoot_rootBytes fits.root,
    Option.pure_def, taken, stored]

theorem readBls_blsBytes : readBls (blsBytes key) = key := by
  cases key with
  | none => rfl
  | some key =>
    have whole := takeOctets_append key []
    rw [append_nil] at whole
    simp [readBls, blsBytes, whole]

/-- Credits within the length of the history come back, and so does the key
behind them. -/
theorem deserialize_stored (fits : state.voting.Fits)
    (short : state.voting.epochCredits.length ≤ maxEpochCreditsHistory) :
    deserialize state.serialize = some state.stored := by
  rw [deserialize_serialize fits (readCredits_creditBytes fits.credits short _), readBls_blsBytes]
  rfl

/-- What is read fits, has no latencies, and has a credit history of bounded length. -/
theorem deserialize_fits (taken : deserialize data = some state) :
    state.voting.Fits ∧ state.voting.votes.map .stored = state.voting.votes ∧
      state.voting.epochCredits.length ≤ maxEpochCreditsHistory := by
  simp only [deserialize, bind_eq_bind, bind_eq_some_iff, Prod.exists, Option.pure_def, Option.some.injEq] at taken
  obtain ⟨node, _, _, voter, _, _, withdrawer, _, _, commission, _, _, count, _, counted, votes, _, taken,
    root, rest, rooted, built⟩ := taken
  have voteRead : ∀ {bytes value rest}, readVote bytes = some (value, rest) → value.stored = value ∧ value.Fits := by
    intro bytes value rest read
    simp only [readVote, bind_eq_bind, bind_eq_some_iff, Prod.exists] at read
    obtain ⟨slot, _, slotRead, confirmations, _, countRead, rfl, -⟩ := read
    exact ⟨rfl, takeWord_lt slotRead, takeWord_lt countRead⟩
  have creditRead : ∀ {bytes value rest}, readCredit bytes = some (value, rest) → CreditFits value := by
    intro bytes value rest read
    simp only [readCredit, bind_eq_bind, bind_eq_some_iff, Prod.exists, Option.pure_def, Option.some.injEq] at read
    obtain ⟨epoch, _, epochRead, credits, _, creditsRead, previous, _, previousRead, rfl, -⟩ := read
    exact ⟨takeWord_lt epochRead, takeWord_lt creditsRead, takeWord_lt previousRead⟩
  obtain ⟨voteCount, votesFit⟩ := takeExactly_forall voteRead taken
  have creditsFit : (readCredits rest).1.length ≤ maxEpochCreditsHistory ∧
      ∀ entry ∈ (readCredits rest).1, CreditFits entry := by
    unfold readCredits
    split
    · rename_i creditCount after _
      obtain ⟨short, fit⟩ := takeUpTo_forall creditRead (min creditCount maxEpochCreditsHistory) after
      exact ⟨short.trans (min_le_right _ _), fit⟩
    · exact ⟨Nat.zero_le _, fun entry member => absurd member not_mem_nil⟩
  rw [← built]
  refine ⟨⟨?_, fun vote member => (votesFit vote member).2, ?_, creditsFit.2⟩, ?_, creditsFit.1⟩
  · rw [voteCount]
    exact takeWord_lt counted
  · intro slot present
    cases present
    exact readRoot_lt rooted
  · rw [map_congr_left fun vote member => (votesFit vote member).1, map_id']

end

end VoteAccount

namespace VoteState

variable {state after : VoteState}

theorem new_fits : new.Fits where
  count := by decide
  votes := fun vote member => absurd member not_mem_nil
  root := fun root absent => absurd absent (some_ne_none root).symm
  credits := fun entry member => absurd member not_mem_nil

theorem promoteOldest_cases (votes : List LandedVote) (root : Option Nat) :
    promoteOldest votes root = (votes, root) ∧ votes.length ≤ maxLockoutHistory ∨
      ∃ oldest rest, votes = oldest :: rest ∧ maxLockoutHistory < votes.length ∧
        promoteOldest votes root = (rest, some oldest.slot) := by
  cases votes with
  | nil => exact .inl ⟨rfl, Nat.zero_le _⟩
  | cons oldest rest =>
    by_cases high : maxLockoutHistory < (oldest :: rest).length
    · exact .inr ⟨oldest, rest, rfl, high, by rw [promoteOldest, if_pos high]⟩
    · exact .inl ⟨by rw [promoteOldest, if_neg high], Nat.le_of_not_lt high⟩

/-- What an accepted vote leaves: the live votes with one more confirmation and
the new one on top, the oldest promoted when the stack is full. -/
theorem processVote_ok (voted : state.processVote slot = .ok after) :
    (∀ last, state.votes.getLast? = some last → last.slot < slot) ∧ ∃ live : List LandedVote, live.Sublist state.votes ∧
      (after.votes, after.rootSlot) =
        promoteOldest (live.map increaseConfirmationCount ++ [{ latency := 0, lockout := .new slot }])
          state.rootSlot ∧
      after.epochCredits = updateCredits state.epochCredits slot := by
  unfold processVote at voted
  split at voted
  · cases voted
  split at voted
  · cases voted
  rename_i sequential
  cases voted
  refine ⟨?_, _, rdropWhile_prefix _ _ |>.sublist, rfl, rfl⟩
  intro last top
  rw [top, map_some, filter_eq_none_iff] at sequential
  have later := sequential last.slot rfl
  simpa using later

theorem processVote_top (voted : state.processVote slot = .ok after) :
    ∃ top, after.votes.getLast? = some top ∧ top.slot = slot := by
  obtain ⟨-, live, -, votes, -⟩ := processVote_ok voted
  refine ⟨{ latency := 0, lockout := .new slot }, ?_, rfl⟩
  rcases promoteOldest_cases (live.map increaseConfirmationCount ++
    [{ latency := 0, lockout := .new slot }]) state.rootSlot with kept | promoted
  · rw [kept.1] at votes
    rw [(Prod.mk.inj votes).1]
    exact getLast?_concat
  · obtain ⟨oldest, rest, split, high, promotion⟩ := promoted
    rw [promotion] at votes
    rw [(Prod.mk.inj votes).1]
    have nonempty : rest ≠ [] := by
      rintro rfl
      rw [split] at high
      exact absurd high (show ¬ maxLockoutHistory < 1 by decide)
    have last := congrArg getLast? split
    rw [getLast?_concat, getLast?_cons_of_ne_nil nonempty] at last
    exact last.symm

theorem updateCredits_fits (bounded : slot < 256 ^ 8)
    (fits : ∀ entry ∈ credits, CreditFits entry) : ∀ entry ∈ updateCredits credits slot, CreditFits entry := by
  intro entry member
  have one : 1 < 256 ^ 8 := by decide
  unfold updateCredits at member
  split at member
  · split at member
    · obtain old | added := mem_append.mp member
      · exact fits entry old
      · rw [mem_singleton.mp added]
        exact ⟨bounded, Nat.lt_succ_of_le (satAdd_le_max _ _), one⟩
    · exact fits entry member
  · rw [mem_singleton.mp member]
    exact ⟨bounded, one, one⟩

theorem processVote_fits (fits : state.Fits) (bounded : slot < 256 ^ 8)
    (voted : state.processVote slot = .ok after) : after.Fits := by
  obtain ⟨-, live, lives, votes, credits⟩ := processVote_ok voted
  have liveFits : ∀ vote ∈ live, vote.Fits :=
    fun vote member => fits.votes vote (lives.subset member)
  have pushedFits : ∀ vote ∈ live.map increaseConfirmationCount ++
      [{ latency := 0, lockout := .new slot }], vote.Fits := by
    intro vote member
    obtain kept | added := mem_append.mp member
    · obtain ⟨original, present, rfl⟩ := mem_map.mp kept
      exact ⟨(liveFits original present).1, Nat.lt_succ_of_le (min_le_right _ _)⟩
    · rw [mem_singleton.mp added]
      exact ⟨bounded, show 1 < 256 ^ 4 by decide⟩
  have liveCount := lives.length_le
  have count := fits.count
  have creditsFit : ∀ entry ∈ after.epochCredits, CreditFits entry := by
    rw [credits]
    exact updateCredits_fits bounded fits.credits
  rcases promoteOldest_cases (live.map increaseConfirmationCount ++
    [{ latency := 0, lockout := .new slot }]) state.rootSlot with kept | promoted
  · obtain ⟨kept, low⟩ := kept
    rw [kept] at votes
    obtain ⟨sameVotes, sameRoot⟩ := Prod.mk.inj votes
    refine ⟨?_, ?_, ?_, creditsFit⟩
    · rw [sameVotes]
      exact lt_of_le_of_lt low (by decide)
    · rw [sameVotes]
      exact pushedFits
    · rw [sameRoot]
      exact fits.root
  · obtain ⟨oldest, rest, split, -, promotion⟩ := promoted
    rw [promotion] at votes
    obtain ⟨sameVotes, sameRoot⟩ := Prod.mk.inj votes
    have lengths := congrArg length split
    rw [length_append, length_map, length_singleton, length_cons] at lengths
    rw [split] at pushedFits
    refine ⟨?_, ?_, ?_, creditsFit⟩
    · rw [sameVotes]
      omega
    · rw [sameVotes]
      exact fun vote member => pushedFits vote (mem_cons_of_mem _ member)
    · rw [sameRoot]
      intro root same
      cases same
      exact (pushedFits oldest mem_cons_self).1

theorem addEpochCredits_fits (bounded : epoch < 256 ^ 8) (fits : ∀ entry ∈ history, CreditFits entry) :
    ∀ entry ∈ addEpochCredits history epoch credits, CreditFits entry := by
  intro entry member
  have saturated : ∀ total, satAdd total credits < 256 ^ 8 := fun total =>
    Nat.lt_succ_of_le (satAdd_le_max total credits)
  unfold addEpochCredits at member
  split at member
  · rename_i lastEpoch total previous last
    have lastFits := fits _ (mem_of_getLast? last)
    split at member
    · obtain old | updated := mem_append.mp member
      · exact fits entry (mem_of_mem_dropLast old)
      · rw [mem_singleton.mp updated]
        exact ⟨lastFits.1, saturated total, lastFits.2.2⟩
    · obtain old | added := mem_append.mp (mem_of_mem_drop member)
      · exact fits entry old
      · rw [mem_singleton.mp added]
        exact ⟨bounded, saturated total, lastFits.2.1⟩
  · rw [mem_singleton.mp member]
    exact ⟨bounded, saturated 0, show 0 < 256 ^ 8 by decide⟩

/-- What an accepted update stores: the proposed votes and root, and the credits
as they were unless the root moves. -/
theorem applyVoteStateUpdate_stored (ran : state.applyVoteStateUpdate newVotes newRoot epoch currentSlot = .ok after) :
    newVotes.length ≤ maxLockoutHistory ∧ after.votes = newVotes.map (state.landedLatency currentSlot) ∧
      after.rootSlot = newRoot ∧ (after.epochCredits = state.epochCredits ∨ state.rootSlot ≠ newRoot ∧
        ∃ earned, after.epochCredits = addEpochCredits state.epochCredits epoch earned) := by
  rw [applyVoteStateUpdate] at ran
  split at ran
  · cases ran
  rename_i short
  split at ran
  · cases ran
  split at ran
  · cases ran
  obtain ⟨_, -, ran⟩ := bind_eq_ok.mp ran
  obtain ⟨_, -, done⟩ := bind_eq_ok.mp ran
  cases done
  refine ⟨Nat.le_of_not_lt short, rfl, rfl, ?_⟩
  split
  · rename_i moved
    exact .inr ⟨moved.1, _, rfl⟩
  · exact .inl rfl

end VoteState

end Karstflow.Sbpf
