import Karstflow.Consensus.VoteState
import Karstflow.Data.Steps

namespace Karstflow.Voting

open Data Consensus Sbpf Tower List

/-! # The three vote stacks

The tower, the vote program and the consensus crate each keep a stack of
lockouts. The last two confirm every surviving vote when a new one lands; the
tower confirms only the run of counts 1, 2, 3, ... below the new vote. `Stack`
is the common abstraction and `Stack.confirm` the rule of the last two.
-/

/-- What the three implementations are compared on. -/
structure Stack where
  votes : List Lockout
  root : Option Nat
deriving DecidableEq

/-- Pop what has expired, confirm every vote that is left, push, and root the
oldest vote of an overfull stack. -/
def Stack.confirm (stack : Stack) (slot : Nat) : Stack :=
  let live := stack.votes.rdropWhile (fun vote => vote.isExpired slot)
  match live.map Lockout.incrementConfirmation ++ [Lockout.new slot] with
  | [] => stack
  | oldest :: rest =>
    if maxLockoutHistory < (oldest :: rest).length then { votes := rest, root := some oldest.slot }
    else { votes := oldest :: rest, root := stack.root }

def towerStack (tower : Tower) : Stack := { votes := tower.votes, root := tower.root }

def accountStack (account : Sbpf.VoteState) : Stack :=
  { votes := account.votes.map LandedVote.lockout, root := account.rootSlot }

def consensusStack (state : Consensus.VoteState) : Stack :=
  { votes := state.votes.map LandedVote.lockout, root := state.rootSlot }

theorem Stack.confirm_short (stack : Stack) (popped : stack.votes.rdropWhile (fun vote => vote.isExpired slot) = live)
    (short : live.length < maxLockoutHistory) :
    stack.confirm slot =
      { votes := live.map .incrementConfirmation ++ [.new slot], root := stack.root } := by
  simp only [confirm, popped]
  cases live with
  | nil => simp [maxLockoutHistory]
  | cons oldest rest =>
    have room : ¬ maxLockoutHistory < rest.length + 1 + 1 := by
      simp only [length_cons] at short
      omega
    simp [room]

theorem Stack.confirm_slots (stack : Stack) :
    (∀ vote ∈ (stack.confirm slot).votes, vote.slot = slot ∨ ∃ old ∈ stack.votes, vote.slot = old.slot) ∧
      ∀ root ∈ (stack.confirm slot).root, root ∈ stack.root ∨ ∃ old ∈ stack.votes, root = old.slot := by
  have held : ∀ vote ∈ stack.votes.rdropWhile (fun vote => vote.isExpired slot), vote ∈ stack.votes :=
    fun vote member => ( rdropWhile_prefix _ _).subset member
  simp only [confirm]
  generalize stack.votes.rdropWhile (fun vote => vote.isExpired slot) = live at held ⊢
  have pushed : ∀ vote ∈ live.map Lockout.incrementConfirmation ++ [Lockout.new slot],
      vote.slot = slot ∨ ∃ old ∈ stack.votes, vote.slot = old.slot := by
    intro vote member
    obtain earlier | last := mem_append.mp member
    · obtain ⟨old, kept, rfl⟩ := mem_map.mp earlier
      exact .inr ⟨old, held old kept, rfl⟩
    · rw [mem_singleton.mp last]
      exact .inl rfl
  cases live with
  | nil => exact ⟨by simpa [maxLockoutHistory] using pushed, by
      intro root rooted
      exact .inl (by simpa [maxLockoutHistory] using rooted)⟩
  | cons oldest rest =>
    simp only [map_cons, cons_append] at pushed ⊢
    split
    · refine ⟨fun vote member => pushed vote (mem_cons_of_mem _ member), ?_⟩
      intro root rooted
      rw [Option.mem_some] at rooted
      exact .inr ⟨oldest, held oldest (by simp), rooted.symm⟩
    · exact ⟨pushed, fun root rooted => .inl rooted⟩

theorem map_rdropWhile_lockout (votes : List LandedVote) :
    (votes.rdropWhile (fun vote => vote.lockout.isExpired slot)).map LandedVote.lockout =
      (votes.map LandedVote.lockout).rdropWhile (fun vote => vote.isExpired slot) := by
  simp only [rdropWhile, ← map_reverse, dropWhile_map,
    Function.comp_def]

theorem map_increase_lockout (votes : List LandedVote) :
    (votes.map VoteState.increaseConfirmationCount).map LandedVote.lockout =
      (votes.map LandedVote.lockout).map .incrementConfirmation := by
  simp [VoteState.increaseConfirmationCount, Function.comp_def]

/-- The vote program's step is the abstract step, once the slot is newer than
the root and the last vote. -/
theorem processVote_confirms {slot : Nat} (aboveRoot : ∀ root ∈ account.rootSlot, root < slot)
    (aboveVotes : ∀ vote ∈ account.votes, vote.slot < slot) : ∃ after, account.processVote slot = .ok after ∧
      accountStack after = (accountStack account).confirm slot := by
  have rootOk : account.rootSlot.filter (fun root => slot ≤ root) = none := by
    cases rooted : account.rootSlot with
    | none => rfl
    | some root =>
      have above := aboveRoot root rooted
      simp [above]
  have lastOk : (account.votes.getLast?.map LandedVote.slot).filter (fun last => slot ≤ last) = none := by
    cases top : account.votes.getLast? with
    | none => rfl
    | some vote =>
      have above := aboveVotes vote (mem_of_getLast? top)
      simp [above]
  simp only [VoteState.processVote, rootOk, lastOk]
  refine ⟨_, rfl, ?_⟩
  simp only [accountStack, Stack.confirm, ← map_rdropWhile_lockout, ← map_increase_lockout]
  cases account.votes.rdropWhile (fun vote => vote.lockout.isExpired slot) with
  | nil => rfl
  | cons oldest rest =>
    by_cases across : maxLockoutHistory < rest.length + 1 + 1 <;>
      simp [VoteState.promoteOldest, across, LandedVote.slot]

theorem confirmAllButLast_concat (votes : List LandedVote) :
    VoteState.confirmAllButLast (votes ++ [last]) =
      votes.map VoteState.increaseConfirmationCount ++ [last] := by
  induction votes with
  | nil => rfl
  | cons vote rest ih =>
    cases rest with
    | nil => rfl
    | cons next rest => exact congrArg (VoteState.increaseConfirmationCount vote :: ·) ih

/-- The consensus crate's step is the abstract step, whatever the slot. -/
theorem processNextVoteSlot_confirms :
    consensusStack (state.processNextVoteSlot slot epoch currentSlot) = (consensusStack state).confirm slot := by
  simp only [VoteState.processNextVoteSlot, confirmAllButLast_concat,
    consensusStack, Stack.confirm, ← map_rdropWhile_lockout, ← map_increase_lockout]
  cases state.votes.rdropWhile (fun vote => vote.lockout.isExpired slot) with
  | nil => rfl
  | cons oldest rest =>
    by_cases across : maxLockoutHistory < rest.length + 1 + 1 <;>
      simp [VoteState.checkAndPromoteRoot, across, LandedVote.slot]

/-- Newest vote first, the counts read `previous + 1, previous + 2, ...`. -/
def DenseFrom (previous : Nat) : List Lockout → Prop
  | [] => True
  | vote :: older => vote.confirmationCount = previous + 1 ∧ DenseFrom (previous + 1) older

theorem DenseFrom.incrementChain_eq {votes : List Lockout} (dense : DenseFrom previous votes) :
    incrementChain previous votes = votes.map .incrementConfirmation := by
  induction votes generalizing previous with
  | nil => rfl
  | cons vote older ih =>
    obtain ⟨count, rest⟩ := dense
    simp [incrementChain, count, ih rest]

theorem DenseFrom.increment {votes : List Lockout}
    (dense : DenseFrom previous votes) (bounded : previous + votes.length < u32Max) :
    DenseFrom (previous + 1) (votes.map .incrementConfirmation) := by
  induction votes generalizing previous with
  | nil => trivial
  | cons vote older ih =>
    obtain ⟨count, rest⟩ := dense
    simp only [length_cons] at bounded
    refine ⟨?_, ih rest (by omega)⟩
    simp only [Lockout.incrementConfirmation, count]
    omega

theorem DenseFrom.of_append (dense : DenseFrom previous (first ++ second)) :
    DenseFrom previous first ∧ DenseFrom (previous + first.length) second := by
  induction first generalizing previous with
  | nil => exact ⟨trivial, dense⟩
  | cons vote older ih =>
    obtain ⟨count, rest⟩ := dense
    obtain ⟨left, right⟩ := ih rest
    refine ⟨⟨count, left⟩, ?_⟩
    simpa only [length_cons, add_assoc, add_comm 1] using right

/-- A tower on which every step so far expired all of its votes or none. -/
structure DenseTower (tower : Tower) : Prop where
  counts : DenseFrom 0 tower.votes.reverse
  height : tower.votes.length ≤ maxLockoutHistory
  limit : tower.maxSize = maxLockoutHistory

/-- The step pops the whole stack or nothing of it. -/
def ExpiresAllOrNone (tower : Tower) (slot : Nat) : Prop :=
  tower.simulateVote slot = 0 ∨ tower.simulateVote slot = tower.votes.length

theorem pushVote_eq {tower : Tower} (above : ∀ vote ∈ tower.votes, vote.slot < slot) :
    (tower.pushVote slot).2 =
      { tower with
        votes := (incrementChain 0
          (popBottom tower.maxSize (tower.votes.take (tower.simulateVote slot))).2.reverse).reverse
            ++ [.new slot]
        root := (popBottom tower.maxSize
          (tower.votes.take (tower.simulateVote slot))).1.or tower.root } := by
  have newer : ¬ tower.lastVoteSlot.any (fun last => slot ≤ last) = true := by
    rw [lastVoteSlot]
    cases top : tower.votes.getLast? with
    | none => simp
    | some vote =>
      have below := above vote (mem_of_getLast? top)
      simp [below]
  simp only [pushVote, if_neg newer]

theorem pushVote_confirms_empty
    (above : ∀ vote ∈ tower.votes, vote.slot < slot) (popped : tower.simulateVote slot = 0) :
    towerStack (tower.pushVote slot).2 = (towerStack tower).confirm slot ∧
      (tower.pushVote slot).2.votes = [.new slot] := by
  have live := take_simulateVoteFrom tower.votes slot
  rw [show simulateVoteFrom tower.votes slot tower.votes.length = 0 from popped,
    take_zero] at live
  rw [pushVote_eq above, popped]
  simp [towerStack, Stack.confirm, ← live, popBottom, incrementChain, maxLockoutHistory]

theorem pushVote_confirms_full (dense : DenseTower tower)
    (above : ∀ vote ∈ tower.votes, vote.slot < slot) (kept : tower.simulateVote slot = tower.votes.length) :
    towerStack (tower.pushVote slot).2 = (towerStack tower).confirm slot ∧ DenseTower (tower.pushVote slot).2 := by
  have live := take_simulateVoteFrom tower.votes slot
  rw [show simulateVoteFrom tower.votes slot tower.votes.length = tower.votes.length from kept,
    take_length] at live
  rw [pushVote_eq above, kept, take_length]
  obtain ⟨counts, height, limit⟩ := dense
  simp only [maxLockoutHistory] at height limit
  cases stack : tower.votes with
  | nil =>
    refine ⟨?_, ?_, ?_, limit⟩
    · simp [towerStack, Stack.confirm, stack, popBottom, incrementChain,
        maxLockoutHistory]
    · exact ⟨rfl, trivial⟩
    · simp [popBottom, incrementChain, maxLockoutHistory]
  | cons bottom rest =>
    rw [stack] at live counts height
    simp only [length_cons] at height
    simp only [reverse_cons] at counts
    simp only [towerStack, Stack.confirm, stack, ← live, popBottom, limit, length_cons,
      map_cons, cons_append, length_append, length_map, length_nil]
    by_cases full : 31 ≤ rest.length + 1
    · -- the bottom vote is rooted before the increments by the tower and after them elsewhere
      have chain := DenseFrom.of_append counts |>.1
      have grown := chain.increment (by simp only [length_reverse, u32Max]; omega)
      rw [if_pos full, chain.incrementChain_eq]
      refine ⟨?_, ⟨?_, ?_, rfl⟩⟩
      · have across : maxLockoutHistory < rest.length + (0 + 1) + 1 := by
          simp only [maxLockoutHistory]; omega
        simp [across]
      · simpa [Lockout.new, DenseFrom] using grown
      · simp only [maxLockoutHistory, length_append, length_reverse, length_map,
          length_singleton]
        omega
    · have grown := counts.increment (by
        simp only [length_append, length_reverse, length_singleton, u32Max]; omega)
      rw [if_neg full, reverse_cons, counts.incrementChain_eq]
      refine ⟨?_, ⟨?_, ?_, rfl⟩⟩
      · have notOver : ¬ maxLockoutHistory < rest.length + (0 + 1) + 1 := by
          simp only [maxLockoutHistory]; omega
        simp [notOver]
      · simpa [Lockout.new, DenseFrom] using grown
      · simp only [maxLockoutHistory, length_append, length_reverse, length_map,
          length_singleton]
        omega

theorem increment_ne {vote : Lockout} (bounded : vote.confirmationCount < u32Max) :
    vote.incrementConfirmation ≠ vote := by
  intro same
  have count := congrArg Lockout.confirmationCount same
  simp only [Lockout.incrementConfirmation] at count
  omega

/-- After a partial expiry the newest surviving count is at least two, so the
tower confirms nothing while the other two confirm everything. -/
theorem pushVote_differs (dense : DenseTower tower)
    (above : ∀ vote ∈ tower.votes, vote.slot < slot) (partialPop : ¬ ExpiresAllOrNone tower slot) :
    towerStack (tower.pushVote slot).2 ≠ (towerStack tower).confirm slot := by
  obtain ⟨counts, height, limit⟩ := dense
  have bounded := simulateVoteFrom_le tower.votes slot tower.votes.length
  change tower.simulateVote slot ≤ tower.votes.length at bounded
  simp only [ExpiresAllOrNone, not_or] at partialPop
  have live := take_simulateVoteFrom tower.votes slot
  change tower.votes.take (tower.simulateVote slot) = _ at live
  have split := take_append_drop (tower.simulateVote slot) tower.votes
  have survivors : (tower.votes.take (tower.simulateVote slot)).length = tower.simulateVote slot := by
    rw [length_take, min_eq_left bounded]
  have popped : (tower.votes.drop (tower.simulateVote slot)).length =
      tower.votes.length - tower.simulateVote slot := length_drop
  rw [pushVote_eq above]
  simp only [towerStack]
  generalize tower.votes.take (tower.simulateVote slot) = kept at *
  generalize tower.votes.drop (tower.simulateVote slot) = expired at *
  have short : kept.length < maxLockoutHistory := by omega
  rw [Stack.confirm_short _ live.symm short]
  rw [← split, reverse_append] at counts
  have tail := (DenseFrom.of_append counts).2
  rw [length_reverse, zero_add] at tail
  have unrooted : popBottom tower.maxSize kept = (none, kept) := by
    cases kept with
    | nil => rfl
    | cons bottom rest =>
      rw [length_cons] at short
      simp only [popBottom, limit, length_cons, if_neg (not_le.mpr short)]
  rw [unrooted]
  -- look at the survivors from the newest one down
  obtain rfl | ⟨older, newest, rfl⟩ := eq_nil_or_concat kept
  · simp only [length_nil] at survivors
    omega
  simp only [concat_eq_append, reverse_append, reverse_singleton,
    singleton_append] at tail ⊢
  have count := tail.1
  have stuck : incrementChain 0 (newest :: older.reverse) = newest :: older.reverse := by
    simp only [incrementChain, count]
    rw [if_pos (by omega)]
  rw [stuck]
  intro same
  have changed := @increment_ne newest (by
    simp only [count, u32Max, maxLockoutHistory] at *
    omega)
  simp only [Stack.mk.injEq, reverse_cons, reverse_reverse, map_append,
    map_cons, map_nil, append_assoc, cons_append, nil_append] at same
  have aligned := append_inj_right same.1 (by simp)
  simp only [cons.injEq] at aligned
  exact changed aligned.1.symm

def towerRun (slots : List Nat) : Tower :=
  slots.foldl (fun tower slot => (tower.pushVote slot).2) new

def accountRun (slots : List Nat) : Except VoteError Sbpf.VoteState :=
  slots.foldlM VoteState.processVote VoteState.new

/-- The consensus vote state after `slots`; each vote lands in its own epoch
and at its own current slot. -/
def consensusRun (epochOf currentSlotOf : Nat → Nat) (slots : List Nat) : Consensus.VoteState :=
  slots.foldl (fun state slot => state.processNextVoteSlot slot (epochOf slot) (currentSlotOf slot))
    VoteState.new

/-- The three implementations hold the same votes, counts and root. -/
def StacksAgree (epochOf currentSlotOf : Nat → Nat) (slots : List Nat) : Prop :=
  ∃ account, accountRun slots = .ok account ∧
    accountStack account = towerStack (towerRun slots) ∧
    consensusStack (consensusRun epochOf currentSlotOf slots) = towerStack (towerRun slots)

theorem towerRun_concat : towerRun (slots ++ [slot]) = ((towerRun slots).pushVote slot).2 := by
  simp [towerRun]

theorem accountRun_concat
    (ran : accountRun slots = .ok account) : accountRun (slots ++ [slot]) = account.processVote slot := by
  simp only [accountRun] at ran ⊢
  rw [foldlM_append, ran]
  simp only [foldlM_cons, foldlM_nil, bind_pure]
  rfl

/-- What holds after a run whose every step expired all votes or none. -/
structure Regular (epochOf currentSlotOf : Nat → Nat) (slots : List Nat) : Prop where
  dense : DenseTower (towerRun slots)
  agree : StacksAgree epochOf currentSlotOf slots
  voted : ∀ vote ∈ (towerRun slots).votes, vote.slot ∈ slots
  rooted : ∀ root ∈ (towerRun slots).root, root ∈ slots

variable {epochOf : Nat → Nat}

theorem Regular.start : Regular epochOf currentSlotOf [] where
  dense := ⟨trivial, by simp [towerRun, new], rfl⟩
  agree := ⟨VoteState.new, rfl, rfl, rfl⟩
  voted := by simp [towerRun, new]
  rooted := by simp [towerRun, new]

/-- Past a regular run the vote program and the consensus crate take the
abstract step from the tower's own stack. -/
theorem Regular.others_confirm
    (regular : Regular epochOf currentSlotOf slots) (newer : ∀ earlier ∈ slots, earlier < slot) :
    ∃ account, accountRun (slots ++ [slot]) = .ok account ∧
      accountStack account = (towerStack (towerRun slots)).confirm slot ∧
      consensusStack (consensusRun epochOf currentSlotOf (slots ++ [slot])) =
        (towerStack (towerRun slots)).confirm slot := by
  obtain ⟨account, ran, accountSame, consensusSame⟩ := regular.agree
  have votes : account.votes.map LandedVote.lockout = (towerRun slots).votes :=
    congrArg Stack.votes accountSame
  have root : account.rootSlot = (towerRun slots).root := congrArg Stack.root accountSame
  obtain ⟨after, processed, confirmed⟩ := @processVote_confirms account slot
    (fun root' rooted => newer root' (regular.rooted root' (root ▸ rooted)))
    (fun vote member => newer vote.slot (regular.voted vote.lockout
      (votes ▸ mem_map_of_mem member)))
  refine ⟨after, (accountRun_concat ran).trans processed, confirmed.trans (by rw [accountSame]), ?_⟩
  rw [consensusRun, foldl_concat, processNextVoteSlot_confirms, ← consensusRun, consensusSame]

theorem Regular.step (regular : Regular epochOf currentSlotOf slots) (newer : ∀ earlier ∈ slots, earlier < slot)
    (allOrNone : ExpiresAllOrNone (towerRun slots) slot) : Regular epochOf currentSlotOf (slots ++ [slot]) := by
  have above : ∀ vote ∈ (towerRun slots).votes, vote.slot < slot :=
    fun vote member => newer _ (regular.voted vote member)
  have tower : towerStack (towerRun (slots ++ [slot])) = (towerStack (towerRun slots)).confirm slot ∧
      DenseTower (towerRun (slots ++ [slot])) := by
    rw [towerRun_concat]
    obtain popped | kept := allOrNone
    · obtain ⟨same, single⟩ := pushVote_confirms_empty above popped
      refine ⟨same, ⟨?_, ?_, ?_⟩⟩
      · rw [single]
        exact ⟨rfl, trivial⟩
      · simp [single, maxLockoutHistory]
      · rw [pushVote_eq above]
        exact regular.dense.limit
    · exact pushVote_confirms_full regular.dense above kept
  obtain ⟨account, ran, accountSame, consensusSame⟩ := regular.others_confirm newer
  obtain ⟨voteSlots, rootSlots⟩ := (towerStack (towerRun slots)).confirm_slots
  rw [← tower.1] at voteSlots rootSlots
  refine ⟨tower.2, ⟨account, ran, accountSame.trans tower.1.symm, consensusSame.trans tower.1.symm⟩,
    ?_, ?_⟩
  · intro vote member
    obtain new | ⟨old, held, same⟩ := voteSlots vote member
    · simp [new]
    · simp [same, regular.voted old held]
  · intro root rooted
    obtain before | ⟨old, held, same⟩ := rootSlots root rooted
    · simp [regular.rooted root before]
    · simp [same, regular.voted old held]

theorem newer_of_increasing {earlier : List Nat}
    (increasing : slots.Pairwise (· < ·)) (taken : earlier ++ [slot] <+: slots) :
    ∀ before ∈ earlier, before < slot := by
  intro before member
  have ordered := increasing.sublist taken.sublist
  exact (pairwise_append.mp ordered).2.2 before member slot (by simp)

/-- Over a strictly increasing sequence of slots the tower, the vote program and
the consensus crate agree after every step exactly when every step expires the
whole tower or nothing of it. -/
theorem stacksAgree_iff_allOrNone {slots : List Nat} (increasing : slots.Pairwise (· < ·)) :
    (∀ taken, taken <+: slots → StacksAgree epochOf currentSlotOf taken) ↔
      ∀ earlier slot, earlier ++ [slot] <+: slots → ExpiresAllOrNone (towerRun earlier) slot := by
  apply @good_iff_allowed _ slots (Regular epochOf currentSlotOf)
  · exact .start
  · intro earlier slot inside regular allOrNone
    exact regular.step (newer_of_increasing increasing inside) allOrNone
  · intro taken _ regular
    exact regular.agree
  · intro earlier slot inside regular agree
    by_contra partialPop
    have newer := newer_of_increasing increasing inside
    obtain ⟨account, ran, confirmed, _⟩ := regular.others_confirm newer
    obtain ⟨account', ran', same, _⟩ := agree
    rw [ran] at ran'
    cases ran'
    rw [towerRun_concat] at same
    exact pushVote_differs regular.dense (fun vote member => newer _ (regular.voted vote member))
      partialPop (same.symm.trans confirmed)

/-- Slot 9 expires both earlier votes at once, so the three stacks stay equal. -/
theorem stacksAgree_at_full_expiry : [1, 2, 9].Pairwise (· < ·) ∧
      ∀ taken, taken <+: [1, 2, 9] → StacksAgree (fun _ => 0) (fun slot => slot + 1) taken := by
  refine ⟨by decide, (stacksAgree_iff_allOrNone (by decide)).mpr ?_⟩
  refine forall_step_cons.mpr ⟨.inl rfl, forall_step_cons.mpr ⟨.inr rfl, forall_step_cons.mpr ⟨.inl rfl, ?_⟩⟩⟩
  exact forall_step_nil.mpr trivial

/-- Slot 5 expires the vote for 3 but not those for 1 and 2: the tower keeps
their counts at 3 and 2 while the vote program raises them to 4 and 3. -/
theorem stacks_differ_after_partial_expiry :
    [1, 2, 3, 5].Pairwise (· < ·) ∧ ¬ StacksAgree (fun _ => 0) (fun slot => slot + 1) [1, 2, 3, 5] := by
  refine ⟨by decide, ?_⟩
  rintro ⟨account, ran, _, consensusSame⟩
  exact absurd consensusSame (by decide)

end Karstflow.Voting
