import Karstflow.Voting.StackAgreement
import Mathlib.Data.List.Forall2
import Mathlib.Data.List.Chain

namespace Karstflow.Voting

open Data Consensus Sbpf Sbpf.VoteState LandedVote Tower List
open Option hiding forall_mem_map

/-! # Tower syncs against the vote account

A validator sends its whole tower after every vote, and the vote program checks
it against the account. `Ladder` is the shape every tower has; with it, the
program's checks reduce to what the step popped and what it rooted.
-/

/-- Newest vote first: counts climb above `previous`, slots fall, and every vote
was cast inside the lockout of the vote below it. -/
def Ladder (previous : Nat) : List Lockout → Prop
  | [] => True
  | vote :: older =>
    previous < vote.confirmationCount ∧ vote.confirmationCount ≤ maxLockoutHistory ∧
    (∀ below ∈ older, below.slot < vote.slot) ∧
    (∀ below ∈ older.head?, vote.slot ≤ below.expirationSlot) ∧
    Ladder vote.confirmationCount older

namespace Ladder

variable {votes : List Lockout}

theorem weaken (ladder : Ladder previous votes) (less : lower ≤ previous) : Ladder lower votes := by
  cases votes with
  | nil => trivial
  | cons vote older => exact ⟨lt_of_le_of_lt less ladder.1, ladder.2⟩

section

variable (ladder : Ladder previous (first ++ second))

include ladder

theorem of_append_right : Ladder previous second := by
  induction first generalizing previous with
  | nil => exact ladder
  | cons vote older ih =>
    obtain ⟨count, _, _, _, rest⟩ := ladder
    exact (ih rest).weaken (le_of_lt count)

theorem of_append_left : Ladder previous first := by
  induction first generalizing previous with
  | nil => trivial
  | cons vote older ih =>
    obtain ⟨count, bound, slots, inside, rest⟩ := ladder
    refine ⟨count, bound, fun below member => slots below (by simp [member]), ?_, ih rest⟩
    cases older with
    | nil => simp
    | cons next older => simpa using inside

theorem mem_slots (isNewer : newer ∈ first) (isOlder : older ∈ second) : older.slot < newer.slot := by
  induction first generalizing previous with
  | nil => simp at isNewer
  | cons vote rest ih =>
    obtain ⟨_, _, slots, _, tail⟩ := ladder
    obtain rfl | member := mem_cons.mp isNewer
    · exact slots older (by simp [isOlder])
    · exact ih tail member

end

theorem mem_bounds (ladder : Ladder previous votes) (member : vote ∈ votes) :
    previous < vote.confirmationCount ∧ vote.confirmationCount ≤ maxLockoutHistory := by
  induction votes generalizing previous with
  | nil => simp at member
  | cons newest older ih =>
    obtain ⟨count, bound, _, _, rest⟩ := ladder
    obtain rfl | deeper := mem_cons.mp member
    · exact ⟨count, bound⟩
    · exact ⟨lt_trans count (ih rest deeper).1, (ih rest deeper).2⟩

end Ladder

variable {tower : Tower} {votes : List Lockout} {previous slot : Nat}

theorem mem_incrementChain (member : vote ∈ incrementChain previous votes) : ∃ old ∈ votes, vote.slot = old.slot := by
  induction votes generalizing previous with
  | nil => simp [incrementChain] at member
  | cons newest older ih =>
    simp only [incrementChain] at member
    split at member
    · exact ⟨vote, member, rfl⟩
    · obtain rfl | deeper := mem_cons.mp member
      · exact ⟨newest, by simp, rfl⟩
      · obtain ⟨old, held, same⟩ := ih deeper
        exact ⟨old, by simp [held], same⟩

theorem length_incrementChain : (incrementChain previous votes).length = votes.length := by
  induction votes generalizing previous with
  | nil => rfl
  | cons newest older ih =>
    simp only [incrementChain]
    split
    · rfl
    · simp [ih]

theorem head_incrementChain (bounds : ∀ vote ∈ votes, vote.confirmationCount ≤ maxLockoutHistory)
    (head : vote ∈ (incrementChain previous votes).head?) :
    ∃ old ∈ votes.head?, vote.slot = old.slot ∧ old.expirationSlot ≤ vote.expirationSlot := by
  cases votes with
  | nil => simp [incrementChain] at head
  | cons newest older =>
    refine ⟨newest, rfl, ?_⟩
    simp only [incrementChain] at head
    split at head
    · simp only [head?_cons, mem_some] at head
      rw [head]
      exact ⟨rfl, le_refl _⟩
    simp only [head?_cons, mem_some] at head
    rw [← head]
    have bound := bounds newest (by simp)
    exact ⟨rfl, newest.expirationSlot_increment (by
      simp only [maxLockoutHistory, u32Max] at bound ⊢; omega)⟩

/-- Incrementing the run of counts above `previous` leaves room for one more
vote with the count `previous + 1` on top. -/
theorem Ladder.incrementChain (ladder : Ladder previous votes) (room : previous + votes.length < maxLockoutHistory) :
    Ladder (previous + 1) (incrementChain previous votes) := by
  induction votes generalizing previous with
  | nil => trivial
  | cons vote older ih =>
    obtain ⟨count, bound, slots, inside, rest⟩ := ladder
    simp only [length_cons] at room
    by_cases next : vote.confirmationCount = previous + 1
    · rw [next] at rest
      have climbed := ih rest (by omega)
      have counted : vote.incrementConfirmation.confirmationCount = previous + 1 + 1 := by
        simp only [Lockout.incrementConfirmation, next, u32Max, maxLockoutHistory] at *
        omega
      simp only [incrementChain, next, ne_eq, not_true_eq_false, if_false]
      refine ⟨by omega, by omega, ?_, ?_, by rw [counted]; exact climbed⟩
      · intro below member
        obtain ⟨old, held, same⟩ := mem_incrementChain member
        simpa [same] using slots old held
      · intro below member
        obtain ⟨old, held, _, later⟩ :=
          head_incrementChain (fun deeper held => (rest.mem_bounds held).2) member
        exact le_trans (inside old held) later
    · simp only [incrementChain, next, ne_eq, not_false_eq_true, if_true]
      exact ⟨by omega, bound, slots, inside, rest⟩

structure SoundTower (tower : Tower) : Prop where
  ladder : Ladder 0 tower.votes.reverse
  height : tower.votes.length ≤ maxLockoutHistory
  limit : tower.maxSize = maxLockoutHistory
  rootBelow : ∀ root ∈ tower.root, ∀ vote ∈ tower.votes, root < vote.slot

theorem popBottom_cases (height : live.length ≤ maxLockoutHistory) :
    (popBottom maxLockoutHistory live = (none, live) ∧ live.length < maxLockoutHistory) ∨
      ∃ bottom rest, live = bottom :: rest ∧ live.length = maxLockoutHistory ∧
        popBottom maxLockoutHistory live = (some bottom.slot, rest) := by
  cases live with
  | nil => exact .inl ⟨rfl, by simp [maxLockoutHistory]⟩
  | cons bottom rest =>
    by_cases full : maxLockoutHistory ≤ (bottom :: rest).length
    · exact .inr ⟨bottom, rest, rfl, le_antisymm height full, by simp only [popBottom, if_pos full]⟩
    · exact .inl ⟨by simp only [popBottom, if_neg full], not_le.mp full⟩

theorem newest_survivor_live (newest : vote ∈ (tower.votes.take (tower.simulateVote slot)).reverse.head?) :
    slot < vote.expirationSlot := by
  have live := take_simulateVoteFrom tower.votes slot
  change tower.votes.take (tower.simulateVote slot) = _ at live
  rw [live, head?_reverse] at newest
  have nonempty : tower.votes.rdropWhile (fun vote => vote.isExpired slot) ≠ [] := by
    intro empty
    simp [empty] at newest
  have last := getLast?_eq_some_getLast nonempty
  rw [mem_def.mp newest] at last
  have stopped := rdropWhile_last_not (fun vote : Lockout => vote.isExpired slot) tower.votes nonempty
  rw [← some.inj last] at stopped
  simpa [Lockout.isExpired] using stopped

theorem popped_expired (popped : vote ∈ tower.votes.drop (tower.simulateVote slot)) : vote.expirationSlot ≤ slot := by
  have live := take_simulateVoteFrom tower.votes slot
  change tower.votes.take (tower.simulateVote slot) = _ at live
  have parts : tower.votes.take (tower.simulateVote slot) ++ tower.votes.drop (tower.simulateVote slot) =
      tower.votes.take (tower.simulateVote slot) ++
        tower.votes.rtakeWhile (fun vote => vote.isExpired slot) := by
    rw [take_append_drop, live, rdropWhile_append_rtakeWhile]
  rw [append_cancel_left parts] at popped
  simpa [Lockout.isExpired] using mem_rtakeWhile_imp popped

/-- What one vote does to a tower: `kept` survives, `expired` is popped, and a
full stack gives up its bottom vote as the new root. -/
theorem pushVote_shape (sound : SoundTower tower) (above : ∀ vote ∈ tower.votes, vote.slot < slot) :
    ∃ kept, (tower.pushVote slot).2.votes = (incrementChain 0 kept.reverse).reverse ++ [.new slot] ∧
      kept.length < maxLockoutHistory ∧ Ladder 0 kept.reverse ∧
      (∀ vote ∈ kept.reverse.head?, slot < vote.expirationSlot) ∧
      ((tower.simulateVote slot < maxLockoutHistory ∧ (tower.pushVote slot).2.root = tower.root ∧
          tower.votes = kept ++ tower.votes.drop (tower.simulateVote slot)) ∨
        (tower.simulateVote slot = maxLockoutHistory ∧ ∃ bottom,
          (tower.pushVote slot).2.root = some bottom.slot ∧ tower.votes = bottom :: kept)) := by
  obtain ⟨ladder, height, limit, _⟩ := sound
  have bounded := simulateVoteFrom_le tower.votes slot tower.votes.length
  change tower.simulateVote slot ≤ tower.votes.length at bounded
  have size : (tower.votes.take (tower.simulateVote slot)).length = tower.simulateVote slot := by
    rw [length_take, min_eq_left bounded]
  have parts := take_append_drop (tower.simulateVote slot) tower.votes
  have liveLadder : Ladder 0 (tower.votes.take (tower.simulateVote slot)).reverse := by
    rw [← parts, reverse_append] at ladder
    exact ladder.of_append_right
  rw [pushVote_eq above, limit]
  rcases @popBottom_cases (tower.votes.take (tower.simulateVote slot)) (by omega) with
    ⟨room, short⟩ | ⟨bottom, rest, shape, full, rooted⟩
  · refine ⟨_, by rw [room], short, liveLadder, fun vote newest => newest_survivor_live newest, ?_⟩
    exact .inl ⟨by omega, by rw [room]; rfl, parts.symm⟩
  · have whole : tower.votes = bottom :: rest := by
      rw [← shape, take_of_length_le (by omega)]
    rw [shape, reverse_cons] at liveLadder
    refine ⟨rest, by rw [rooted], ?_, liveLadder.of_append_left, ?_, ?_⟩
    · rw [shape, length_cons] at full
      omega
    · intro vote newest
      apply @newest_survivor_live tower
      rw [shape, reverse_cons, head?_append, newest]
      rfl
    · exact .inr ⟨by omega, bottom, by rw [rooted]; rfl, whole⟩

theorem SoundTower.pushVote (sound : SoundTower tower)
    (above : ∀ vote ∈ tower.votes, vote.slot < slot) (aboveRoot : ∀ root ∈ tower.root, root < slot) :
    SoundTower (tower.pushVote slot).2 := by
  obtain ⟨kept, votes, short, ladder, live, shape⟩ := pushVote_shape sound above
  have held : ∀ vote ∈ kept, vote ∈ tower.votes := by
    intro vote member
    obtain ⟨_, _, parts⟩ | ⟨_, bottom, _, parts⟩ := shape <;> rw [parts] <;> simp [member]
  have climbed := ladder.incrementChain (by rw [length_reverse]; omega)
  refine ⟨?_, ?_, ?_, ?_⟩
  · rw [votes, reverse_append, reverse_reverse, reverse_singleton, singleton_append]
    refine ⟨zero_lt_one, by simp [Lockout.new, maxLockoutHistory], ?_, ?_, climbed⟩
    · intro below member
      obtain ⟨old, older, same⟩ := mem_incrementChain member
      rw [same]
      exact above old (held old (mem_reverse.mp older))
    · intro below newest
      obtain ⟨old, older, _, later⟩ :=
        head_incrementChain (fun vote member => (ladder.mem_bounds member).2) newest
      exact le_trans (le_of_lt (live old older)) later
  · rw [votes, length_append, length_reverse, length_incrementChain, length_reverse, length_singleton]
    omega
  · rw [pushVote_eq above]
    exact sound.limit
  · intro root rooted vote member
    rw [votes] at member
    have origin : vote.slot = slot ∨ ∃ old ∈ kept, vote.slot = old.slot := by
      obtain earlier | last := mem_append.mp member
      · obtain ⟨old, older, same⟩ := mem_incrementChain (mem_reverse.mp earlier)
        exact .inr ⟨old, mem_reverse.mp older, same⟩
      · rw [mem_singleton.mp last]
        exact .inl rfl
    obtain ⟨_, unchanged, _⟩ | ⟨_, bottom, promoted, parts⟩ := shape
    · rw [unchanged] at rooted
      obtain new | ⟨old, older, same⟩ := origin
      · rw [new]
        exact aboveRoot root rooted
      · rw [same]
        exact sound.rootBelow root rooted old (held old older)
    · rw [promoted, mem_some] at rooted
      subst rooted
      obtain new | ⟨old, older, same⟩ := origin
      · rw [new]
        exact above bottom (by rw [parts]; simp)
      · have ordered := sound.ladder
        rw [parts, reverse_cons] at ordered
        rw [same]
        exact ordered.mem_slots (mem_reverse.mpr older) (by simp)

/-- The relation between neighbours that `apply_vote_state_update` checks. -/
def Nested (older newer : Lockout) : Prop :=
  older.slot < newer.slot ∧ newer.confirmationCount < older.confirmationCount ∧
    newer.slot ≤ older.expirationSlot

theorem Ladder.nested (ladder : Ladder previous votes) : votes.IsChain (fun newer older => Nested older newer) := by
  induction votes generalizing previous with
  | nil => exact .nil
  | cons vote older ih =>
    obtain ⟨_, _, slots, inside, rest⟩ := ladder
    cases older with
    | nil => exact .singleton _
    | cons next older =>
      exact .cons_cons ⟨slots next (by simp), rest.1, inside next rfl⟩ (ih rest)

theorem checkVotes_ok {votes : List LandedVote} {previous : Option LandedVote}
    (bounds : ∀ vote ∈ votes, 0 < vote.lockout.confirmationCount ∧ vote.lockout.confirmationCount ≤ maxLockoutHistory)
    (aboveRoot : ∀ root ∈ newRoot, ∀ vote ∈ votes, root < vote.slot)
    (nested : ((previous.toList ++ votes).map lockout).IsChain Nested) :
    checkVotes newRoot previous votes = .ok () := by
  induction votes generalizing previous with
  | nil => rfl
  | cons vote rest ih =>
    obtain ⟨positive, small⟩ := bounds vote (by simp)
    have rootOk : ¬ newRoot.any (fun root => vote.slot ≤ root && root ≠ 0) = true := by
      cases rooted : newRoot with
      | none => simp
      | some root =>
        have below := aboveRoot root rooted vote (by simp)
        simp [below]
    have tail := fun chain => @ih (some vote) (fun other member => bounds other (by simp [member]))
      (fun root rooted other member => aboveRoot root rooted other (by simp [member])) chain
    simp only [checkVotes, if_neg (ne_of_gt positive), if_neg (not_lt.mpr small), if_neg rootOk]
    cases previous with
    | none => exact tail (by simpa using nested)
    | some earlier =>
      simp only [toList_some, singleton_append, map_cons, isChain_cons_cons] at nested
      obtain ⟨⟨slots, counts, inside⟩, chain⟩ := nested
      have slotsOk : ¬ vote.slot ≤ earlier.slot := not_le.mpr slots
      have insideOk : ¬ earlier.lockout.expirationSlot < vote.slot := not_lt.mpr inside
      simp only [if_neg slotsOk, if_neg (not_le.mpr counts), if_neg insideOk]
      exact tail (by simpa using chain)

/-- The same vote with at least as many confirmations. -/
def Reconfirms (old new : Lockout) : Prop :=
  new.slot = old.slot ∧ old.confirmationCount ≤ new.confirmationCount

theorem incrementChain_reconfirms (bounds : ∀ vote ∈ votes, vote.confirmationCount ≤ maxLockoutHistory) :
    Forall₂ Reconfirms votes (incrementChain previous votes) := by
  induction votes generalizing previous with
  | nil => exact .nil
  | cons vote older ih =>
    simp only [incrementChain]
    split
    · exact forall₂_same.mpr fun same _ => ⟨rfl, le_refl _⟩
    · refine .cons ⟨rfl, ?_⟩ (ih fun deeper member => bounds deeper (by simp [member]))
      have bound := bounds vote (by simp)
      simp only [Lockout.incrementConfirmation, maxLockoutHistory, u32Max] at bound ⊢
      omega

theorem verify_kept {confirmed : List LandedVote} {landed : LandedVote}
    (aligned : Forall₂ (fun current proposed => Reconfirms current.lockout proposed.lockout)
      kept confirmed) : verifyLockoutConsistency (kept ++ expired) (confirmed ++ [landed]) =
      verifyLockoutConsistency expired [landed] := by
  induction aligned with
  | nil => rfl
  | @cons current proposed _ _ same _ ih =>
    have slots : proposed.slot = current.slot := same.1
    have counts := same.2
    simp only [cons_append, verifyLockoutConsistency, verifyAgainst,
      slots, lt_irrefl, if_false, if_true, if_neg (Nat.not_lt.mpr counts)]
    exact ih

theorem lastLocked_eq {vote : LandedVote} (bound : vote.lockout.confirmationCount ≤ maxLockoutHistory) :
    satAdd vote.slot (satPow initialLockout (min vote.lockout.confirmationCount maxLockoutHistory)) =
      vote.lockout.expirationSlot := by
  rw [min_eq_left bound]
  rfl

/-- Against a single newer vote the merge accepts exactly the lockouts that
ended strictly before it. -/
theorem verify_expired {landed : LandedVote} (older : ∀ vote ∈ expired, vote.slot < landed.slot)
    (bounds : ∀ vote ∈ expired, vote.lockout.confirmationCount ≤ maxLockoutHistory) :
    verifyLockoutConsistency expired [landed] = .ok () ↔
      ∀ vote ∈ expired, vote.lockout.expirationSlot < landed.slot := by
  induction expired with
  | nil => simp [verifyLockoutConsistency]
  | cons vote rest ih =>
    have before := older vote (by simp)
    have later := ih (fun other member => older other (by simp [member]))
      (fun other member => bounds other (by simp [member]))
    simp only [verifyLockoutConsistency, verifyAgainst, if_pos before,
      lastLocked_eq (bounds vote (by simp)), forall_mem_cons]
    by_cases conflict : landed.slot ≤ vote.lockout.expirationSlot
    · rw [if_pos conflict]
      constructor
      · intro accepted; cases accepted
      · intro clear; omega
    · rw [if_neg conflict, later]
      constructor
      · intro clear; exact ⟨not_le.mp conflict, clear⟩
      · intro clear; exact clear.2

theorem verify_conflict {next : LandedVote}
    (before : bottom.slot < next.slot) (locked : next.slot ≤ bottom.lockout.expirationSlot)
    (bound : bottom.lockout.confirmationCount ≤ maxLockoutHistory) :
    verifyLockoutConsistency (bottom :: rest) (next :: proposed) = .error .lockoutConflict := by
  simp only [verifyLockoutConsistency, verifyAgainst, if_pos before, lastLocked_eq bound, if_pos locked]

/-- The account that holds `tower` accepts the sync to `after` and then holds `after`. -/
def SyncAccepted (tower after : Tower) : Prop :=
  ∀ (account : Sbpf.VoteState) (newVotes : List LandedVote) (epoch currentSlot : Nat),
    accountStack account = towerStack tower → newVotes.map lockout = after.votes →
    ∃ updated, account.applyVoteStateUpdate newVotes after.root epoch currentSlot = .ok updated ∧
      accountStack updated = towerStack after

/-- The vote roots nothing, and no vote it pops expires exactly at its slot. -/
def SyncSafe (tower : Tower) (slot : Nat) : Prop :=
  tower.simulateVote slot < maxLockoutHistory ∧
    ∀ vote ∈ tower.votes.drop (tower.simulateVote slot), vote.expirationSlot ≠ slot

theorem applyVoteStateUpdate_ok_iff {account : Sbpf.VoteState}
    {after : Tower} (sound : SoundTower after) (nonempty : after.votes ≠ [])
    (same : newVotes.map lockout = after.votes) (forward : rootRollsBack account.rootSlot after.root = false) :
    (∃ updated, account.applyVoteStateUpdate newVotes after.root epoch currentSlot = .ok updated ∧
        accountStack updated = towerStack after) ↔ verifyLockoutConsistency account.votes newVotes = .ok () := by
  obtain ⟨ladder, height, _, rootBelow⟩ := sound
  have held : ∀ vote ∈ newVotes, vote.lockout ∈ after.votes :=
    fun vote member => same ▸ mem_map_of_mem member
  have short : ¬ maxLockoutHistory < newVotes.length := by
    rw [← same, length_map] at height
    omega
  have some : newVotes ≠ [] := by
    rintro rfl
    exact nonempty same.symm
  have checked : checkVotes after.root none newVotes = .ok () := by
    apply checkVotes_ok
    · intro vote member
      exact ladder.mem_bounds (mem_reverse.mpr (held vote member))
    · intro root rooted vote member
      exact rootBelow root rooted vote.lockout (held vote member)
    · rw [toList_none, nil_append, same]
      exact isChain_reverse.mp (by simpa using ladder.nested)
  simp only [applyVoteStateUpdate, if_neg short, if_neg some, forward, checked]
  cases merged : verifyLockoutConsistency account.votes newVotes with
  | error conflict => simp [bind, Except.bind]
  | ok accepted =>
    refine ⟨fun _ => rfl, fun _ => ⟨_, rfl, ?_⟩⟩
    simp [accountStack, towerStack, ← same, landedLatency, Function.comp_def]

/-- Without a promotion the merge fails only where a popped lockout ends at the slot itself. -/
theorem verify_without_root {account : Sbpf.VoteState} (ladder : Ladder 0 (kept ++ expired).reverse)
    (above : ∀ vote ∈ expired, vote.slot < slot) (ended : ∀ vote ∈ expired, vote.expirationSlot ≤ slot)
    (current : account.votes.map lockout = kept ++ expired) (proposed : newVotes.map lockout =
      (incrementChain 0 kept.reverse).reverse ++ [Lockout.new slot]) :
    verifyLockoutConsistency account.votes newVotes = .ok () ↔ ∀ vote ∈ expired, vote.expirationSlot ≠ slot := by
  have bounds : ∀ vote ∈ kept ++ expired, vote.confirmationCount ≤ maxLockoutHistory :=
    fun vote member => (ladder.mem_bounds (mem_reverse.mpr member)).2
  obtain ⟨keptVotes, expiredVotes, split, rfl, rfl⟩ := map_eq_append_iff.mp current
  obtain ⟨confirmedVotes, lastVotes, splitNew, confirmed, last⟩ := map_eq_append_iff.mp proposed
  obtain ⟨landed, rfl, landedNew⟩ := map_eq_singleton_iff.mp last
  have landedSlot : landed.slot = slot := congrArg Lockout.slot landedNew
  have aligned := forall₂_reverse_iff.mpr (@incrementChain_reconfirms _ 0
    fun vote member => bounds vote (by simp only [mem_append]; exact .inl (mem_reverse.mp member)))
  rw [reverse_reverse, ← confirmed, forall₂_map_left_iff, forall₂_map_right_iff] at aligned
  simp only [forall_mem_map] at above ended ⊢
  rw [split, splitNew, verify_kept aligned, verify_expired
    (fun vote member => by rw [landedSlot]; exact above vote member)
    (fun vote member => bounds vote.lockout (by simp [mem_map_of_mem member])), landedSlot]
  constructor
  · intro strict vote member
    exact ne_of_lt (strict vote member)
  · intro differs vote member
    exact lt_of_le_of_ne (ended vote member) (differs vote member)

/-- The rooted vote is still locked when its successor was cast, and the merge
does not skip it: a promotion is always a conflict. -/
theorem verify_promotion {account : Sbpf.VoteState} (ladder : Ladder 0 (bottom :: kept).reverse) (nonempty : kept ≠ [])
    (current : account.votes.map lockout = bottom :: kept) (proposed : newVotes.map lockout =
      (incrementChain 0 kept.reverse).reverse ++ [.new slot]) :
    verifyLockoutConsistency account.votes newVotes = .error .lockoutConflict := by
  have bounds : ∀ vote ∈ bottom :: kept, vote.confirmationCount ≤ maxLockoutHistory :=
    fun vote member => (ladder.mem_bounds (mem_reverse.mpr member)).2
  have aligned := forall₂_reverse_iff.mpr (@incrementChain_reconfirms kept.reverse 0
    fun vote member => bounds vote (by simp [mem_reverse.mp member]))
  have nested : (bottom :: kept).IsChain Nested := by
    have reversed := ladder.nested
    rwa [isChain_reverse] at reversed
  rw [reverse_reverse] at aligned
  cases kept with
  | nil => exact absurd rfl nonempty
  | cons second rest =>
    obtain ⟨next, others, same, _, confirmed⟩ := forall₂_cons_left_iff.mp aligned
    rw [confirmed, cons_append] at proposed
    obtain ⟨bottomVote, restVotes, split, bottomSame, _⟩ := map_eq_cons_iff.mp current
    obtain ⟨nextVote, otherVotes, splitNew, nextSame, _⟩ := map_eq_cons_iff.mp proposed
    obtain ⟨⟨before, _, inside⟩, _⟩ := isChain_cons_cons.mp nested
    have nextSlot : nextVote.slot = second.slot := by
      rw [LandedVote.slot, nextSame, same.1]
    rw [split, splitNew]
    apply verify_conflict
    · rw [nextSlot, LandedVote.slot, bottomSame]
      exact before
    · rw [nextSlot, bottomSame]
      exact inside
    · rw [bottomSame]
      exact bounds bottom (by simp)

theorem pushVote_root_forward (sound : SoundTower tower) (above : ∀ vote ∈ tower.votes, vote.slot < slot) :
    rootRollsBack tower.root (tower.pushVote slot).2.root = false := by
  obtain ⟨kept, _, _, _, _, shape⟩ := pushVote_shape sound above
  obtain ⟨_, unchanged, _⟩ | ⟨_, bottom, promoted, parts⟩ := shape
  · rw [unchanged]
    cases tower.root <;> simp [rootRollsBack]
  rw [promoted]
  cases rooted : tower.root with
  | none => rfl
  | some root =>
    have below := sound.rootBelow root rooted bottom (by rw [parts]; simp)
    simp only [rootRollsBack, decide_eq_false_iff_not]
    omega

theorem syncAccepted_pushVote_iff (sound : SoundTower tower)
    (above : ∀ vote ∈ tower.votes, vote.slot < slot) (aboveRoot : ∀ root ∈ tower.root, root < slot) :
    SyncAccepted tower (tower.pushVote slot).2 ↔ SyncSafe tower slot := by
  have soundAfter := sound.pushVote above aboveRoot
  have forward := pushVote_root_forward sound above
  obtain ⟨kept, votes, short, _, _, shape⟩ := pushVote_shape sound above
  have nonempty : (tower.pushVote slot).2.votes ≠ [] := by rw [votes]; simp
  -- every account and proposal that match the two towers get the same verdict
  have verdict : ∀ (account : Sbpf.VoteState) (newVotes : List LandedVote) (epoch currentSlot : Nat),
      accountStack account = towerStack tower →
      newVotes.map lockout = (tower.pushVote slot).2.votes →
      ((∃ updated, account.applyVoteStateUpdate newVotes (tower.pushVote slot).2.root epoch currentSlot =
          .ok updated ∧ accountStack updated = towerStack (tower.pushVote slot).2) ↔ SyncSafe tower slot) := by
    intro account newVotes epoch currentSlot holds proposed
    have held := congrArg Stack.votes holds
    have rooted : account.rootSlot = tower.root := congrArg Stack.root holds
    rw [applyVoteStateUpdate_ok_iff soundAfter nonempty proposed (by rw [rooted]; exact forward)]
    rw [votes] at proposed
    obtain ⟨room, _, parts⟩ | ⟨full, bottom, _, parts⟩ := shape
    · have ladder := sound.ladder
      rw [parts] at ladder
      rw [verify_without_root ladder (fun vote member => above vote (mem_of_mem_drop member))
        (fun vote member => popped_expired member) (held.trans parts) proposed]
      exact ⟨fun differs => ⟨room, differs⟩, fun safe => safe.2⟩
    · have bounded := simulateVoteFrom_le tower.votes slot tower.votes.length
      change tower.simulateVote slot ≤ tower.votes.length at bounded
      have stacked : kept ≠ [] := by
        rintro rfl
        rw [full, parts] at bounded
        simp [maxLockoutHistory] at bounded
      have ladder := sound.ladder
      rw [parts] at ladder
      rw [verify_promotion ladder stacked (held.trans parts) proposed]
      constructor
      · intro accepted
        cases accepted
      · intro safe
        exact absurd full (ne_of_lt safe.1)
  constructor
  · intro accepted
    let account : Sbpf.VoteState :=
      { votes := tower.votes.map (mk 0), rootSlot := tower.root, epochCredits := [] }
    let newVotes := (tower.pushVote slot).2.votes.map (mk 0)
    have holds : accountStack account = towerStack tower := by
      simp [account, accountStack, towerStack, Function.comp_def]
    have proposed : newVotes.map lockout = (tower.pushVote slot).2.votes := by
      simp [newVotes, Function.comp_def]
    exact (verdict account newVotes 0 slot holds proposed).mp
      (accepted account newVotes 0 slot holds proposed)
  · intro safe account newVotes epoch currentSlot holds proposed
    exact (verdict account newVotes epoch currentSlot holds proposed).mpr safe

/-- The towers of a run are sound and hold only slots that were voted for. -/
structure SoundRun (slots : List Nat) : Prop where
  sound : SoundTower (towerRun slots)
  voted : ∀ vote ∈ (towerRun slots).votes, vote.slot ∈ slots
  rooted : ∀ root ∈ (towerRun slots).root, root ∈ slots

theorem SoundRun.step (run : SoundRun slots)
    (newer : ∀ earlier ∈ slots, earlier < slot) : SoundRun (slots ++ [slot]) := by
  have above : ∀ vote ∈ (towerRun slots).votes, vote.slot < slot :=
    fun vote member => newer _ (run.voted vote member)
  have aboveRoot : ∀ root ∈ (towerRun slots).root, root < slot :=
    fun root rooted => newer _ (run.rooted root rooted)
  have sound := run.sound.pushVote above aboveRoot
  obtain ⟨kept, votes, _, _, _, shape⟩ := pushVote_shape run.sound above
  have held : ∀ vote ∈ kept, vote ∈ (towerRun slots).votes := by
    intro vote member
    obtain ⟨_, _, parts⟩ | ⟨_, bottom, _, parts⟩ := shape <;> rw [parts] <;> simp [member]
  refine ⟨by rw [towerRun_concat]; exact sound, ?_, ?_⟩
  · rw [towerRun_concat, votes]
    intro vote member
    obtain earlier | last := mem_append.mp member
    · obtain ⟨old, older, same⟩ := mem_incrementChain (mem_reverse.mp earlier)
      simp [same, run.voted old (held old (mem_reverse.mp older))]
    · simp [mem_singleton.mp last, Lockout.new]
  · rw [towerRun_concat]
    intro root rooted
    obtain ⟨_, unchanged, _⟩ | ⟨_, bottom, promoted, parts⟩ := shape
    · simp [run.rooted root (unchanged ▸ rooted)]
    · rw [promoted, mem_some] at rooted
      subst rooted
      simp [run.voted bottom (by rw [parts]; simp)]

theorem soundRun_of_increasing (increasing : slots.Pairwise (· < ·)) : SoundRun slots := by
  induction slots using reverseRecOn with
  | nil =>
    refine ⟨⟨trivial, ?_, rfl, ?_⟩, ?_, ?_⟩ <;> simp [towerRun, Tower.new]
  | append_singleton earlier slot ih =>
    have before := prefix_append earlier [slot]
    exact (ih (increasing.sublist before.sublist)).step
      (newer_of_increasing increasing (prefix_refl _))

/-- Over a strictly increasing sequence of slots every tower sync is accepted, and
leaves the new tower in the account, exactly when every vote is safe. -/
theorem syncs_accepted_iff_safe {slots : List Nat} (increasing : slots.Pairwise (· < ·)) :
    (∀ earlier slot, earlier ++ [slot] <+: slots → SyncAccepted (towerRun earlier) (towerRun (earlier ++ [slot]))) ↔
      ∀ earlier slot, earlier ++ [slot] <+: slots → SyncSafe (towerRun earlier) slot := by
  have each : ∀ earlier slot, earlier ++ [slot] <+: slots →
      (SyncAccepted (towerRun earlier) (towerRun (earlier ++ [slot])) ↔ SyncSafe (towerRun earlier) slot) := by
    intro earlier slot inside
    have newer := newer_of_increasing increasing inside
    have run := soundRun_of_increasing
      (increasing.sublist ((prefix_append earlier [slot]).trans inside).sublist)
    rw [towerRun_concat]
    exact syncAccepted_pushVote_iff run.sound (fun vote member => newer _ (run.voted vote member))
      (fun root rooted => newer _ (run.rooted root rooted))
  constructor
  · intro accepted earlier slot inside
    exact (each earlier slot inside).mp (accepted earlier slot inside)
  · intro safe earlier slot inside
    exact (each earlier slot inside).mpr (safe earlier slot inside)

/-- Slot 6 pops the vote for 3 one slot after its lockout ends: a safe vote. -/
theorem syncs_accepted_past_expiry : [3, 6].Pairwise (· < ·) ∧ ∀ earlier slot, earlier ++ [slot] <+: [3, 6] →
      SyncAccepted (towerRun earlier) (towerRun (earlier ++ [slot])) := by
  refine ⟨by decide, (syncs_accepted_iff_safe (by decide)).mpr ?_⟩
  refine forall_step_cons.mpr ⟨⟨by decide, by decide⟩, forall_step_cons.mpr ⟨⟨by decide, by decide⟩, ?_⟩⟩
  exact forall_step_nil.mpr trivial

/-- Slot 5 pops the vote for 3 exactly at the end of its lockout; the program
still counts it as locked and refuses the sync. -/
theorem sync_refused_at_exact_expiry : [3, 5].Pairwise (· < ·) ∧ Sbpf.VoteState.applyVoteStateUpdate
        { votes := (towerRun [3]).votes.map (mk 1), rootSlot := (towerRun [3]).root,
          epochCredits := [] }
        ((towerRun [3, 5]).votes.map (mk 1)) (towerRun [3, 5]).root 0 6 =
          .error .lockoutConflict ∧
      ¬ SyncAccepted (towerRun [3]) (towerRun [3, 5]) := by
  refine ⟨by decide, by rfl, ?_⟩
  intro accepted
  obtain ⟨updated, ran, _⟩ := accepted
    { votes := (towerRun [3]).votes.map (mk 1), rootSlot := (towerRun [3]).root,
      epochCredits := [] }
    ((towerRun [3, 5]).votes.map (mk 1)) 0 6 (by decide) (by decide)
  cases ran

end Karstflow.Voting
