import Karstflow.Voting.TowerSync

namespace Karstflow.Voting

open Data Consensus Tower List

/-! The tower stays verifiable through any votes and any resets of its root. -/

inductive TowerCall where
  | recordVote (slot : Nat) (isSameFork : Nat → Nat → Bool)
  | setRoot (root : Nat)

namespace TowerCall

/-- A refused vote leaves the tower as it is. -/
def apply (tower : Tower) : TowerCall → Tower
  | .recordVote slot isSameFork =>
    match tower.recordVote slot isSameFork with
    | .ok (_, voted) => voted
    | .error _ => tower
  | .setRoot root => tower.setRoot root

def run (root : Option Nat) (calls : List TowerCall) : Tower :=
  calls.foldl apply { votes := [], root, maxSize := maxLockoutHistory }

theorem apply_recordVote : apply tower (.recordVote slot isSameFork) =
      if tower.isLockedOut slot isSameFork then tower else (tower.pushVote slot).2 := by
  simp only [apply, Tower.recordVote]
  cases tower.isLockedOut slot isSameFork with
  | true | false => rfl

end TowerCall

theorem Ladder.filter {votes : List Lockout} (ladder : Ladder previous votes) (root : Nat) :
    Ladder previous (votes.filter fun vote => root < vote.slot) := by
  -- Slots fall from the newest vote on, so the votes above the root come first.
  have cut : votes.filter (fun vote => root < vote.slot) = votes.takeWhile (fun vote => root < vote.slot) := by
    induction votes generalizing previous with
    | nil => rfl
    | cons vote older ih =>
      obtain ⟨-, -, slots, -, rest⟩ := ladder
      by_cases above : root < vote.slot
      · rw [filter_cons_of_pos (by simpa using above), takeWhile_cons_of_pos (by simpa using above), ih rest]
      rw [takeWhile_cons_of_neg (by simpa using above), filter_eq_nil_iff]
      intro below member
      obtain rfl | deeper := mem_cons.mp member
      · simpa using above
      · have lower := slots below deeper
        simp only [decide_eq_true_eq]
        omega
  rw [cut]
  apply of_append_left
  rw [takeWhile_append_dropWhile]
  exact ladder

namespace SoundTower

theorem setRoot (sound : SoundTower tower) (root : Nat) : SoundTower (tower.setRoot root) := by
  refine ⟨?_, (length_filter_le _ _).trans sound.height, sound.limit, ?_⟩
  · rw [Tower.setRoot, ← filter_reverse]
    exact sound.ladder.filter root
  · intro other rooted vote member
    cases rooted
    simpa using (mem_filter.mp member).2

theorem below_of_newer (sound : SoundTower tower) (newer : ¬ tower.lastVoteSlot.any (fun last => slot ≤ last) = true) :
    ∀ vote ∈ tower.votes, vote.slot < slot := by
  intro vote member
  have ladder := sound.ladder
  rw [lastVoteSlot, ← head?_reverse] at newer
  rw [← mem_reverse] at member
  cases stack : tower.votes.reverse with
  | nil =>
    rw [stack] at member
    exact absurd member not_mem_nil
  | cons newest older =>
    rw [stack] at ladder member newer
    simp only [head?_cons, Option.map_some, Option.any_some, decide_eq_true_eq, not_le] at newer
    obtain rfl | deeper := mem_cons.mp member
    · exact newer
    · exact (ladder.2.2.1 vote deeper).trans newer

theorem pushVote_root (sound : SoundTower tower) :
    ((tower.pushVote slot).1 = none ∧ (tower.pushVote slot).2.root = tower.root) ∨
      ∃ bottom, (tower.pushVote slot).1 = some bottom.slot ∧ (tower.pushVote slot).2.root = some bottom.slot ∧
        tower.votes.length = tower.maxSize ∧ tower.votes.head? = some bottom := by
  simp only [Tower.pushVote]
  split
  · exact .inl ⟨rfl, rfl⟩
  have short := length_take_le' (tower.simulateVote slot) tower.votes
  obtain ⟨-, height, limit, -⟩ := sound
  rw [limit]
  obtain ⟨room, -⟩ | ⟨bottom, rest, shape, full, rooted⟩ := popBottom_cases (short.trans height)
  · rw [room]
    exact .inl ⟨rfl, rfl⟩
  have whole : tower.votes.take (tower.simulateVote slot) = tower.votes :=
    (take_sublist _ _).eq_of_length_le (by omega)
  rw [whole] at shape full
  rw [rooted]
  exact .inr ⟨bottom, rfl, rfl, full, by rw [shape]; rfl⟩

theorem apply (sound : SoundTower tower) (call : TowerCall) : SoundTower (call.apply tower) := by
  cases call with
  | setRoot root => exact sound.setRoot root
  | recordVote slot isSameFork =>
    rw [TowerCall.apply_recordVote]
    split
    · exact sound
    rename_i free
    by_cases newer : tower.lastVoteSlot.any (fun last => slot ≤ last) = true
    · rw [Tower.pushVote, if_pos newer]
      exact sound
    · refine sound.pushVote (sound.below_of_newer newer) fun root rooted => ?_
      simp only [isLockedOut, Bool.or_eq_true, not_or, Option.mem_def.mp rooted] at free
      simpa using free.1

theorem run (root : Option Nat) (calls : List TowerCall) : SoundTower (TowerCall.run root calls) := by
  induction calls using reverseRecOn with
  | nil => exact ⟨trivial, Nat.zero_le _, rfl, fun _ _ _ member => absurd member not_mem_nil⟩
  | append_singleton calls call ih =>
    rw [TowerCall.run, foldl_append]
    exact ih.apply call

theorem nested (sound : SoundTower tower) : tower.votes.IsChain Nested := by
  rw [← isChain_reverse]
  exact sound.ladder.nested

end SoundTower

theorem checkEach_ok {votes : List Lockout}
    (passes : ∀ below, ∀ vote ∈ votes, (∀ older ∈ below, Nested older vote) → check below vote = .ok ())
    (nested : (below.toList ++ votes).IsChain Nested) : checkEach check below votes = .ok () := by
  induction votes generalizing below with
  | nil => rfl
  | cons vote rest ih =>
    have nests : ∀ older ∈ below, Nested older vote := by
      intro older held
      rw [Option.mem_def.mp held] at nested
      exact nested.rel
    rw [checkEach, passes below vote mem_cons_self nests]
    exact ih (fun below other member => passes below other (mem_cons_of_mem _ member)) nested.right_of_append

theorem SoundTower.verify (sound : SoundTower tower) : tower.verify = .ok () := by
  have bounds : ∀ vote ∈ tower.votes, 0 < vote.confirmationCount ∧ vote.confirmationCount ≤ maxLockoutHistory :=
    fun vote member => sound.ladder.mem_bounds (mem_reverse.mpr member)
  have roots : checkEach (fun _ => checkRoot tower.root) none tower.votes = .ok () := by
    refine checkEach_ok (fun _ vote member _ => ?_) sound.nested
    cases rooted : tower.root with
    | none => rfl
    | some root => exact demand_eq_ok.mpr (sound.rootBelow root rooted vote member)
  have slots : checkEach checkSlot none tower.votes = .ok () := by
    refine checkEach_ok (fun below vote _ nests => ?_) sound.nested
    cases below with
    | none => rfl
    | some older => exact demand_eq_ok.mpr (nests older rfl).1
  have confirmations : checkEach checkConfirmation none tower.votes = .ok () := by
    refine checkEach_ok (fun below vote member nests => ?_) sound.nested
    obtain ⟨positive, bounded⟩ := bounds vote member
    simp only [checkConfirmation, bind_eq_ok, demand_eq_ok]
    refine ⟨(), positive.ne', (), bounded, ?_⟩
    cases below with
    | none => rfl
    | some older => exact demand_eq_ok.mpr (nests older rfl).2.1.le
  simp only [Tower.verify, bind_eq_ok, demand_eq_ok]
  exact ⟨(), sound.limit ▸ sound.height, (), roots, (), slots, confirmations⟩

/-- The root a tower has is at most the one that another has. -/
def RootKept (before after : Tower) : Prop := ∀ old ∈ before.root, ∃ new ∈ after.root, old ≤ new

theorem SoundTower.rootKept_iff (sound : SoundTower tower) {call : TowerCall} :
    RootKept tower (call.apply tower) ↔ ∀ root, call = .setRoot root → ∀ old ∈ tower.root, old ≤ root := by
  cases call with
  | setRoot root => simp [RootKept, TowerCall.apply, Tower.setRoot]
  | recordVote slot isSameFork =>
    refine iff_of_true ?_ (fun _ other => TowerCall.noConfusion other)
    intro old rooted
    rw [TowerCall.apply_recordVote]
    split
    · exact ⟨old, rooted, le_refl _⟩
    · obtain ⟨-, same⟩ | ⟨bottom, -, promoted, -, oldest⟩ := sound.pushVote_root
      · exact ⟨old, same ▸ rooted, le_refl _⟩
      · exact ⟨_, promoted, (sound.rootBelow old rooted bottom (mem_of_head? oldest)).le⟩

/-- After every call the tower passes its own checks, its counts fall from the
oldest vote to the newest, only a `set_root` below the root in force lowers the
root, and `push_vote` promotes nothing but the oldest vote of a full tower. -/
theorem tower_verified (root : Option Nat) (calls : List TowerCall) (call : TowerCall) :
    let tower := TowerCall.run root calls
    let after := TowerCall.run root (calls ++ [call])
    after.verify = .ok () ∧
      after.votes.Pairwise (fun older newer => newer.confirmationCount < older.confirmationCount) ∧
      (RootKept tower after ↔ ∀ root, call = .setRoot root → ∀ old ∈ tower.root, old ≤ root) ∧
      ∀ slot promoted, (tower.pushVote slot).1 = some promoted →
        tower.votes.length = tower.maxSize ∧ tower.votes.head?.map Lockout.slot = some promoted := by
  intro tower after
  have sound := SoundTower.run root calls
  have soundAfter := SoundTower.run root (calls ++ [call])
  refine ⟨soundAfter.verify, ?_, ?_, ?_⟩
  · refine (soundAfter.nested.imp fun older newer nested => nested.2.1).pairwise
  · have stepped : after = call.apply tower := by simp [after, tower, TowerCall.run]
    rw [stepped]
    exact sound.rootKept_iff
  · intro slot promoted reported
    obtain ⟨silent, -⟩ | ⟨bottom, same, -, full, oldest⟩ := sound.pushVote_root
    · rw [silent] at reported
      cases reported
    · rw [same] at reported
      exact ⟨full, by rw [oldest, Option.map_some, reported]⟩

/-- The votes promote slot 3, and the second call with root 2 goes back below it. -/
theorem setRoot_lowers_root :
    let votes := (range 32).map fun index => TowerCall.recordVote (index + 3) fun _ _ => true
    (TowerCall.run none (.setRoot 2 :: votes)).root = some 3 ∧
      (TowerCall.run none (.setRoot 2 :: votes ++ [.setRoot 2])).root = some 2 := by
  decide +kernel

end Karstflow.Voting
