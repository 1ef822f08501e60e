import Karstflow.Data.Steps
import Karstflow.Runtime.Landing
import Karstflow.Storage.PublishedStore

namespace Karstflow.Runtime

open Data Karstflow.Types Sbpf VoteAccountCache Table Option
open Storage (PublishedStore PublishedCall)

/-! The stake tracker and the vote cache against the accounts they follow. -/

/-- The delegation of an account: it is owned by the stake program, not empty,
and in the delegated state. -/
def liveDelegation (account : Account) : Option Delegation :=
  if account.owner = stakeProgramId ∧ account.lamports ≠ 0 then delegationOf account.data else none

def isLiveVote (account : Account) : Prop := account.owner = voteProgramId ∧ account.lamports ≠ 0

/-- The tracker lists the delegations of the published accounts, and the vote
cache lists live vote accounts only. -/
structure Mirrors (shared : Shared) (published : Table Pubkey Account) : Prop where
  stakes : ∀ tracker, shared.stakeTracker = some tracker →
    ∀ key, tracker.delegations.get key = (published.get key).bind liveDelegation
  votes : ∀ cache, shared.voteAccountCache = some cache →
    ∀ key, cache.entries.get key ≠ none → ∃ account, published.get key = some account ∧ isLiveVote account

/-- No written account leaves the program under which a cache lists it. -/
structure StaysListed (shared : Shared) (writes : Modified) : Prop where
  stakes : ∀ tracker, shared.stakeTracker = some tracker →
    ∀ key account, writes.get key = some account → account.owner ≠ stakeProgramId →
      tracker.delegations.get key = none
  votes : ∀ cache, shared.voteAccountCache = some cache →
    ∀ key account, writes.get key = some account → account.owner ≠ voteProgramId →
      cache.entries.get key = none

section

variable {shared : Shared}

/-- What the tracker lists for an account once it has been written. -/
def followedDelegation (account : Account) (listed : Option Delegation) : Option Delegation :=
  if account.owner = stakeProgramId then liveDelegation account else listed

/-- Whether the vote cache lists an account once it has been written. -/
def followedVote (platform : Platform) (account : Account) (listed : Bool) : Bool :=
  if account.owner ≠ voteProgramId then listed
  else if account.lamports = 0 then false
  else (platform.voteCacheFields account.data).isSome || listed

theorem follow_delegations (tracker : StakeTracker) (entry : Pubkey × Account) (key : Pubkey) :
    (tracker.follow entry.1 entry.2).delegations.get key =
      if key = entry.1 then followedDelegation entry.2 (tracker.delegations.get key)
      else tracker.delegations.get key := by
  obtain ⟨written, account⟩ := entry
  by_cases owned : account.owner = stakeProgramId
  · by_cases empty : account.lamports = 0
    · simp [StakeTracker.follow, followedDelegation, liveDelegation, owned, empty, get_erase]
    · cases decoded : delegationOf account.data with
      | none => simp [StakeTracker.follow, followedDelegation, liveDelegation, owned, empty, decoded, get_erase]
      | some delegation =>
          simp [StakeTracker.follow, followedDelegation, liveDelegation, owned, empty, decoded, get_insert]
  · simp [StakeTracker.follow, followedDelegation, owned]

theorem follow_votes (cache : VoteAccountCache) (entry : Pubkey × Account) (key : Pubkey) :
    ((cache.follow platform entry.1 entry.2).entries.get key).isSome =
      if key = entry.1 then followedVote platform entry.2 (cache.entries.get key).isSome
      else (cache.entries.get key).isSome := by
  obtain ⟨written, account⟩ := entry
  by_cases owned : account.owner = voteProgramId
  · by_cases empty : account.lamports = 0
    · cases listed : cache.entries.get written with
      | none =>
          by_cases same : key = written
          · simp [follow, followedVote, owned, empty, listed, same]
          · simp [follow, owned, empty, listed, same]
      | some removed => simp [follow, followedVote, owned, empty, listed, get_erase, apply_ite Option.isSome]
    · cases parsed : platform.voteCacheFields account.data with
      | none => simp [follow, followedVote, owned, empty, parsed]
      | some fields => simp [follow, followedVote, owned, empty, parsed, get_insert, apply_ite Option.isSome]
  · simp [follow, followedVote, owned]

theorem publish_delegations (before : shared.stakeTracker = some tracker)
    (followed : (shared.publish platform writes).stakeTracker = some after) (key : Pubkey) :
    after.delegations.get key = (writes.get key).elim (tracker.delegations.get key) fun account =>
        followedDelegation account (tracker.delegations.get key) := by
  rw [Shared.publish, before, map_some, some.injEq] at followed
  subst followed
  exact @view_foldl_entries _ _ _ _ _ (fun tracker key => tracker.delegations.get key) _
    (fun _ account listed => followedDelegation account listed) follow_delegations writes tracker key

theorem publish_votes (before : shared.voteAccountCache = some cache)
    (followed : (shared.publish platform writes).voteAccountCache = some after) (key : Pubkey) :
    (after.entries.get key).isSome = (writes.get key).elim (cache.entries.get key).isSome fun account =>
        followedVote platform account (cache.entries.get key).isSome := by
  rw [Shared.publish, before, map_some, some.injEq] at followed
  subst followed
  exact @view_foldl_entries _ _ _ _ _ (fun cache key => (cache.entries.get key).isSome) _
    (fun _ account listed => followedVote platform account listed) follow_votes writes cache key

theorem publish_published :
    (shared.publish platform writes).published.get key = (writes.get key).or (shared.published.get key) :=
  get_overlay shared.published writes key

/-- The caches mirror the accounts after a write exactly when no written account
leaves the program it is listed under. -/
theorem mirrors_publish_iff (mirrors : Mirrors shared shared.published) (platform : Platform) (writes : Modified) :
    Mirrors (shared.publish platform writes) (shared.publish platform writes).published ↔
      StaysListed shared writes := by
  constructor
  · intro kept
    refine ⟨?_, ?_⟩
    · intro tracker before key account written left
      have followed : (shared.publish platform writes).stakeTracker =
          some (writes.entries.foldl (fun tracker entry => tracker.follow entry.1 entry.2) tracker) := by
        rw [Shared.publish, before, map_some]
      have listed := publish_delegations before followed key
      rw [kept.stakes _ followed, publish_published, written] at listed
      simpa [followedDelegation, liveDelegation, left] using listed.symm
    · intro cache before key account written left
      have followed : (shared.publish platform writes).voteAccountCache =
          some (writes.entries.foldl (fun cache entry => cache.follow platform entry.1 entry.2) cache) := by
        rw [Shared.publish, before, map_some]
      by_contra listed
      have still := publish_votes before followed key
      rw [written, elim_some, followedVote, if_pos left, isSome_iff_ne_none.mpr listed] at still
      obtain ⟨found, there, live⟩ := kept.votes _ followed key (isSome_iff_ne_none.mp still)
      rw [publish_published, written, some_or] at there
      cases there
      exact left live.1
  · intro stays
    refine ⟨?_, ?_⟩
    · intro after followed key
      obtain ⟨tracker, before, -⟩ := map_eq_some_iff.mp followed
      rw [publish_delegations before followed, publish_published]
      cases written : writes.get key with
      | none => exact mirrors.stakes tracker before key
      | some account =>
          rw [elim_some, some_or, bind_some, followedDelegation]
          split
          · rfl
          · rename_i left
            rw [stays.stakes tracker before key account written left, liveDelegation, if_neg]
            exact fun live => left live.1
    · intro after followed key listed
      obtain ⟨cache, before, -⟩ := map_eq_some_iff.mp followed
      have shown := publish_votes before followed key
      rw [isSome_iff_ne_none.mpr listed] at shown
      rw [publish_published]
      cases written : writes.get key with
      | none =>
          rw [written, elim_none] at shown
          exact mirrors.votes cache before key (isSome_iff_ne_none.mp shown.symm)
      | some account =>
          refine ⟨account, rfl, ?_⟩
          rw [written, elim_some, followedVote] at shown
          split at shown
          · rename_i left
            rw [stays.votes cache before key account written left] at shown
            cases shown
          rename_i owned
          split at shown
          · cases shown
          · rename_i funded
            exact ⟨not_not.mp owned, funded⟩

theorem mirrors_congr (same : ∀ key, table.get key = published.get key)
    (stakeTracker : other.stakeTracker = shared.stakeTracker)
    (voteAccountCache : other.voteAccountCache = shared.voteAccountCache) :
    Mirrors other table ↔ Mirrors shared published := by
  constructor
  · intro mirrors
    exact ⟨by simpa only [← stakeTracker, ← same] using mirrors.stakes,
      by simpa only [← voteAccountCache, ← same] using mirrors.votes⟩
  · intro mirrors
    exact ⟨by simpa only [stakeTracker, same] using mirrors.stakes,
      by simpa only [voteAccountCache, same] using mirrors.votes⟩

theorem mirrors_process_iff {call : Call} (mirrors : Mirrors ledger.shared ledger.shared.published) :
    Mirrors (call.process platform ledger).1.shared (call.process platform ledger).1.shared.published ↔
      StaysListed ledger.shared (call.writes platform ledger) := by
  have left := (call.published platform ledger).shared
  rw [← mirrors_publish_iff mirrors platform, ← left]
  apply mirrors_congr (fun _ => rfl) <;> rfl

end

/-- Along a run of calls the caches mirror the accounts of the store exactly
as long as no call takes a listed account out of its program, if the store
keeps what is written. -/
theorem mirrors_iff (platform : Platform) (start : Ledger) (calls : List Call) (store : PublishedStore)
    (served : List Call → List PublishedCall)
    (serves : ∀ taken, taken <+: calls → store.Serves (served taken) start.shared.published
      (start.afterCalls platform taken).shared.published) (mirrors : Mirrors start.shared store.iterAll) :
    (∀ taken, taken <+: calls →
      Mirrors (start.afterCalls platform taken).shared ((served taken).foldl .serve store).iterAll) ↔
      ∀ earlier next, earlier ++ [next] <+: calls → StaysListed (start.afterCalls platform earlier).shared
          (next.writes platform (start.afterCalls platform earlier)) := by
  have shown : ∀ {taken}, taken <+: calls →
      (Mirrors (start.afterCalls platform taken).shared ((served taken).foldl .serve store).iterAll ↔
        Mirrors (start.afterCalls platform taken).shared (start.afterCalls platform taken).shared.published) :=
    fun inside => mirrors_congr (serves _ inside).holds.get_iterAll rfl rfl
  apply @good_iff_allowed _ _ fun taken =>
    Mirrors (start.afterCalls platform taken).shared (start.afterCalls platform taken).shared.published
  · exact (mirrors_congr (serves [] (List.nil_prefix)).shows.get_iterAll rfl rfl).mp mirrors
  · intro earlier next _ before stays
    rw [afterCalls_append]
    exact (mirrors_process_iff before).mpr stays
  · intro taken inside holds
    exact (shown inside).mpr holds
  · intro earlier next inside before after
    rw [shown inside, afterCalls_append] at after
    exact (mirrors_process_iff before).mp after

def stakeAccount : Account :=
  { lamports := 1000, owner := stakeProgramId, executable := false, rentEpoch := 0,
    data := [2, 0, 0, 0] ++ .replicate 192 0, lamports_le := by decide }

def stakeDelegation : Delegation :=
  { voterPubkey := .filled 32 0, stakeAmount := 0, activationEpoch := 0, deactivationEpoch := 0,
    warmupCooldownRate := .replicate 8 0 }

/-- A bank with a purse and a stake account that its tracker lists. -/
def stakeLedger : Ledger :=
  let opening := Ledger.opening
    ((empty.insert (Octets.filled 32 7) purse).insert (.filled 32 6) stakeAccount)
    (.filled 32 9)
  { opening with
    shared.stakeTracker := some
      { delegations := empty.insert (.filled 32 6) stakeDelegation, currentEpoch := 0 }
    shared.voteAccountCache := some { entries := empty, totalEpochStake := 0 } }

/-- A backend that moves all lamports of the first account to the second. -/
def closingBackend : Backend := fun info remaining =>
  { Backend.idle info remaining with
    modifiedAccounts :=
      match info.accounts with
      | closed :: receiver :: _ =>
        (empty.insert closed.pubkey (closed.account.setLamports 0)).insert receiver.pubkey
          (receiver.account.credit closed.account.lamports)
      | _ => empty }

/-- The stake account is closed in favour of the payer. -/
def closingCall : Call :=
  { backend := closingBackend
    transaction :=
      .simple [.filled 32 7, .filled 32 6, computeBudgetProgramId] 1 (.filled 32 9)
        [{ programIdIndex := 2, accountIndices := [1, 0], data := [] }]
    computeLimit := 1400000 }

/-- A cache that holds the two accounts and has room for no more. -/
def stakeStore : PublishedStore := { cache := stakeLedger.shared.published, maxEntries := 2, store := none }

theorem stakeStore_serves (fits : stakeStore.keepsAll calls = true) :
    stakeStore.Serves calls stakeLedger.shared.published
      (calls.foldl PublishedCall.writeTo stakeLedger.shared.published) :=
  ⟨.of_unbacked rfl (fun _ => rfl) (by decide +kernel), rfl, fits⟩

theorem stakeLedger_mirrors : Mirrors stakeLedger.shared stakeStore.iterAll := by
  refine ⟨?_, ?_⟩
  · intro tracker same key
    cases same
    by_cases stake : key = .filled 32 6
    · subst stake
      decide +kernel
    by_cases payer : key = .filled 32 7
    · subst payer
      decide +kernel
    · simp [stakeStore, PublishedStore.iterAll, stakeLedger, Ledger.opening, Ledger.newGenesis, get_insert_ne stake,
        get_insert_ne payer]
  · intro cache same key listed
    cases same
    exact absurd (get_empty key) listed

theorem purseCall_mirrors : Mirrors (stakeLedger.afterCalls (.bare Host.bare) [purseCall]).shared
      (stakeStore.serve (.write (empty.insert (.filled 32 7) (purse.debit 5000)) 0)).iterAll := by
  have condition := mirrors_iff (.bare .bare) stakeLedger [purseCall] stakeStore
    (fun taken => taken.map fun _ => .write (empty.insert (.filled 32 7) (purse.debit 5000)) 0) ?_ stakeLedger_mirrors
  · refine condition.mpr ?_ _ (List.prefix_refl _)
    rw [forall_step_cons]
    refine ⟨⟨?_, ?_⟩, ?_⟩
    · intro tracker same key account written left
      cases same
      have payer : key = .filled 32 7 := by
        by_contra other
        have absent : (empty.insert (.filled 32 7) (purse.debit 5000) : Modified).get key = none := by
          rw [get_insert_ne other, get_empty]
        exact absurd (absent.symm.trans written) (by simp)
      subst payer
      decide
    · intro cache same key account written left
      cases same
      exact get_empty key
    · intro earlier next inside
      simp at inside
  · intro taken inside
    obtain rfl | rfl : taken = [] ∨ taken = [purseCall] := by
      simpa [List.prefix_cons_iff] using inside
    · exact stakeStore_serves rfl
    · exact stakeStore_serves (by decide +kernel)

theorem closingCall_not_mirrors : ¬ Mirrors (stakeLedger.afterCalls (.bare Host.bare) [closingCall]).shared
      (stakeStore.serve (.write (closingCall.writes (.bare .bare) stakeLedger) 0)).iterAll := by
  intro mirrors
  have listed : ((stakeLedger.afterCalls (.bare .bare) [closingCall]).shared.stakeTracker.bind
      fun tracker => tracker.delegations.get (.filled 32 6)) = some stakeDelegation := by
    decide +kernel
  have closed : ((stakeStore.serve (.write (closingCall.writes (.bare .bare) stakeLedger) 0)).iterAll.get
      (.filled 32 6)).bind liveDelegation = none := by
    decide +kernel
  obtain ⟨tracker, present, found⟩ := bind_eq_some_iff.mp listed
  rw [mirrors.stakes tracker present, closed] at found
  cases found

end Karstflow.Runtime
