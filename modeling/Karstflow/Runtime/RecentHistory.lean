import Karstflow.Data.Table
import Karstflow.Types.Account

namespace Karstflow.Runtime

open Data Karstflow.Types Table

/-! What a bank remembers of the recent past: the blockhashes that
transactions may refer to, and the transactions it has seen. -/

def maxRecentBlockhashes : Nat := 300

structure BlockhashInfo where
  hash : Hash
  lamportsPerSignature : Nat
  slot : Nat
deriving DecidableEq

/-- The recent blockhashes, oldest first. The source keeps the positions in an
index that it rebuilds on every change. -/
structure BlockhashQueue where
  queue : List BlockhashInfo
  maxAge : Nat
deriving DecidableEq

namespace BlockhashQueue

def position (blockhashes : BlockhashQueue) (hash : Hash) : Option Nat :=
  blockhashes.queue.findIdx? fun info => info.hash = hash

/-- Append a blockhash, dropping the oldest from a full queue. A hash that is
already there is skipped. -/
def registerHash (blockhashes : BlockhashQueue) (info : BlockhashInfo) : BlockhashQueue :=
  if (blockhashes.position info.hash).isSome then blockhashes
  else
    let kept := if maxRecentBlockhashes ≤ blockhashes.queue.length then blockhashes.queue.drop 1
      else blockhashes.queue
    { blockhashes with queue := kept ++ [info] }

def checkHashAge (blockhashes : BlockhashQueue) (hash : Hash) (maxAge : Nat) : Bool :=
  match blockhashes.position hash with
  | some position => blockhashes.queue.length - 1 - position ≤ maxAge
  | none => false

def isHashValid (blockhashes : BlockhashQueue) (hash : Hash) : Bool :=
  blockhashes.checkHashAge hash blockhashes.maxAge

end BlockhashQueue

inductive TransactionStatus where
  | success
  | failed
deriving Repr, DecidableEq

structure CacheEntry where
  slot : Nat
  forks : List Nat
  status : TransactionStatus
deriving DecidableEq

namespace CacheEntry

def addFork (entry : CacheEntry) (fork : Nat) : CacheEntry :=
  if fork ∈ entry.forks then entry else { entry with forks := entry.forks ++ [fork] }

def seenOnFork (entry : CacheEntry) (fork : Nat) : Bool := fork ∈ entry.forks

end CacheEntry

/-- The seen transactions by blockhash and message hash. The source spreads
them over shards by the blockhash. -/
structure TransactionCache where
  entries : Table (Hash × List UInt8) CacheEntry
  maxEntries : Nat

namespace TransactionCache

variable {cache : TransactionCache}

def entryCount (cache : TransactionCache) : Nat := cache.entries.size

/-- Record a transaction. The answer says whether it is new on the fork; a
full cache records nothing. -/
def insertWithStatus (cache : TransactionCache) (blockhash : Hash) (message : List UInt8)
    (slot fork : Nat) (status : TransactionStatus) : TransactionCache × Bool :=
  if cache.maxEntries ≤ cache.entryCount then (cache, false)
  else
    match cache.entries.get (blockhash, message) with
    | some entry =>
      if entry.seenOnFork fork then (cache, false)
      else ({ cache with entries := cache.entries.insert (blockhash, message) (entry.addFork fork) }, true)
    | none =>
      ({ cache with
        entries := cache.entries.insert (blockhash, message) { slot, forks := [fork], status } }, true)

def contains (cache : TransactionCache) (blockhash : Hash) (message : List UInt8) (fork : Nat) : Bool :=
  match cache.entries.get (blockhash, message) with
  | some entry => entry.seenOnFork fork
  | none => false

theorem contains_insertWithStatus :
    (cache.insertWithStatus blockhash message slot fork status).1.contains other otherMessage otherFork = true ↔
      cache.contains other otherMessage otherFork = true ∨
        cache.entryCount < cache.maxEntries ∧ other = blockhash ∧ otherMessage = message ∧ otherFork = fork := by
  by_cases full : cache.maxEntries ≤ cache.entryCount
  · simp [insertWithStatus, full, not_lt.mpr full]
  have room := Nat.lt_of_not_le full
  by_cases here : (other, otherMessage) = (blockhash, message)
  · obtain ⟨rfl, rfl⟩ := Prod.mk.inj here
    cases found : cache.entries.get (other, otherMessage) with
    | none =>
      simp [insertWithStatus, full, found, contains, get_insert_self, CacheEntry.seenOnFork, room]
    | some entry =>
      by_cases seen : fork ∈ entry.forks
      · simp only [insertWithStatus, full, found, contains, CacheEntry.seenOnFork, seen, if_false,
          decide_true, if_true, decide_eq_true_eq, room, true_and]
        constructor
        · intro member
          exact .inl member
        · intro either
          obtain member | same := either
          · exact member
          · exact same ▸ seen
      · simp [insertWithStatus, full, found, contains, CacheEntry.seenOnFork, CacheEntry.addFork, seen,
          get_insert_self, room]
  · have apart : ¬(other = blockhash ∧ otherMessage = message) := fun same => here (by rw [same.1, same.2])
    have elsewhere : ∀ entry, (cache.entries.insert (blockhash, message) entry).get (other, otherMessage) =
        cache.entries.get (other, otherMessage) := fun entry => get_insert_ne here
    have same : (cache.insertWithStatus blockhash message slot fork status).1.contains other otherMessage
        otherFork = cache.contains other otherMessage otherFork := by
      cases found : cache.entries.get (blockhash, message) with
      | none => simp [insertWithStatus, full, found, contains, elsewhere]
      | some entry =>
        by_cases seen : entry.seenOnFork fork = true
        · simp [insertWithStatus, full, found, seen]
        · simp [insertWithStatus, full, found, seen, contains, elsewhere]
    rw [same]
    constructor
    · intro held
      exact .inl held
    · intro either
      obtain held | fresh := either
      · exact held
      · exact absurd ⟨fresh.2.1, fresh.2.2.1⟩ apart

end TransactionCache

end Karstflow.Runtime
