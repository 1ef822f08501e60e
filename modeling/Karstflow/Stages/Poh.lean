import Karstflow.Types.Account
import Mathlib.Algebra.Order.BigOperators.Group.List

namespace Karstflow.Stages

open Data Karstflow.Types

/-! Proof of history: the hash chain of a leader slot. -/

inductive PohState where
  | uninitialized
  | idling
  | hashing
  | waitingForBank
  | waitingForSlot
  | leading
deriving Repr, DecidableEq

inductive Entry where
  | tick (hash : Hash) (numHashes : Nat)
  | microblock (hash : Hash) (numHashes transactionCount : Nat)
deriving DecidableEq

namespace Entry

def hash : Entry → Hash
  | .tick hash _ | .microblock hash _ _ => hash

def numHashes : Entry → Nat
  | .tick _ numHashes | .microblock _ numHashes _ => numHashes

def isTick : Entry → Bool
  | .tick _ _ => true
  | .microblock _ _ _ => false

end Entry

structure SlotComplete where
  slot : Nat
  blockhash : Hash
deriving DecidableEq

structure PohService where
  state : PohState
  hash : Hash
  slot : Nat
  hashcnt : Nat
  lastEntryHashcnt : Nat
  lastEntrySlot : Nat
  microblocksInSlot : Nat
  slotDone : Bool
  haveLeaderBank : Bool
  resetSlot : Nat
  nextLeaderSlot : Nat
  hashesPerTick : Nat
  ticksPerSlot : Nat
  maxMicroblocksPerSlot : Nat
  skippedTickHashes : List Hash
  resetStartNs : Int

def hashcntDurationNs : Nat := 100

def hashOnce (sha256 : List UInt8 → Hash) (hash : Hash) : Hash := sha256 hash.bytes

def hashMixin (sha256 : List UInt8 → Hash) (hash : Hash) (mixin : Hash) : Hash :=
  sha256 (hash.bytes ++ mixin.bytes)

namespace PohService

variable (sha256 : List UInt8 → Hash) (poh : PohService)

/-- The source keeps this product in a field and renews it with its factors.
It is a `u64` there, like the counters and the slots, and nothing checks it; as
long as it fits, `Recording.fits` keeps the counters of a slot within it. -/
def hashcntPerSlot : Nat := poh.hashesPerTick * poh.ticksPerSlot

def hashcntSinceLastEntry : Nat :=
  if poh.slot = poh.lastEntrySlot then poh.hashcnt - poh.lastEntryHashcnt
  else (poh.hashcntPerSlot - poh.lastEntryHashcnt) + poh.hashcnt

def reset (completedSlot : Nat) (completedBlockhash : Hash) (nextLeaderSlot : Nat) : PohService :=
  { poh with
    resetSlot := completedSlot
    hash := completedBlockhash
    slot := completedSlot + 1
    hashcnt := 0
    lastEntrySlot := completedSlot + 1
    lastEntryHashcnt := 0
    microblocksInSlot := 0
    slotDone := false
    haveLeaderBank := false
    nextLeaderSlot
    skippedTickHashes := []
    state :=
      if nextLeaderSlot = completedSlot + 1 then .waitingForBank
      else if nextLeaderSlot ≠ u64Max then .hashing
      else .idling }

def updateHashesPerTick (newHashesPerTick : Nat) : PohService :=
  if poh.hashesPerTick = max newHashesPerTick 1 then poh
  else
    { poh with
      skippedTickHashes := []
      slot := poh.resetSlot
      hashcnt := 0
      lastEntryHashcnt := 0
      lastEntrySlot := poh.resetSlot
      hashesPerTick := max newHashesPerTick 1 }

def setLeaderBank (leaderSlot hashesPerTick : Nat) : PohService :=
  let updated := { poh with haveLeaderBank := true, nextLeaderSlot := leaderSlot }.updateHashesPerTick hashesPerTick
  { updated with state := if leaderSlot ≤ updated.slot then .leading else .waitingForSlot }

def advanceOnce : PohService × List Entry :=
  let hashed := { poh with hash := hashOnce sha256 poh.hash, hashcnt := poh.hashcnt + 1 }
  if poh.hashesPerTick ∣ hashed.hashcnt then
    let ticked := { hashed with lastEntryHashcnt := hashed.hashcnt, lastEntrySlot := hashed.slot }
    if poh.state = .leading then (ticked, [.tick hashed.hash hashed.hashcntSinceLastEntry])
    else ({ ticked with skippedTickHashes := poh.skippedTickHashes ++ [hashed.hash] }, [])
  else (hashed, [])

def advance (sha256 : List UInt8 → Hash) : Nat → PohService → PohService × List Entry
  | 0, poh => (poh, [])
  | count + 1, poh =>
    if poh.hashcntPerSlot ≤ poh.hashcnt then (poh, [])
    else
      let (stepped, entries) := poh.advanceOnce sha256
      let (last, rest) := advance sha256 count stepped
      (last, entries ++ rest)

def restrictedHashcnt : Nat :=
  if poh.slotDone then poh.hashcntPerSlot
  else poh.hashcntPerSlot - (poh.maxMicroblocksPerSlot - poh.microblocksInSlot)

/-- The clocks are `i64`, and their difference is taken to be one. -/
def advanceToClock (nowNs : Int) : PohService × List Entry :=
  let elapsed := (nowNs - poh.resetStartNs).toNat
  let target := min (min (elapsed / hashcntDurationNs) poh.hashcntPerSlot) poh.restrictedHashcnt
  if target ≤ poh.hashcnt then (poh, []) else advance sha256 (target - poh.hashcnt) poh

def mixin (mixinHash : Hash) (transactionCount : Nat) : PohService × Option Entry :=
  if poh.state ≠ .leading ∨ poh.hashcntPerSlot ≤ poh.hashcnt then (poh, none)
  else
    let mixed := { poh with hash := hashMixin sha256 poh.hash mixinHash, hashcnt := poh.hashcnt + 1 }
    ({ mixed with
        microblocksInSlot := poh.microblocksInSlot + 1
        lastEntryHashcnt := mixed.hashcnt
        lastEntrySlot := mixed.slot },
      some (.microblock mixed.hash mixed.hashcntSinceLastEntry transactionCount))

def finishSlot : PohService × List Entry × SlotComplete :=
  let (done, entries) := advance sha256 (poh.hashcntPerSlot - poh.hashcnt) poh
  ({ done with
      slot := done.slot + 1
      hashcnt := 0
      lastEntryHashcnt := 0
      lastEntrySlot := done.slot + 1
      microblocksInSlot := 0
      slotDone := false
      state :=
        if done.slot + 1 = done.nextLeaderSlot then
          if done.haveLeaderBank then .leading else .waitingForBank
        else if done.nextLeaderSlot ≠ u64Max then .hashing
        else .idling },
    entries, { slot := done.slot, blockhash := done.hash })

end PohService

inductive PohCall where
  | advance (count : Nat)
  | advanceToClock (nowNs : Int)
  | mixin (mixinHash : Hash) (transactionCount : Nat)

/-- An entry beside the hash that was mixed into it. -/
abbrev Recorded := Option Hash × Entry

def plain (entries : List Entry) : List Recorded := entries.map fun entry => (none, entry)

def PohCall.apply (sha256 : List UInt8 → Hash) (poh : PohService) : PohCall → PohService × List Recorded
  | .advance count => (poh.advance sha256 count).map id plain
  | .advanceToClock nowNs => (poh.advanceToClock sha256 nowNs).map id plain
  | .mixin mixinHash count =>
    (poh.mixin sha256 mixinHash count).map id fun entry => (entry.map fun mixed => (some mixinHash, mixed)).toList

def PohCall.run (sha256 : List UInt8 → Hash) : PohService → List PohCall → PohService × List Recorded
  | poh, [] => (poh, [])
  | poh, call :: rest =>
    let (next, entries) := call.apply sha256 poh
    let (last, later) := run sha256 next rest
    (last, entries ++ later)

end Karstflow.Stages
