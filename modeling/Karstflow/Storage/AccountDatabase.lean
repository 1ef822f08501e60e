import Karstflow.Storage.ForkTree
import Karstflow.Storage.PublishedStore

namespace Karstflow.Storage

open Data Karstflow.Types

/-! The account database: the records of the transactions in preparation, over
the published accounts. -/

inductive StorageError where
  | accountDatabaseError (details : ForkTreeError)
  | cannotModifyPublished
  | transactionFrozen
  | cannotPublishRoot
  | cannotCancelRoot
deriving DecidableEq

structure AccountDatabase where
  records : Table (TransactionId × Pubkey) Account
  published : PublishedStore
  forkTree : ForkTree
  txnRecords : Table TransactionId (List Pubkey)
  ancestorCache : Table TransactionId (List TransactionId)

namespace AccountDatabase

/-- A database without forks, over a durable store or over nothing. -/
def new (maxEntries : Nat) (store : Option (Table Pubkey Account)) : AccountDatabase :=
  { records := .empty, published := .new maxEntries store, forkTree := .new, txnRecords := .empty
    ancestorCache := .empty }

variable (database : AccountDatabase) (xid : TransactionId)

def hasFork : Bool := database.forkTree.contains xid

def prepareTransaction (parent child : TransactionId) : Except StorageError AccountDatabase :=
  match database.forkTree.prepare parent child with
  | .ok tree => .ok { database with forkTree := tree, ancestorCache := .empty }
  | .error details => .error (.accountDatabaseError details)

def nearestRecord (chain : List TransactionId) (key : Pubkey) : Option Account :=
  chain.findSome? fun ancestor => database.records.get (ancestor, key)

/-- The chain of a transaction, from the cache if it is there. -/
def cachedAncestors : Option (AccountDatabase × List TransactionId) :=
  match database.ancestorCache.get xid with
  | some chain => some (database, chain)
  | none =>
    (database.forkTree.ancestors xid).map fun chain =>
      ({ database with ancestorCache := database.ancestorCache.insert xid chain }, chain)

def readPublished (key : Pubkey) : AccountDatabase × Option Account :=
  let (published, account) := database.published.get key
  ({ database with published }, account)

/-- Read along the chain, then the published account. There is no answer if
the chain does not end. -/
def readAccount (key : Pubkey) : Option (AccountDatabase × Option Account) :=
  if xid = .root then some (database.readPublished key)
  else
    (database.cachedAncestors xid).map fun (database, chain) =>
      match database.nearestRecord chain key with
      | some account => (database, some account)
      | none => database.readPublished key

def writeAccount (key : Pubkey) (account : Account) : Except StorageError AccountDatabase := do
  demand (xid ≠ .root) .cannotModifyPublished
  demand (database.forkTree.isFrozen xid = false) .transactionFrozen
  let keys := (database.txnRecords.get xid).getD []
  return { database with
    records := database.records.insert (xid, key) account
    txnRecords := database.txnRecords.insert xid (if key ∈ keys then keys else key :: keys) }

/-- The records of one transaction over those collected so far. -/
def mergeRecords (updates : Table Pubkey Account) (xid : TransactionId) : Table Pubkey Account :=
  ((database.txnRecords.get xid).getD []).foldl (fun updates key =>
    match database.records.get (xid, key) with
    | some account => updates.insert key account
    | none => updates) updates

/-- The records of a chain, from the oldest transaction to the newest. -/
def mergeChain (chain : List TransactionId) : Table Pubkey Account :=
  chain.reverse.foldl database.mergeRecords .empty

def forget (xids : List TransactionId) : AccountDatabase :=
  xids.foldl (fun database xid =>
    match database.txnRecords.get xid with
    | some keys =>
      { database with
        txnRecords := database.txnRecords.erase xid
        records := (keys.map fun key => (xid, key)).foldl .erase database.records }
    | none => database) database

/-- Merge the chain of a transaction into the published accounts and cancel
what competes with it. The owner index looks up each account first. -/
def publishChain (taken : Nat) : Option AccountDatabase := do
  let chain ← database.forkTree.ancestors xid
  let competitors ← database.forkTree.competingBranches xid
  let updates := database.mergeChain chain
  let tree ← database.forkTree.removeAll competitors
  let forgotten := database.forget (chain ++ competitors)
  return { forgotten with
    published := (database.published.lookUp updates.entries).insertBatch updates taken
    forkTree := tree.removeChain chain
    ancestorCache := .empty }

def publishTransaction (taken : Nat) : Except StorageError (Option AccountDatabase) :=
  if xid = .root then .error .cannotPublishRoot else .ok (database.publishChain xid taken)

def cancelBranch : Option AccountDatabase := do
  let descendants ← database.forkTree.descendants xid
  let tree ← database.forkTree.remove xid
  let forgotten := database.forget (descendants ++ [xid])
  return { forgotten with forkTree := tree, ancestorCache := .empty }

def cancelTransaction : Except StorageError (Option AccountDatabase) :=
  if xid = .root then .error .cannotCancelRoot else .ok (database.cancelBranch xid)

end AccountDatabase

/-- `taken` is how many of the published accounts the durable store takes
before its write fails, if it does. -/
inductive DatabaseOperation where
  | prepare (parent child : TransactionId)
  | write (xid : TransactionId) (key : Pubkey) (account : Account)
  | publish (xid : TransactionId) (taken : Nat)
  | cancel (xid : TransactionId)
  | read (xid : TransactionId) (key : Pubkey)

/-- The database after a call and whether it was accepted, unless the call does not return. -/
def AccountDatabase.step (database : AccountDatabase) : DatabaseOperation → Option (AccountDatabase × Bool)
  | .prepare parent child =>
    match database.prepareTransaction parent child with
    | .ok next => some (next, true)
    | .error _ => some (database, false)
  | .write xid key account =>
    match database.writeAccount xid key account with
    | .ok next => some (next, true)
    | .error _ => some (database, false)
  | .publish xid taken =>
    match database.publishTransaction xid taken with
    | .ok next => next.map fun next => (next, true)
    | .error _ => some (database, false)
  | .cancel xid =>
    match database.cancelTransaction xid with
    | .ok next => next.map fun next => (next, true)
    | .error _ => some (database, false)
  | .read xid key => (database.readAccount xid key).map fun (next, _) => (next, true)

end Karstflow.Storage
