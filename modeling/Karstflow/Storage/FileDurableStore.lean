import Karstflow.Data.AtomicObject
import Karstflow.Storage.RecordIndex
import Karstflow.Storage.WriteAheadLog

namespace Karstflow.Storage

open Data

/-! The durable store: its column families, its write-ahead log, and batches
that are written to them one file operation at a time. -/

def familyName (text : String) : FamilyName := text.toList.map fun letter => .ofNat letter.toNat

def standardColumnFamilies : List FamilyName :=
  ["accounts", "account_meta", "metadata", "slot_meta", "data_shred", "code_shred", "roots", "dead_slots",
    "duplicate_slots", "erasure_meta", "block_height", "block_time"].map familyName

/-- The open families, the files of the others, and the file of the log. A
file that does not exist is empty. -/
structure FileDurableStore where
  families : Table FamilyName CfState
  closed : FamilyName → List UInt8
  wal : List UInt8

def WriteBatch.on (batch : WriteBatch) (family : FamilyName) : List Operation :=
  (batch.ops.filter fun op => op.family = family).map WriteOp.operation

def WriteBatch.families (batch : WriteBatch) : List FamilyName := (batch.ops.map WriteOp.family).dedup

section

variable (crc : List UInt8 → Octets 4) (takes : List UInt8 → Nat)

def openFamilies (files : FamilyName → List UInt8) : List FamilyName → Except OpenError (Table FamilyName CfState)
  | [] => .ok .empty
  | family :: rest => do
    let state ← openCf crc (files family)
    let families ← openFamilies files rest
    return families.insert family state

/-- Operations on families that are not open are passed over. -/
def replayWalOp (families : Table FamilyName CfState) : WalOp → Table FamilyName CfState
  | .put family key value => families.modify family fun state => state.put crc takes key value
  | .delete family key => families.modify family fun state => state.delete crc takes key

namespace FileDurableStore

/-- The standard families are opened, and an entry of the log is applied and cleared. -/
def openStore (files : FamilyName → List UInt8) (wal : List UInt8) : Except OpenError FileDurableStore := do
  let families ← openFamilies crc files standardColumnFamilies
  match parseWalEntry crc wal with
  | some ops => return { families := ops.foldl (replayWalOp crc takes) families, closed := files, wal := [] }
  | none => return { families, closed := files, wal }

variable (store : FileDurableStore)

def openTree (family : FamilyName) : Except OpenError FileDurableStore :=
  if store.families.contains family = true then .ok store
  else do
    let state ← openCf crc (store.closed family)
    return { store with families := store.families.insert family state }

def perform (family : FamilyName) (operation : Operation) : FileDurableStore :=
  { store with families := store.families.modify family fun state => state.perform crc takes operation }

def file (family : FamilyName) : List UInt8 :=
  match store.families.get family with
  | some state => state.file
  | none => store.closed family

def view (family : FamilyName) : Contents :=
  match store.families.get family with
  | some state => state.get
  | none =>
    match openCf crc (store.closed family) with
    | .ok state => state.get
    | .error _ => fun _ => none

end FileDurableStore

inductive FileOp where
  | truncateWal
  | writeWal (entry : List UInt8)
  | syncWal
  | apply (family : FamilyName) (operation : Operation)
  | syncFamily (family : FamilyName)

/-- What reaches the files outlives the process, so a sync changes nothing here. -/
def FileDurableStore.carryOut (store : FileDurableStore) : FileOp → FileDurableStore
  | .truncateWal => { store with wal := [] }
  | .writeWal entry => { store with wal := writeAtChecked takes store.wal entry 0 }
  | .syncWal => store
  | .apply family operation => store.perform crc takes family operation
  | .syncFamily _ => store

inductive Lock where
  | wal
  | family (name : FamilyName)
deriving DecidableEq

/-- What a call of `write_batch` does next. -/
inductive Move where
  | acquire (lock : Lock)
  | file (op : FileOp)
  | release

def applyMoves (batch : WriteBatch) (family : FamilyName) : List Move :=
  .acquire (.family family) :: ((batch.on family).map fun operation => .file (.apply family operation)) ++
    [.file (.syncFamily family), .release]

def clearMoves : List Move := [.acquire .wal, .file .truncateWal, .file .syncWal, .release]

/-- The batch is announced, applied and cleared. `order` is the order in which
its families come up. -/
def writeBatchMoves (batch : WriteBatch) (order : List FamilyName) : List Move :=
  if batch.ops = [] then []
  else
    [.acquire .wal, .file .truncateWal, .file (.writeWal (encodeWalEntry crc batch)), .file .syncWal, .release] ++
      (order.flatMap (applyMoves batch) ++ clearMoves)

structure Call where
  todo : List Move
  held : Option Lock

abbrev View := FamilyName → Contents

def operationEffect (family : FamilyName) (operation : Operation) (view : View) : View :=
  Function.update view family (operation.apply (view family))

def batchEffect (batch : WriteBatch) (view : View) : View := fun family => applyAll (view family) (batch.on family)

inductive Machine where
  | down (files : FamilyName → List UInt8) (wal : List UInt8)
  | up (store : FileDurableStore) (calls : Table Nat Call)

inductive Event where
  | start
  | openTree (family : FamilyName)
  | perform (family : FamilyName) (operation : Operation)
  | begin (call : Nat) (batch : WriteBatch) (order : List FamilyName)
  | advance (call : Nat)
  | fail (call : Nat)
  | finish (call : Nat)
  | crash

abbrev Seen := Atomic.Label View Nat

def free (calls : Table Nat Call) (lock : Lock) : Bool :=
  calls.entries.all fun entry => entry.2.held ≠ some lock

def moveOn (store : FileDurableStore) (calls : Table Nat Call) (call : Nat) (held : Option Lock) :
    List Move → Option Machine
  | [] => none
  | .acquire lock :: rest =>
    if free calls lock = true then some (.up store (calls.insert call { todo := rest, held := some lock })) else none
  | .file op :: rest => some (.up (store.carryOut crc takes op) (calls.insert call { todo := rest, held }))
  | .release :: rest => some (.up store (calls.insert call { todo := rest, held := none }))

/-- One event, if it is possible, and what users see of it. A file operation
that fails does nothing and ends its call. -/
def Machine.step : Machine → Event → Option (Machine × List Seen)
  | .down files wal, .start =>
    match FileDurableStore.openStore crc takes files wal with
    | .ok store => some (.up store .empty, [.observed (store.view crc)])
    | .error _ => none
  | .up store calls, .openTree family =>
    match store.openTree crc family with
    | .ok next => some (.up next calls, [])
    | .error _ => none
  | .up store calls, .perform family operation =>
    if store.families.contains family = true ∧ free calls (.family family) = true then
      some (.up (store.perform crc takes family operation) calls, [.immediate (operationEffect family operation)])
    else none
  | .up store calls, .begin call batch order =>
    if calls.contains call = true ∨ ¬ order.Perm batch.families then none
    else if batch.families.all store.families.contains = true then
      some (.up store (calls.insert call { todo := writeBatchMoves crc batch order, held := none }),
        [.began call (batchEffect batch)])
    else some (.up store calls, [])
  | .up store calls, .advance call =>
    match calls.get call with
    | some running => (moveOn crc takes store calls call running.held running.todo).map fun next => (next, [])
    | none => none
  | .up store calls, .fail call =>
    match (calls.get call).map Call.todo with
    | some (.file _ :: _) => some (.up store (calls.erase call), [.returned call false])
    | _ => none
  | .up store calls, .finish call =>
    match (calls.get call).map Call.todo with
    | some [] => some (.up store (calls.erase call), [.returned call true])
    | _ => none
  | .up store _, .crash => some (.down store.file store.wal, [.crashed])
  | _, _ => none

def Machine.run : Machine → List Event → Option (Machine × List Seen)
  | machine, [] => some (machine, [])
  | machine, event :: rest => do
    let (next, seen) ← machine.step crc takes event
    let (final, later) ← run next rest
    return (final, seen ++ later)

def Machine.fresh : Machine := .down (fun _ => []) []

end

end Karstflow.Storage
