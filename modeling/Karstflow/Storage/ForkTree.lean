import Karstflow.Data.Bytes
import Karstflow.Data.Explore
import Karstflow.Data.Forks
import Karstflow.Data.Machine
import Karstflow.Data.Table

namespace Karstflow.Storage

open Data

/-! The tree of the transactions in preparation, kept as links between parents
and children. -/

abbrev TransactionId := Octets 16

/-- The published state: all bytes are zero. -/
def TransactionId.root : TransactionId := .filled 16 0

structure ForkNode where
  parent : TransactionId
  children : List TransactionId
deriving DecidableEq

inductive ForkTreeError where
  | cannotPrepareRoot
  | transactionAlreadyExists
  | parentNotFound
deriving DecidableEq

structure ForkTree where
  nodes : Table TransactionId ForkNode

namespace ForkTree

def new : ForkTree := ⟨.empty⟩

variable (tree : ForkTree) (xid : TransactionId)

def contains (xid : TransactionId) : Bool := tree.nodes.contains xid

/-- Register a child of the root or of a node. The root keeps no list of its children. -/
def prepare (parent child : TransactionId) : Except ForkTreeError ForkTree := do
  demand (child ≠ .root) .cannotPrepareRoot
  demand (tree.contains child = false) .transactionAlreadyExists
  demand (parent = .root ∨ tree.contains parent = true) .parentNotFound
  let nodes :=
    if parent = .root then tree.nodes
    else tree.nodes.modify parent fun node => { node with children := node.children ++ [child] }
  return ⟨nodes.insert child { parent, children := [] }⟩

def isFrozen : Bool :=
  if xid = .root then true
  else ((tree.nodes.get xid).map fun node => !node.children.isEmpty).getD false

/-- The loop of `ancestors`, cut off after `fuel` rounds. -/
def ancestorsFrom : Nat → TransactionId → List TransactionId → Option (List TransactionId)
  | 0, _, _ => none
  | fuel + 1, current, chain =>
    if current = .root then some chain
    else
      match tree.nodes.get current with
      | some node => ancestorsFrom fuel node.parent (chain ++ [current])
      | none => some (if chain = [] then [current] else chain)

/-- The chain from a transaction up to the root. A chain that is longer than
the tree is large goes round in circles, and the loop never ends. -/
def ancestors : Option (List TransactionId) :=
  tree.ancestorsFrom (tree.nodes.size + 2) xid []

def children (xid : TransactionId) : List TransactionId := ((tree.nodes.get xid).map ForkNode.children).getD []

/-- Everything below a transaction. The lists of children form a forest at any
time, so that the loop ends. -/
def descendants : Option (List TransactionId) :=
  explore tree.children (tree.nodes.size + 1) [xid] []

def siblings (node : ForkNode) : List TransactionId :=
  if node.parent = .root then
    ((tree.nodes.entries.filter fun entry => entry.2.parent = .root).map Prod.fst).filter fun id => id ≠ xid
  else
    match tree.nodes.get node.parent with
    | some parent => parent.children.filter fun id => id ≠ xid
    | none => []

/-- A list of transactions, each with everything below it. -/
def withDescendants : List TransactionId → Option (List TransactionId)
  | [] => some []
  | sibling :: rest =>
    match tree.descendants sibling, withDescendants rest with
    | some found, some others => some (sibling :: found ++ others)
    | _, _ => none

def competing : List TransactionId → Option (List TransactionId)
  | [] => some []
  | ancestor :: rest =>
    match tree.nodes.get ancestor with
    | none => competing rest
    | some node =>
      match tree.withDescendants (tree.siblings ancestor node), competing rest with
      | some found, some others => some (found ++ others)
      | _, _ => none

def competingBranches : Option (List TransactionId) :=
  (tree.ancestors xid).bind tree.competing

def unlink : ForkTree :=
  match tree.nodes.get xid with
  | some node =>
    if node.parent = .root then tree
    else ⟨tree.nodes.modify node.parent fun parent =>
      { parent with children := parent.children.filter fun id => id ≠ xid }⟩
  | none => tree

def drop (xids : List TransactionId) : ForkTree :=
  ⟨xids.foldl .erase tree.nodes⟩

def remove : Option ForkTree :=
  let unlinked := tree.unlink xid
  (unlinked.descendants xid).map fun found => (unlinked.drop found).drop [xid]

def removeAll : ForkTree → List TransactionId → Option ForkTree
  | tree, [] => some tree
  | tree, xid :: rest => (tree.remove xid).bind fun tree => removeAll tree rest

def removeChain (chain : List TransactionId) : ForkTree :=
  ⟨(tree.drop chain).nodes.mapValues fun node =>
    { node with children := node.children.filter fun id => id ∉ chain }⟩

end ForkTree

end Karstflow.Storage
