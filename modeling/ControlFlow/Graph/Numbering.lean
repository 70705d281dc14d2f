import ControlFlow.Graph.Search
import ControlFlow.Graph.Update

/-! Depth-first numbers. A node's numbers are its places in the orders of a search; a node that
the search has not met has none. A graph is valid when the search from its entry meets every
node. -/
namespace ControlFlow

/-- The orders of one search: nodes as they were met and as they were left. -/
structure Numbering where
  met : List NodeId
  left : List NodeId
deriving DecidableEq, Repr

namespace Numbering

/-- The orders of a forest. -/
def ofForest (forest : Forest) : Numbering where
  met := forest.preorder
  left := forest.postorder

/-- The number of nodes met. -/
def count (n : Numbering) : Nat := n.left.length

def preNum? (n : Numbering) (id : NodeId) : Option Nat := n.met.idxOf? id

def postNum? (n : Numbering) (id : NodeId) : Option Nat := n.left.idxOf? id

/-- Counts down while the number in order of leaving counts up, from zero at the start. -/
def revPostNum? (n : Numbering) (id : NodeId) : Option Nat :=
  (n.postNum? id).map fun post => n.count - 1 - post

/-- The place of a node in reverse postorder. -/
def rank (n : Numbering) (id : NodeId) : Nat := (n.revPostNum? id).getD 0

/-- Nodes before their successors, edges that close a cycle apart. -/
def reversePostorder (n : Numbering) : List NodeId := n.left.reverse

def isReachable (n : Numbering) (id : NodeId) : Bool := n.met.contains id

end Numbering

namespace FlowGraph

/-- The numbering of the nodes met from a start. -/
def numbering (g : FlowGraph) (start : NodeId) : Numbering := .ofForest (g.search start)

/-- The entry, or the error that there is none. -/
def entry (g : FlowGraph) : Except GraphError NodeId :=
  match g.entry? with
  | some entry => .ok entry
  | none => .error (.noEntry g.name)

/-- Accepts a graph in which a path leads from the entry to every node; otherwise names the first
node without one. -/
def validate (g : FlowGraph) : Except GraphError Unit := do
  let entry ← g.entry
  let numbering := g.numbering entry
  match g.nodeIds.find? fun id => !numbering.isReachable id with
  | some orphan => .error (.unreachable (g.label orphan) (g.label entry))
  | none => .ok ()

/-- Writes the numbers of the nodes that were met into their annotations. -/
def recordNumbers (g : FlowGraph) (numbering : Numbering) : FlowGraph :=
  { g with nodes := g.nodes.map fun n =>
      match numbering.preNum? n.id, numbering.postNum? n.id, numbering.revPostNum? n.id with
      | some pre, some post, some rev =>
        { n with notes := { n.notes with preNum := pre, postNum := post, revPostNum := rev } }
      | _, _, _ => n }

/-- Numbers the nodes from the entry. -/
def number (g : FlowGraph) : Except GraphError (Numbering × FlowGraph) := do
  let entry ← g.entry
  let numbering := g.numbering entry
  pure (numbering, g.recordNumbers numbering)

end FlowGraph

end ControlFlow
