import Mathlib.Init
import ControlFlow.Graph.Search
import ControlFlow.Text.NaturalOrder

/-! A flow graph in tables. Nodes and edges lie in arenas and leave a hole when they are removed, so
that a number is given once. Every node has a list of the edges that leave it and one of the edges
that enter it, both kept in order; one list has the live nodes in order, a map leads from labels to
nodes, and the entry is kept apart. So one fact about the graph stands in several tables, and a change
has to be written to all of them. -/
namespace ControlFlow

/-- How many elements at the front of a list pass a test, found by halving the list. Those that pass
have to stand in front of those that do not. -/
def partitionPoint (test : α → Bool) (items : List α) : Nat :=
  match _split : items.drop (items.length / 2) with
  | [] => 0
  | middle :: rest =>
    if test middle then items.length / 2 + 1 + partitionPoint test rest
    else partitionPoint test (items.take (items.length / 2))
termination_by items.length
decreasing_by
  all_goals
    have length := congrArg List.length _split
    simp only [List.length_drop, List.length_cons] at length
  · omega
  · simp only [List.length_take]
    omega

/-- Names an edge for the whole life of a graph. -/
abbrev EdgeId := Nat

/-- A node as it lies in the arena, where its place is its number. -/
structure StoredNode where
  label : String
  attrs : AttrMap
  notes : Notes
deriving DecidableEq

/-- For each node a list of edges at it. -/
abbrev Adjacency : Type := Array (List EdgeId)

namespace Adjacency

/-- The edges that are listed for a node. -/
def listAt (table : Adjacency) (id : NodeId) : List EdgeId := (table[id]?).getD []

/-- Puts an edge into the list of a node, in front of what stands at `place`. -/
def insertAt (table : Adjacency) (id : NodeId) (place : Nat) (edge : EdgeId) : Adjacency :=
  table.modify id fun list => list.insertIdx place edge

/-- Takes an edge out of the list of a node. -/
def drop (table : Adjacency) (id : NodeId) (edge : EdgeId) : Adjacency :=
  table.modify id fun list => list.filter (· != edge)

/-- Empties the list of a node. -/
def clear (table : Adjacency) (id : NodeId) : Adjacency := table.modify id fun _ => []

end Adjacency

/-- A flow graph in tables. -/
structure Store where
  name : String
  attrs : AttrMap
  nodes : Array (Option StoredNode)
  edges : Array (Option Edge)
  /-- The edges that leave a node, by branch and then by target. -/
  outgoing : Adjacency
  /-- The edges that enter a node, by source. -/
  incoming : Adjacency
  /-- The live nodes, in natural order of their labels. -/
  order : List NodeId
  labels : Std.HashMap String NodeId
  entry : Option NodeId

namespace Store

/-- The tables of a graph without nodes. -/
def empty (name : String) : Store where
  name := name
  attrs := .empty
  nodes := #[]
  edges := #[]
  outgoing := #[]
  incoming := #[]
  order := []
  labels := ∅
  entry := none

/-- The node of that number, while it is live. -/
def node? (s : Store) (id : NodeId) : Option StoredNode := (s.nodes[id]?).join

/-- Whether a node is live. -/
def contains (s : Store) (id : NodeId) : Bool := (s.node? id).isSome

/-- The label of a live node. -/
def label (s : Store) (id : NodeId) : String := ((s.node? id).map StoredNode.label).getD ""

/-- The live node with that label. -/
def find? (s : Store) (label : String) : Option NodeId := s.labels[label]?

/-- The edge of that number, while it is there. -/
def edgeAt? (s : Store) (edge : EdgeId) : Option Edge := (s.edges[edge]?).join

/-- The edges that leave a node, in their order. -/
def outEdges (s : Store) (id : NodeId) : List Edge := (s.outgoing.listAt id).filterMap s.edgeAt?

/-- The edges that enter a node, in their order. -/
def inEdges (s : Store) (id : NodeId) : List Edge := (s.incoming.listAt id).filterMap s.edgeAt?

/-- The targets of the edges that leave a node. -/
def succs (s : Store) (id : NodeId) : List NodeId := (s.outEdges id).map Edge.target

/-- The number of the edge between two nodes. -/
def edgeId? (s : Store) (source target : NodeId) : Option EdgeId :=
  (s.outgoing.listAt source).find? fun edge => (s.edgeAt? edge).any (·.target == target)

/-- The order of the edges that leave one node. An edge that is gone has no place in it. -/
def compareOutgoing (s : Store) (a b : EdgeId) : Ordering :=
  match s.edgeAt? a, s.edgeAt? b with
  | some e, some f =>
    (e.branch.compare f.branch).then (Text.naturalCompare (s.label e.target) (s.label f.target))
  | _, _ => .eq

/-- The order of the edges that enter one node. -/
def compareIncoming (s : Store) (a b : EdgeId) : Ordering :=
  match s.edgeAt? a, s.edgeAt? b with
  | some e, some f => Text.naturalCompare (s.label e.source) (s.label f.source)
  | _, _ => .eq

end Store

end ControlFlow
