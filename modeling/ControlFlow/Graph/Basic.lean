import ControlFlow.AttrMap
import ControlFlow.Branch
import ControlFlow.Condition
import ControlFlow.LoopKind

/-! Flow graphs: labelled nodes joined by conditional edges. The nodes are listed in the natural
order of their labels and the edges in the order of their sources, then of their branches, then of
their targets, so that what leaves a node and what enters it are both read off by a filter. Nothing
is said twice here; the tables that have the answers ready, and that changes keep in step, are those
of a `Store`. -/
namespace ControlFlow

/-- Names a node for the whole life of a graph. -/
abbrev NodeId := Nat

/-- What an analysis has found out about one node. -/
structure Notes where
  /-- Positions in the last depth-first numbering. -/
  preNum : Nat
  postNum : Nat
  revPostNum : Nat
  /-- The head of the innermost loop around the node. -/
  loopHead : Option NodeId
  /-- The kind of loop that the node heads. -/
  loopKind : Option LoopKind
  /-- The node that follows the loop that the node heads. -/
  loopFollow : Option NodeId
  /-- The node where the arms of the node's conditional meet. -/
  follow : Option NodeId
  /-- Whether the node does nothing but test its condition. -/
  isCondNode : Bool
  /-- Whether the node closes a loop. -/
  isLatch : Bool
  /-- The condition of the node once other tests have been joined to its own. -/
  compound : Option Condition
deriving DecidableEq, Repr

/-- What is known of a node from its attributes alone. -/
def Notes.ofAttrs (attrs : AttrMap) : Notes where
  preNum := 0
  postNum := 0
  revPostNum := 0
  loopHead := none
  loopKind := none
  loopFollow := none
  follow := none
  isCondNode := attrs.get? "cond_node" != some "false"
  isLatch := false
  compound := none

/-- A basic block of a flow graph. -/
structure Node where
  id : NodeId
  label : String
  attrs : AttrMap
  notes : Notes
deriving DecidableEq

/-- Whether attributes mark the entry of a graph. -/
def AttrMap.marksEntry (attrs : AttrMap) : Bool := attrs.get? "entry" == some "true"

/-- Whether control enters the graph at this node. -/
def Node.isEntry (node : Node) : Bool := node.attrs.marksEntry

/-- A transfer of control from one node to another. -/
structure Edge where
  source : NodeId
  target : NodeId
  attrs : AttrMap
deriving DecidableEq

namespace Edge

/-- The text of the condition on an edge. -/
def cond (edge : Edge) : Option String := edge.attrs.get? "cond"

/-- The meaning of that text. -/
def branch (edge : Edge) : Branch := Branch.ofCond edge.cond

/-- Whether the edge leads back to its own source. -/
def isLoop (edge : Edge) : Bool := edge.source == edge.target

end Edge

/-- A flow graph. A node removed leaves its number unused: `nextNode` and `nextEdge` are the
numbers of the next node and edge, and they only grow. -/
structure FlowGraph where
  name : String
  attrs : AttrMap
  nodes : List Node
  edges : List Edge
  nextNode : NodeId
  nextEdge : Nat
deriving DecidableEq

namespace FlowGraph

/-- The graph without nodes. -/
def empty (name : String) : FlowGraph :=
  { name, attrs := .empty, nodes := [], edges := [], nextNode := 0, nextEdge := 0 }

/-- The live nodes, in natural order of their labels. -/
def nodeIds (g : FlowGraph) : List NodeId := g.nodes.map Node.id

/-- The number of live nodes. -/
def size (g : FlowGraph) : Nat := g.nodes.length

/-- The node of that number, while it is live. -/
def node? (g : FlowGraph) (id : NodeId) : Option Node := g.nodes.find? (·.id == id)

/-- Whether a node is live. -/
def contains (g : FlowGraph) (id : NodeId) : Bool := (g.node? id).isSome

/-- The label of a live node. -/
def label (g : FlowGraph) (id : NodeId) : String := ((g.node? id).map Node.label).getD ""

/-- The live node with that label. -/
def find? (g : FlowGraph) (label : String) : Option NodeId :=
  (g.nodes.find? (·.label == label)).map Node.id

/-- What is known of a live node. -/
def notes? (g : FlowGraph) (id : NodeId) : Option Notes := (g.node? id).map Node.notes

/-- The node at which control enters. -/
def entry? (g : FlowGraph) : Option NodeId := (g.nodes.find? Node.isEntry).map Node.id

/-- The edges that leave a node, by branch and then by target. -/
def outEdges (g : FlowGraph) (id : NodeId) : List Edge := g.edges.filter (·.source == id)

/-- The edges that enter a node, by source. -/
def inEdges (g : FlowGraph) (id : NodeId) : List Edge := g.edges.filter (·.target == id)

/-- The targets of the edges that leave a node. -/
def succs (g : FlowGraph) (id : NodeId) : List NodeId := (g.outEdges id).map Edge.target

/-- The sources of the edges that enter a node. -/
def preds (g : FlowGraph) (id : NodeId) : List NodeId := (g.inEdges id).map Edge.source

/-- The edge between two nodes. -/
def edge? (g : FlowGraph) (source target : NodeId) : Option Edge :=
  g.edges.find? fun e => e.source == source && e.target == target

/-- Whether there is an edge between two nodes. -/
def hasEdge (g : FlowGraph) (source target : NodeId) : Bool := (g.edge? source target).isSome

/-- What two graphs share that differ only in numbers, name and annotations: the nodes with their
attributes, the label of the entry, and the edges with their attributes, all by label. -/
def contents (g : FlowGraph) :
    List (String × AttrMap) × Option String × List (String × String × AttrMap) :=
  (g.nodes.map fun n => (n.label, n.attrs),
    g.entry?.map g.label,
    g.edges.map fun e => (g.label e.source, g.label e.target, e.attrs))

/-- Equality of graphs up to numbers, name and annotations. -/
def same (g h : FlowGraph) : Bool := g.contents == h.contents

end FlowGraph

end ControlFlow
