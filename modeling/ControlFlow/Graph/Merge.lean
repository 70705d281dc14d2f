import ControlFlow.Graph.Update
import ControlFlow.Region

/-! Merging nodes into one. The new node has the label and attributes of the first node of the
list, and the edges between the merged nodes and the rest of the graph are moved to it. -/
namespace ControlFlow

/-- The first element for each key, in the order of the list. -/
def firstOfEach [BEq β] (key : α → β) : List α → List α
  | [] => []
  | a :: rest => a :: (firstOfEach key rest).filter fun b => key b != key a

namespace FlowGraph

/-- Accepts a list of different live nodes; otherwise names the first node that is not. -/
def checkMembers (g : FlowGraph) : List NodeId → List NodeId → Except GraphError Unit
  | _, [] => .ok ()
  | seen, id :: rest =>
    if !g.contains id then .error (.unknownNode id)
    else if seen.contains id then .error (.listedTwice (g.label id))
    else g.checkMembers (id :: seen) rest

/-- The edges that a merge keeps. Where several merged nodes have an edge from or to the same
node outside, that of the first merged node stays. -/
structure Rewiring where
  entering : List Edge
  leaving : List Edge
  loop : Option Edge

/-- The edges kept by a merge of `members`, its head first. An edge from a member to the head
becomes a loop at the new node unless it is `loopEdge`, which the merge explains. -/
def rewiring (g : FlowGraph) (head : NodeId) (members : List NodeId)
    (loopEdge : Option (NodeId × NodeId)) : Rewiring where
  entering := firstOfEach Edge.source
    ((members.flatMap g.inEdges).filter fun e => !members.contains e.source)
  leaving := firstOfEach Edge.target
    ((members.flatMap g.outEdges).filter fun e => !members.contains e.target)
  loop := (members.flatMap g.outEdges).find? fun e =>
    e.target == head && loopEdge != some (e.source, e.target)

/-- The edges that a merge adds at the new node. -/
def Rewiring.edges (kept : Rewiring) (merged : NodeId) : List (NodeId × NodeId × AttrMap) :=
  kept.entering.map (fun e => (e.source, merged, e.attrs)) ++
    kept.leaving.map (fun e => (merged, e.target, e.attrs)) ++
    kept.loop.toList.map fun e => (merged, merged, e.attrs)

/-- The nodes to be merged, the head first and the others in the order of the graph. -/
def mergeOrder (g : FlowGraph) (head : NodeId) (ids : List NodeId) : List NodeId :=
  head :: g.nodeIds.filter fun id => id != head && ids.contains id

/-- The attributes of the new node: those of the head, and the entry's mark if a member had it. -/
def mergedAttrs (g : FlowGraph) (model : Node) (members : List NodeId) : AttrMap :=
  if g.entry?.any members.contains then model.attrs.insert "entry" "true"
  else model.attrs.erase "entry"

/-- Adds a list of edges. -/
def addEdges (g : FlowGraph) (edges : List (NodeId × NodeId × AttrMap)) :
    Except GraphError FlowGraph :=
  edges.foldlM (fun g (source, target, attrs) => do pure (← g.addEdge source target attrs).2) g

/-- Replaces nodes by one. It is the entry if one of them was. -/
def mergeNodes (g : FlowGraph) (ids : List NodeId) (loopEdge : Option (NodeId × NodeId)) :
    Except GraphError (NodeId × FlowGraph) := do
  match ids with
  | [] => .error .nothingToMerge
  | head :: _ =>
    g.checkMembers [] ids
    match g.node? head with
    | none => .error (.unknownNode head)
    | some model =>
      let members := g.mergeOrder head ids
      let (merged, rest) ←
        (members.foldl removeNode g).addNode model.label (g.mergedAttrs model members)
      let kept := g.rewiring head members loopEdge
      let result ← rest.addEdges (kept.edges merged)
      pure (merged, result)

/-- The nodes with these labels, or the first label that no node has. -/
def findAll (g : FlowGraph) (labels : List String) : Except GraphError (List NodeId) :=
  labels.mapM fun label =>
    match g.find? label with
    | some id => .ok id
    | none => .error (.unknownLabel label)

/-- The edge that makes a region a loop. -/
def loopEdge? (g : FlowGraph) (region : Region) : Option (NodeId × NodeId) := do
  let (source, target) ← region.back?
  pure (← g.find? source, ← g.find? target)

/-- Replaces the blocks of a region by one node with the label of the region's entry. -/
def mergeRegion (g : FlowGraph) (region : Region) : Except GraphError (NodeId × FlowGraph) := do
  g.mergeNodes (← g.findAll region.labels) (g.loopEdge? region)

end FlowGraph

end ControlFlow
