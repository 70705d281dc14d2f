import ControlFlow.Graph.Merge
import ControlFlow.Store.Update

/-! Merging nodes in the tables. Everything is looked up before the first node is taken out; then the
nodes go one by one, and the new node and its edges are added. A merge that failed half way would leave
the tables without the nodes. -/
namespace ControlFlow.Store

/-- Accepts a list of different live nodes; otherwise names the first node that is not. -/
def checkMembers (s : Store) : List NodeId → List NodeId → Except GraphError Unit
  | _, [] => .ok ()
  | seen, id :: rest =>
    if !s.contains id then .error (.unknownNode id)
    else if seen.contains id then .error (.listedTwice (s.label id))
    else s.checkMembers (id :: seen) rest

/-- The nodes to be merged, the head first and the others in the order of the graph. -/
def mergeOrder (s : Store) (head : NodeId) (ids : List NodeId) : List NodeId :=
  head :: s.order.filter fun id => id != head && ids.contains id

/-- The edges kept by a merge of `members`, its head first. -/
def rewiring (s : Store) (head : NodeId) (members : List NodeId)
    (loopEdge : Option (NodeId × NodeId)) : FlowGraph.Rewiring where
  entering := firstOfEach Edge.source
    ((members.flatMap s.inEdges).filter fun e => !members.contains e.source)
  leaving := firstOfEach Edge.target
    ((members.flatMap s.outEdges).filter fun e => !members.contains e.target)
  loop := (members.flatMap s.outEdges).find? fun e =>
    e.target == head && loopEdge != some (e.source, e.target)

/-- The attributes of the new node: those of the head, and the entry's mark if a member had it. -/
def mergedAttrs (s : Store) (model : StoredNode) (members : List NodeId) : AttrMap :=
  if s.entry.any members.contains then model.attrs.insert "entry" "true"
  else model.attrs.erase "entry"

/-- Removes nodes one by one. -/
def removeNodes : List NodeId → Procedure Store Unit
  | [] => pure ()
  | id :: rest => do
    let _ ← removeNode id
    removeNodes rest

/-- Adds edges one by one. -/
def addEdges : List (NodeId × NodeId × AttrMap) → Procedure Store Unit
  | [] => pure ()
  | (source, target, attrs) :: rest => do
    let _ ← addEdge source target attrs
    addEdges rest

/-- Takes nodes out, and adds a new one and the edges that were kept for it. -/
def replace (members : List NodeId) (label : String) (attrs : AttrMap)
    (kept : FlowGraph.Rewiring) : Procedure Store NodeId := do
  removeNodes members
  let merged ← addNode label attrs
  addEdges (kept.edges merged)
  pure merged

/-- Replaces nodes by one. It is the entry if one of them was. -/
def mergeNodes (ids : List NodeId) (loopEdge : Option (NodeId × NodeId)) :
    Procedure Store NodeId := do
  match ids with
  | [] => throw .nothingToMerge
  | head :: _ =>
    Procedure.check (·.checkMembers [] ids)
    let s ← get
    match s.node? head with
    | none => throw (.unknownNode head)
    | some model =>
      let members := s.mergeOrder head ids
      replace members model.label (s.mergedAttrs model members)
        (s.rewiring head members loopEdge)

/-- The nodes with these labels, or the first label that no node has. -/
def findAll (s : Store) (labels : List String) : Except GraphError (List NodeId) :=
  labels.mapM fun label =>
    match s.find? label with
    | some id => .ok id
    | none => .error (.unknownLabel label)

/-- The edge that makes a region a loop. -/
def loopEdge? (s : Store) (region : Region) : Option (NodeId × NodeId) := do
  let (source, target) ← region.back?
  pure (← s.find? source, ← s.find? target)

/-- Replaces the blocks of a region by one node with the label of the region's entry. -/
def mergeRegion (region : Region) : Procedure Store NodeId := do
  let ids ← Procedure.check (·.findAll region.labels)
  let s ← get
  mergeNodes ids (s.loopEdge? region)

end ControlFlow.Store
