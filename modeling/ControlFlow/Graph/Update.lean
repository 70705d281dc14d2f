import ControlFlow.Graph.Error

/-! Changes to a flow graph. Each keeps the orders of nodes and edges; one that cannot be carried
out gives an error and no graph, so that the caller still holds the graph as it was. -/
namespace ControlFlow

/-- What has been found out about a node, as attributes that name other nodes by their labels. -/
def Notes.findings (label : NodeId → String) (notes : Notes) : List (String × String) :=
  entry "loop_type" (notes.loopKind.map LoopKind.name) ++
  entry "loop_head" (notes.loopHead.map label) ++
  entry "loop_follow" (notes.loopFollow.map label) ++
  entry "loop_latch" (if notes.isLatch then some "true" else none) ++
  entry "follow" (notes.follow.map label) ++
  entry "comp_cond" (notes.compound.map Condition.text)
where
  entry (key : String) (value : Option String) : List (String × String) :=
    (value.map fun v => (key, v)).toList

namespace FlowGraph

/-- Puts an element before the first one that is not less than it. -/
def insertBefore (less : α → Bool) (new : α) : List α → List α
  | [] => [new]
  | a :: rest => if less a then a :: insertBefore less new rest else new :: a :: rest

/-- Puts a new node where its label belongs. -/
def insertNode (g : FlowGraph) (label : String) (attrs : AttrMap) : FlowGraph :=
  let node : Node := { id := g.nextNode, label, attrs, notes := .ofAttrs attrs }
  { g with
    nodes := insertBefore (fun n => Text.naturalCompare n.label label == .lt) node g.nodes
    nextNode := g.nextNode + 1 }

/-- Adds a node. Labels are distinct, and at most one node is the entry. -/
def addNode (g : FlowGraph) (label : String) (attrs : AttrMap) :
    Except GraphError (NodeId × FlowGraph) :=
  if (g.find? label).isSome then .error (.duplicateLabel label)
  else match attrs.marksEntry, g.entry? with
    | true, some entry => .error (.secondEntry label (g.label entry))
    | _, _ => .ok (g.nextNode, g.insertNode label attrs)

/-- Adds a node without attributes. -/
def addBlock (g : FlowGraph) (label : String) : Except GraphError (NodeId × FlowGraph) :=
  g.addNode label .empty

/-- Removes a node with all edges at it. -/
def removeNode (g : FlowGraph) (id : NodeId) : FlowGraph :=
  { g with
    nodes := g.nodes.filter (·.id != id)
    edges := g.edges.filter fun e => e.source != id && e.target != id }

/-- Changes one node in place. -/
def modifyNode (g : FlowGraph) (id : NodeId) (change : Node → Node) : FlowGraph :=
  { g with nodes := g.nodes.map fun n => if n.id == id then change n else n }

/-- Changes what is known of one node. -/
def annotate (g : FlowGraph) (id : NodeId) (change : Notes → Notes) : FlowGraph :=
  g.modifyNode id fun n => { n with notes := change n.notes }

/-- Forgets what every analysis has found out. -/
def resetAnnotations (g : FlowGraph) : FlowGraph :=
  { g with nodes := g.nodes.map fun n => { n with notes := .ofAttrs n.attrs } }

/-- Makes a node the entry, if no other node is. -/
def setEntry (g : FlowGraph) (id : NodeId) : Except GraphError FlowGraph :=
  if !g.contains id then .error (.unknownNode id)
  else match g.entry? with
    | some entry =>
      if entry == id then .ok (g.modifyNode id fun n => { n with attrs := n.attrs.insert "entry" "true" })
      else .error (.secondEntry (g.label id) (g.label entry))
    | none => .ok (g.modifyNode id fun n => { n with attrs := n.attrs.insert "entry" "true" })

/-- The order in which a graph lists its edges. -/
def compareEdges (g : FlowGraph) (e f : Edge) : Ordering :=
  (Text.naturalCompare (g.label e.source) (g.label f.source)).then
    ((e.branch.compare f.branch).then
      (Text.naturalCompare (g.label e.target) (g.label f.target)))

/-- Puts an edge where it belongs among the others. -/
def placeEdge (g : FlowGraph) (edge : Edge) (edges : List Edge) : List Edge :=
  insertBefore (fun e => g.compareEdges e edge == .lt) edge edges

/-- Puts a new edge where it belongs. -/
def insertEdge (g : FlowGraph) (edge : Edge) : FlowGraph :=
  { g with edges := g.placeEdge edge g.edges, nextEdge := g.nextEdge + 1 }

/-- Adds an edge between two live nodes that have none in this direction. -/
def addEdge (g : FlowGraph) (source target : NodeId) (attrs : AttrMap) :
    Except GraphError (Nat × FlowGraph) :=
  if !g.contains source || !g.contains target then .error (.danglingEdge source target)
  else if g.hasEdge source target then .error (.parallelEdge (g.label source) (g.label target))
  else .ok (g.nextEdge, g.insertEdge { source, target, attrs })

/-- Removes the edge between two nodes. -/
def removeEdge (g : FlowGraph) (source target : NodeId) : FlowGraph :=
  { g with edges := g.edges.filter fun e => !(e.source == source && e.target == target) }

/-- Sets an attribute of an edge. A new condition can move the edge among its neighbours. -/
def setEdgeAttr (g : FlowGraph) (source target : NodeId) (key value : String) :
    Except GraphError FlowGraph :=
  match g.edge? source target with
  | none => .error (.noSuchEdge source target)
  | some edge =>
    let others := (g.removeEdge source target).edges
    .ok { g with
      edges := g.placeEdge { edge with attrs := edge.attrs.insert key value } others }

/-- Gives the graph another name. -/
def setName (g : FlowGraph) (name : String) : FlowGraph := { g with name }

/-- Sets an attribute of the graph itself. -/
def setAttr (g : FlowGraph) (key value : String) : FlowGraph :=
  { g with attrs := g.attrs.insert key value }

/-- Writes what is known of the nodes into their attributes, so that it is part of the graph's
text. Nothing is written where nothing was found. -/
def exportAnnotations (g : FlowGraph) : FlowGraph :=
  { g with nodes := g.nodes.map fun n =>
      { n with attrs := n.attrs.insertAll (n.notes.findings g.label) } }

end FlowGraph

end ControlFlow
