import ControlFlow.Graph.Numbering
import ControlFlow.Procedure
import ControlFlow.Store.Basic

/-! Changes to the tables of a graph. Each first looks whether it can be carried out and then writes to
every table that has something about it. -/
namespace ControlFlow.Store

/-! ## Nodes -/

/-- Writes a new node to all tables. -/
def insertNode (s : Store) (label : String) (attrs : AttrMap) : Store :=
  let id := s.nodes.size
  let place := partitionPoint (fun n => Text.naturalCompare (s.label n) label == .lt) s.order
  { s with
    nodes := s.nodes.push (some { label, attrs, notes := .ofAttrs attrs })
    outgoing := s.outgoing.push []
    incoming := s.incoming.push []
    order := s.order.insertIdx place id
    labels := s.labels.insert label id
    entry := if attrs.marksEntry then some id else s.entry }

/-- Adds a node. Labels are distinct, and at most one node is the entry. -/
def addNode (label : String) (attrs : AttrMap) : Procedure Store NodeId := do
  let s ← get
  if s.labels.contains label then throw (.duplicateLabel label)
  else match attrs.marksEntry, s.entry with
    | true, some entry => throw (.secondEntry label (s.label entry))
    | _, _ => do
      set (s.insertNode label attrs)
      pure s.nodes.size

/-- Adds a node without attributes. -/
def addBlock (label : String) : Procedure Store NodeId := addNode label .empty

/-- Takes an edge at a node that is going away out of the tables. A loop is listed twice, and there is
nothing left of it the second time. -/
def detach (gone : NodeId) (s : Store) (edge : EdgeId) : Store :=
  match s.edgeAt? edge with
  | none => s
  | some e =>
    { s with
      edges := s.edges.setIfInBounds edge none
      outgoing := if e.source != gone then s.outgoing.drop e.source edge else s.outgoing
      incoming := if e.target != gone then s.incoming.drop e.target edge else s.incoming }

/-- Empties the place of a node and its lists. -/
def hollow (s : Store) (id : NodeId) : Store :=
  { s with
    nodes := s.nodes.setIfInBounds id none
    outgoing := s.outgoing.clear id
    incoming := s.incoming.clear id }

/-- Takes a node out of all tables, and the edges that were listed for it. -/
def eraseNode (s : Store) (id : NodeId) (label : String) : Store :=
  let attached := s.outgoing.listAt id ++ s.incoming.listAt id
  let cut := attached.foldl (detach id) (s.hollow id)
  { cut with
    order := cut.order.filter (· != id)
    labels := cut.labels.erase label
    entry := if cut.entry == some id then none else cut.entry }

/-- Removes a node with all edges at it. Comes to the node, if there is one. -/
def removeNode (id : NodeId) : Procedure Store (Option StoredNode) := do
  let s ← get
  match s.node? id with
  | none => pure none
  | some node => do
    set (s.eraseNode id node.label)
    pure (some node)

/-- Changes a node where it lies. -/
def modifyNode (s : Store) (id : NodeId) (change : StoredNode → StoredNode) : Store :=
  { s with nodes := s.nodes.modify id (Option.map change) }

/-- Writes down which node is the entry, and marks it. -/
def markEntry (s : Store) (id : NodeId) : Store :=
  let marked := { s with entry := some id }
  marked.modifyNode id fun n => { n with attrs := n.attrs.insert "entry" "true" }

/-- Makes a node the entry, if no other node is. -/
def setEntry (id : NodeId) : Procedure Store Unit := do
  let s ← get
  if !s.contains id then throw (.unknownNode id)
  else match s.entry with
    | some entry =>
      if entry != id then throw (.secondEntry (s.label id) (s.label entry))
      else set (s.markEntry id)
    | none => set (s.markEntry id)

/-! ## Edges -/

/-- Puts an edge into the arena. -/
def pushEdge (s : Store) (edge : Edge) : Store := { s with edges := s.edges.push (some edge) }

/-- Writes a new edge to all tables. -/
def insertEdge (s : Store) (edge : Edge) : Store :=
  let id := s.edges.size
  let pushed := s.pushEdge edge
  let out := partitionPoint (fun other => pushed.compareOutgoing other id == .lt)
    (pushed.outgoing.listAt edge.source)
  let into := partitionPoint (fun other => pushed.compareIncoming other id == .lt)
    (pushed.incoming.listAt edge.target)
  { pushed with
    outgoing := pushed.outgoing.insertAt edge.source out id
    incoming := pushed.incoming.insertAt edge.target into id }

/-- Adds an edge between two live nodes that have none in this direction. -/
def addEdge (source target : NodeId) (attrs : AttrMap) : Procedure Store EdgeId := do
  let s ← get
  if !s.contains source || !s.contains target then throw (.danglingEdge source target)
  else if (s.edgeId? source target).isSome then
    throw (.parallelEdge (s.label source) (s.label target))
  else do
    set (s.insertEdge { source, target, attrs })
    pure s.edges.size

/-- Adds an edge with the attributes of a list. -/
def connect (source target : NodeId) (entries : List (String × String)) :
    Procedure Store EdgeId :=
  addEdge source target (.ofList entries)

/-- Takes an edge out of all tables. -/
def eraseEdge (s : Store) (source target : NodeId) (edge : EdgeId) : Store :=
  { s with
    edges := s.edges.setIfInBounds edge none
    outgoing := s.outgoing.drop source edge
    incoming := s.incoming.drop target edge }

/-- Removes the edge between two nodes. Comes to the edge, if there is one. -/
def removeEdge (source target : NodeId) : Procedure Store (Option Edge) := do
  let s ← get
  match s.edgeId? source target with
  | none => pure none
  | some id => do
    set (s.eraseEdge source target id)
    pure (s.edgeAt? id)

/-- Sets an attribute of an edge where it lies. -/
def writeEdge (s : Store) (edge : EdgeId) (key value : String) : Store :=
  { s with
    edges := s.edges.modify edge (Option.map fun e => { e with attrs := e.attrs.insert key value }) }

/-- Sorts the edges that leave a node. -/
def sortOutgoing (s : Store) (id : NodeId) : Store :=
  { s with
    outgoing := s.outgoing.modify id fun list =>
      list.mergeSort fun a b => (s.compareOutgoing a b).isLE }

/-- Sets an attribute of an edge. A new condition can move the edge among its neighbours. -/
def setEdgeAttr (source target : NodeId) (key value : String) : Procedure Store Unit := do
  let s ← get
  match s.edgeId? source target with
  | none => throw (.noSuchEdge source target)
  | some id => do
    set (s.writeEdge id key value)
    if key == "cond" then modify (·.sortOutgoing source)

/-! ## Annotations -/

/-- Changes what is known of one node. -/
def annotate (s : Store) (id : NodeId) (change : Notes → Notes) : Store :=
  s.modifyNode id fun n => { n with notes := change n.notes }

/-- Forgets what every analysis has found out. -/
def resetAnnotations : Procedure Store Unit :=
  modify fun s =>
    { s with nodes := s.nodes.map (Option.map fun n => { n with notes := .ofAttrs n.attrs }) }

/-- The numbering of the nodes met from a start. -/
def numbering (s : Store) (start : NodeId) : Numbering :=
  .ofForest (searchFrom s.succs s.order [start])

/-- Writes the numbers of a node into its annotations, if it was met. -/
def recordNumber (numbering : Numbering) (s : Store) (id : NodeId) : Store :=
  s.annotate id fun notes =>
    match numbering.preNum? id, numbering.postNum? id, numbering.revPostNum? id with
    | some pre, some post, some rev =>
      { notes with preNum := pre, postNum := post, revPostNum := rev }
    | _, _, _ => notes

/-- Numbers the nodes from the entry. -/
def number : Procedure Store Numbering := do
  let s ← get
  match s.entry with
  | none => throw (.noEntry s.name)
  | some entry => do
    let numbering := s.numbering entry
    set (s.order.foldl (recordNumber numbering) s)
    pure numbering

/-- What there is to be written into the attributes of nodes, in the order of the nodes. -/
def findings (s : Store) : List (NodeId × List (String × String)) :=
  (s.order.filterMap fun id => (s.node? id).map fun n => (id, n.notes.findings s.label)).filter
    fun finding => !finding.2.isEmpty

/-- Writes attributes of a node. -/
def writeFinding (s : Store) (finding : NodeId × List (String × String)) : Store :=
  s.modifyNode finding.1 fun n => { n with attrs := n.attrs.insertAll finding.2 }

/-- Writes what is known of the nodes into their attributes. -/
def exportAnnotations : Procedure Store Unit :=
  modify fun s => s.findings.foldl writeFinding s

end ControlFlow.Store
