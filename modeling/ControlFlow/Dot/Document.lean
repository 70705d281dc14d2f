import ControlFlow.Dot.Statement
import ControlFlow.Graph.Update

/-! What a DOT text means. Statements are carried out in their order. Defaults hold for what is
mentioned later, a node takes them when it is first mentioned, and attributes that a statement
writes itself come after them. -/
namespace ControlFlow.Dot

/-- What the statements so far have said. Nodes are known by label, in the order of their first
mention, and so are edges. -/
structure Document where
  strict : Bool
  name : String
  graphAttrs : AttrMap
  nodeDefaults : AttrMap
  edgeDefaults : AttrMap
  nodes : List (String × AttrMap)
  edges : List ((String × String) × AttrMap)
deriving DecidableEq

namespace Document

/-- A document without statements. -/
def start (strict : Bool) (name : String) : Document where
  strict := strict
  name := name
  graphAttrs := .empty
  nodeDefaults := .empty
  edgeDefaults := .empty
  nodes := []
  edges := []

/-- Mentions a node. -/
def touch (doc : Document) (label : String) : Document :=
  if (doc.nodes.lookup label).isSome then doc
  else { doc with nodes := doc.nodes ++ [(label, doc.nodeDefaults)] }

/-- Changes the attributes that belong to one key of a table. -/
def update [BEq α] (key : α) (change : AttrMap → AttrMap) (table : List (α × AttrMap)) :
    List (α × AttrMap) :=
  table.map fun (k, attrs) => if k == key then (k, change attrs) else (k, attrs)

/-- Adds an edge. Only a strict document may mention it again; the attributes are then set on the
one there is. -/
def addEdge (doc : Document) (line : Nat) (source target : String) (attrs : AttrMap) :
    Except ReadError Document :=
  if (doc.edges.lookup (source, target)).isSome then
    if doc.strict then
      .ok { doc with edges := update (source, target) (·.override attrs) doc.edges }
    else .error (.fault line (.parallelEdge source target))
  else .ok { doc with edges := doc.edges ++ [((source, target), attrs)] }

/-- Carries out one statement. -/
def run (doc : Document) : Statement → Except ReadError Document
  | .defaults .graph entries => .ok { doc with graphAttrs := doc.graphAttrs.insertAll entries }
  | .defaults .node entries => .ok { doc with nodeDefaults := doc.nodeDefaults.insertAll entries }
  | .defaults .edge entries => .ok { doc with edgeDefaults := doc.edgeDefaults.insertAll entries }
  | .assign key value => .ok { doc with graphAttrs := doc.graphAttrs.insert key value }
  | .node label entries =>
    let doc := doc.touch label
    .ok { doc with nodes := update label (·.insertAll entries) doc.nodes }
  | .chain line first others entries =>
    let attrs := doc.edgeDefaults.insertAll entries
    let labels := first :: others
    (labels.zip others).foldlM (fun doc (source, target) => doc.addEdge line source target attrs)
      (labels.foldl touch doc)

/-- Carries out a whole text. -/
def ofText (text : Outline) : Except ReadError Document := do
  let doc ← text.body.statements.foldlM run (start text.strict text.name)
  match text.body.fault with
  | some fault => .error fault
  | none => pure doc

/-- The graph that a document describes. -/
def toGraph (doc : Document) : Except GraphError FlowGraph := do
  let bare := { FlowGraph.empty doc.name with attrs := doc.graphAttrs }
  let g ← doc.nodes.foldlM (fun g (label, attrs) => do pure (← g.addNode label attrs).2) bare
  doc.edges.foldlM (fun g ((source, target), attrs) =>
    match g.find? source, g.find? target with
    | some source, some target => do pure (← g.addEdge source target attrs).2
    | _, _ => pure g) g

end Document

/-- Reads a flow graph. -/
def read (text : String) : Except ReadError FlowGraph := do
  let doc ← Document.ofText (← Outline.ofLexemes (← lexemes text))
  doc.toGraph.mapError .graph

end ControlFlow.Dot
