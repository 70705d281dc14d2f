import ControlFlow.Dot.Document
import ControlFlow.Graph.Blocks
import ControlFlow.Store.Update

/-! The tables of graphs that are read. Nodes are added first and then edges, each by the change that
adds one to any graph. Where one cannot be added, there is no graph. -/
namespace ControlFlow

namespace Procedure

/-- The state that a procedure leaves behind, unless it fails. -/
def leaves (procedure : Procedure σ α) (state : σ) : Except GraphError σ :=
  match procedure.runOn state with
  | (.ok _, left) => .ok left
  | (.error error, _) => .error error

end Procedure

namespace Store

open Procedure

/-! ## Texts -/

/-- The tables of the graph that a document describes. -/
def ofDocument (doc : Dot.Document) : Except GraphError Store := do
  let bare := { empty doc.name with attrs := doc.graphAttrs }
  let s ← doc.nodes.foldlM (fun s (label, attrs) => (addNode label attrs).leaves s) bare
  doc.edges.foldlM (fun s ((source, target), attrs) =>
    match s.find? source, s.find? target with
    | some source, some target => (addEdge source target attrs).leaves s
    | _, _ => pure s) s

/-- Reads a flow graph. -/
def read (text : String) : Except Dot.ReadError Store := do
  let doc ← Dot.Document.ofText (← Dot.Outline.ofLexemes (← Dot.lexemes text))
  (ofDocument doc).mapError .graph

/-! ## Blocks -/

/-- Adds a node for each block. -/
def addBlocks (s : Store) (isFirst : Bool) : List BasicBlock → Except GraphError Store
  | [] => .ok s
  | block :: rest => do
    let s ← (addNode block.name (FlowGraph.blockAttrs isFirst block)).leaves s
    s.addBlocks false rest

/-- Adds the edge from one block to one of its targets. -/
def addTarget (s : Store) (block : String) (target : String) (cond : Option String) :
    Except GraphError Store :=
  match s.find? block, s.find? target with
  | some source, some id =>
    (addEdge source id (.ofList (cond.map fun c => ("cond", c)).toList)).leaves s
  | _, _ => .error (.unknownTarget block target)

/-- Adds the edges that leave one block. -/
def addTargets (s : Store) (block : BasicBlock) : Except BlockError Store := do
  let targets ← block.terminator.targets
  targets.foldlM (fun s (target, cond) =>
    (s.addTarget block.name target cond).mapError .graph) s

/-- The tables of the graph of a list of blocks. -/
def ofBlocks (name : String) (blocks : List BasicBlock) : Except BlockError Store := do
  if blocks.isEmpty then .error (.graph .noBlocks)
  else
    let s ← ((empty name).addBlocks true blocks).mapError .graph
    blocks.foldlM addTargets s

end Store

end ControlFlow
