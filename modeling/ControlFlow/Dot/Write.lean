import ControlFlow.Dot.Id
import ControlFlow.Graph.Basic

/-! The written form of a flow graph: its attributes, its nodes and its edges, each on a line of
its own and in the graph's order. Nothing is left to defaults. -/
namespace ControlFlow.Dot

/-- `key=value` with both ids quoted where they have to be. -/
def entryText (entry : String × String) : String := quote entry.1 ++ "=" ++ quote entry.2

/-- An attribute list with a blank before it; nothing if there are no attributes. -/
def listText (attrs : AttrMap) : String :=
  if attrs.isEmpty then "" else " [" ++ ", ".intercalate (attrs.entries.map entryText) ++ "]"

def nodeText (node : Node) : String := quote node.label ++ listText node.attrs

def edgeText (g : FlowGraph) (edge : Edge) : String :=
  quote (g.label edge.source) ++ " -> " ++ quote (g.label edge.target) ++ listText edge.attrs

/-- The line that opens a graph. -/
def headText (name : String) : String :=
  if name.isEmpty then "digraph \x7b\n" else "digraph " ++ quote name ++ " \x7b\n"

/-- The written form of a graph. -/
def write (g : FlowGraph) : String :=
  let statements := g.attrs.entries.map entryText ++ g.nodes.map nodeText ++ g.edges.map (edgeText g)
  headText g.name ++ String.join (statements.map fun s => "    " ++ s ++ ";\n") ++ "\x7d\n"

end ControlFlow.Dot
