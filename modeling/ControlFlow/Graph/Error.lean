import ControlFlow.Graph.Basic

/-! What can be wrong with a flow graph or with a request to change one. -/
namespace ControlFlow

/-- The text of a node's number. -/
def nodeIdText (id : NodeId) : String := "n" ++ toString id

/-- The text of an edge's number. -/
def edgeIdText (id : Nat) : String := "e" ++ toString id

/-- Why a graph was rejected or left as it was. -/
inductive GraphError where
  /-- Control enters the graph nowhere. -/
  | noEntry (graph : String)
  /-- No path leads from the entry to the node. -/
  | unreachable (node entry : String)
  | duplicateLabel (label : String)
  | secondEntry (label entry : String)
  | danglingEdge (source target : NodeId)
  | parallelEdge (source target : String)
  | noSuchEdge (source target : NodeId)
  /-- A graph was to be built from no blocks at all. -/
  | noBlocks
  | unknownTarget (block target : String)
  | unknownLabel (label : String)
  | unknownNode (id : NodeId)
  | nothingToMerge
  | listedTwice (label : String)
deriving DecidableEq, Repr

/-- The three sorts of mistakes: a graph that breaks a rule, a name that names nothing, and a
merge that cannot be carried out. -/
inductive GraphError.Sort where
  | invalid
  | unknown
  | merge
deriving DecidableEq, Repr

namespace GraphError

def sort : GraphError → GraphError.Sort
  | unknownLabel _ | unknownNode _ => .unknown
  | nothingToMerge | listedTwice _ => .merge
  | _ => .invalid

/-- What is wrong, without the sort of mistake. -/
def detail : GraphError → String
  | noEntry graph => "graph '" ++ graph ++ "' has no entry node"
  | unreachable node entry =>
    "node '" ++ node ++ "' is unreachable from entry '" ++ entry ++ "'"
  | duplicateLabel label => "duplicate node label '" ++ label ++ "'"
  | secondEntry label entry =>
    "second entry node '" ++ label ++ "' (entry is '" ++ entry ++ "')"
  | danglingEdge source target =>
    "edge " ++ nodeIdText source ++ " -> " ++ nodeIdText target ++ " references a missing node"
  | parallelEdge source target => "parallel edge '" ++ source ++ "' -> '" ++ target ++ "'"
  | noSuchEdge source target => "no edge " ++ nodeIdText source ++ " -> " ++ nodeIdText target
  | noBlocks => "cannot build a CFG from an empty block list"
  | unknownTarget block target =>
    "block '" ++ block ++ "' branches to unknown block '" ++ target ++ "'"
  | unknownLabel label => label
  | unknownNode id => nodeIdText id
  | nothingToMerge => "nothing to merge"
  | listedTwice label => "node '" ++ label ++ "' is listed twice"

/-- The whole text of an error. -/
def message (error : GraphError) : String :=
  match error.sort with
  | .invalid => "Invalid CFG - " ++ error.detail
  | .unknown => "Unknown node - " ++ error.detail
  | .merge => "Merge failed - " ++ error.detail

end GraphError

end ControlFlow
