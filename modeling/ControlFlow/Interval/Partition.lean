import ControlFlow.Graph.Numbering

/-! Intervals. An interval is a header together with the nodes that control can only reach through
it, as far as they can be added one by one: each has all its predecessors among those before it.
The intervals of a graph are found from the entry on and divide the nodes that it reaches. -/
namespace ControlFlow

/-- A header and its nodes in the order in which they were added, the header first. -/
structure Interval where
  header : NodeId
  nodes : List NodeId
deriving DecidableEq, Repr

namespace Interval

/-- Whether a node can be added to an interval: it belongs to no other one, control comes to it,
and only from within. -/
def admits (g : FlowGraph) (taken members : List NodeId) (id : NodeId) : Bool :=
  !members.contains id && !taken.contains id && !(g.preds id).isEmpty &&
    (g.preds id).all members.contains

/-- Goes once through the nodes in the given order and adds those that can be added. -/
def sweep (g : FlowGraph) (order taken members : List NodeId) : List NodeId :=
  order.foldl (fun members id => if admits g taken members id then members ++ [id] else members)
    members

/-- Sweeps until nothing is added any more. Each sweep before the last adds a node, so a bound of
the number of nodes is never reached. -/
def grow (g : FlowGraph) (order taken : List NodeId) : Nat → List NodeId → List NodeId
  | 0, members => members
  | bound + 1, members =>
    let swept := sweep g order taken members
    if swept.length == members.length then members else grow g order taken bound swept

/-- The nodes outside that control comes to from inside: the headers of further intervals. -/
def newHeaders (g : FlowGraph) (order taken members : List NodeId) : List NodeId :=
  order.filter fun id =>
    !members.contains id && !taken.contains id && (g.preds id).any members.contains

/-- The intervals of the headers in the queue and of those found on the way, at most `bound` of
them. `placed` holds the nodes of the intervals before. -/
def partitionWithin (g : FlowGraph) (order : List NodeId) :
    Nat → List NodeId → List NodeId → List Interval
  | bound + 1, placed, header :: queue =>
    let taken := placed ++ header :: queue
    let members := grow g order taken order.length [header]
    ⟨header, members⟩ :: partitionWithin g order bound (placed ++ members)
      (queue ++ newHeaders g order taken members)
  | _, _, _ => []

end Interval

namespace FlowGraph

/-- The intervals of the nodes that can be reached from a start, in the order of their
discovery. -/
def intervalsFrom (g : FlowGraph) (start : NodeId) : List Interval :=
  Interval.partitionWithin g (g.numbering start).reversePostorder g.size [] [start]

/-- The intervals of a graph with an entry. -/
def intervals (g : FlowGraph) : Except GraphError (List Interval) := do
  pure (g.intervalsFrom (← g.entry))

end FlowGraph

end ControlFlow
