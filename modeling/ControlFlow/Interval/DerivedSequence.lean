import ControlFlow.Interval.Partition

/-! The derived sequence. Making every interval of a graph one node gives the next graph of the
sequence, which ends with the first graph that this does not make smaller. A graph is reducible
when its sequence ends in a single node. -/
namespace ControlFlow

/-- One graph of a derived sequence and its intervals. -/
structure Level where
  graph : FlowGraph
  intervals : List Interval
deriving DecidableEq

namespace FlowGraph

/-- Adds the node that stands for an interval: it has the label of the header, and is the entry if
the header was. -/
def addInterval (derived g : FlowGraph) (interval : Interval) : Except GraphError FlowGraph := do
  let attrs : AttrMap :=
    if g.entry? == some interval.header then .ofList [("entry", "true")] else .empty
  pure (← derived.addNode (g.label interval.header) attrs).2

/-- The pairs of different intervals between which control passes, which it can only do to the
header of the second. -/
def intervalEdges (g : FlowGraph) (intervals : List Interval) : List (Interval × Interval) :=
  intervals.flatMap fun source =>
    (intervals.filter fun target => source.header != target.header &&
      (g.preds target.header).any source.nodes.contains).map fun target => (source, target)

/-- Adds an edge between the nodes of two intervals. -/
def addIntervalEdge (derived g : FlowGraph) (pair : Interval × Interval) :
    Except GraphError FlowGraph :=
  match derived.find? (g.label pair.1.header), derived.find? (g.label pair.2.header) with
  | some source, some target => do pure (← derived.addEdge source target .empty).2
  | _, _ => pure derived

/-- The graph of the intervals. What happens within one of them vanishes, edges back to its header
included. -/
def collapse (g : FlowGraph) (intervals : List Interval) : Except GraphError FlowGraph := do
  let derived ← intervals.foldlM (fun derived interval => derived.addInterval g interval)
    (empty g.name)
  (g.intervalEdges intervals).foldlM (fun derived pair => derived.addIntervalEdge g pair) derived

/-- At most `bound` levels of a derived sequence. Each graph is smaller than the one before it, so
a bound of the number of nodes is never reached. -/
def levelsWithin : Nat → FlowGraph → Except GraphError (List Level)
  | 0, _ => pure []
  | bound + 1, g => do
    let intervals ← g.intervals
    let derived ← g.collapse intervals
    if derived.size < g.size then pure (⟨g, intervals⟩ :: (← levelsWithin bound derived))
    else pure [⟨g, intervals⟩]

/-- The derived sequence of a graph, the graph itself first. -/
def derivedSequence (g : FlowGraph) : Except GraphError (List Level) := do
  let _ ← g.entry
  levelsWithin g.size g

end FlowGraph

namespace Level

/-- The number of nodes of the last graph of a sequence. -/
def limitSize (levels : List Level) : Nat := (levels.getLast?.map fun level => level.graph.size).getD 0

/-- Whether a sequence ends in a single node. -/
def reducible (levels : List Level) : Bool := limitSize levels == 1

end Level

end ControlFlow
