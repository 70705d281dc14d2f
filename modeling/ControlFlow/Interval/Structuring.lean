import ControlFlow.Interval.Follow
import ControlFlow.Interval.ShortCircuit

/-! Structuring by intervals. The graph keeps its nodes, those of joined tests apart, and is
annotated in four passes: tests are joined, then switches get their follows, loops are found, and
two-way conditionals get their follows. The regions record the same findings. -/
namespace ControlFlow.FlowGraph

/-- Annotates a valid graph and gives the regions found. -/
def structureIntervals (g : FlowGraph) : Except GraphError (List Region × FlowGraph) := do
  g.validate
  let (joined, g) ← ShortCircuit.contractAll g.resetAnnotations
  let (switches, g) ← g.structureSwitches
  let (loops, g) ← g.structureLoops
  let (tests, g) ← g.structureTests
  pure (joined ++ switches ++ loops ++ tests, g)

end ControlFlow.FlowGraph
