import ControlFlow.Hammock.Reduction
import ControlFlow.Interval.Structuring

/-! The two ways to structure a graph. -/
namespace ControlFlow

/-- How a graph is structured: by merging regions, or by annotating intervals. -/
inductive Strategy where
  | hammock
  | interval
deriving DecidableEq, Repr

namespace Strategy

def name : Strategy → String
  | hammock => "hammock"
  | interval => "interval"

def ofName? : String → Option Strategy
  | "hammock" => some hammock
  | "interval" => some interval
  | _ => none

/-- Structures a graph. An error leaves it as it was. -/
def analyze (strategy : Strategy) (g : FlowGraph) : Except GraphError (Analysis × FlowGraph) :=
  match strategy with
  | hammock => Hammock.reduce g
  | interval => do
    let (regions, g) ← g.structureIntervals
    pure (⟨regions, none⟩, g)

end Strategy

end ControlFlow
