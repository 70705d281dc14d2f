import ControlFlow.Region

/-! The result of structuring a flow graph: the regions that were recognised, in the order in
which they were, and whether anything was left over. -/
namespace ControlFlow

/-- What is left of a graph that was not structured to the end. -/
structure Remainder where
  /-- The number of nodes left. -/
  size : Nat
  /-- Whether the run was stopped from outside. -/
  cancelled : Bool
deriving DecidableEq, Repr

/-- The outcome of a run. -/
structure Analysis where
  regions : List Region
  remainder : Option Remainder
deriving DecidableEq, Repr

namespace Analysis

def isComplete (analysis : Analysis) : Bool := analysis.remainder.isNone

/-- The regions of a complete run. Otherwise what a run that must be complete is refused with: the
regions it has found and the number of nodes left. -/
def result (analysis : Analysis) : Except (List Region × Nat) (List Region) :=
  match analysis.remainder with
  | none => .ok analysis.regions
  | some remainder => .error (analysis.regions, remainder.size)

/-- The text of such a refusal. -/
def incompleteMessage (found : List Region) (remaining : Nat) : String :=
  "Incomplete structuring - " ++ toString remaining ++ " nodes remain after " ++
    toString found.length ++ " primitives"

end Analysis

end ControlFlow
