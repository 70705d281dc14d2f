import ControlFlow.Analysis
import ControlFlow.Graph.Merge
import ControlFlow.Hammock.Shape

/-! Reduction by hammocks: the first matching region is merged into one node, again and again,
until one node is left or no shape matches. Every merge makes the graph smaller, so a graph of n
nodes is reduced in fewer than n merges. An observer sees the graph around every merge and can
stop the run there. -/
namespace ControlFlow.Hammock

/-- What is to be done with a graph. -/
inductive Move where
  /-- Nothing: it is one node, or none. -/
  | done
  /-- Nothing: no shape matches. -/
  | stuck
  | merge (region : Region)
deriving DecidableEq, Repr

/-- The next move. -/
def nextMove (g : FlowGraph) : Except GraphError Move := do
  if g.size ≤ 1 then pure .done
  else
    let dom ← g.dominators
    match firstMatch? g dom with
    | some region => pure (.merge region)
    | none => pure .stuck

/-- Sees the graph before and after each merge, and says whether to go on. -/
structure Observer (m : Type → Type) where
  before : FlowGraph → Region → m Bool
  after : FlowGraph → Region → m Bool

/-- Looks at nothing and never stops a run. -/
def Observer.silent [Monad m] : Observer m where
  before _ _ := pure true
  after _ _ := pure true

/-- What a run comes to: its outcome and the graph it leaves behind. -/
abbrev Outcome := Except GraphError (Analysis × FlowGraph)

/-- The outcome of a run that was not stopped. -/
def finished (found : List Region) (g : FlowGraph) : Outcome := .ok (⟨found, none⟩, g)

/-- The outcome of a run that ended early. -/
def ended (found : List Region) (g : FlowGraph) (cancelled : Bool) : Outcome :=
  .ok (⟨found, some ⟨g.size, cancelled⟩⟩, g)

/-- Makes moves, at most `bound` of them. A bound of the number of nodes is never reached. -/
def runWithin [Monad m] (observer : Observer m) :
    Nat → FlowGraph → List Region → m Outcome
  | 0, g, found => pure (finished found g)
  | bound + 1, g, found =>
    match nextMove g with
    | .error error => pure (.error error)
    | .ok .done => pure (finished found g)
    | .ok .stuck => pure (ended found g false)
    | .ok (.merge region) => do
      if ← observer.before g region then
        match g.mergeRegion region with
        | .error error => pure (.error error)
        | .ok (_, merged) =>
          if ← observer.after merged region then
            runWithin observer bound merged (found ++ [region])
          else pure (ended (found ++ [region]) merged true)
      else pure (ended found g true)

/-- Reduces a valid graph under an observer. -/
def reduceObserved [Monad m] (observer : Observer m) (g : FlowGraph) : m Outcome :=
  match g.validate with
  | .error error => pure (.error error)
  | .ok () => runWithin observer g.size g []

/-- Reduces a valid graph. -/
def reduce (g : FlowGraph) : Outcome := Id.run (reduceObserved .silent g)

/-- What one step of a reduction has done. -/
inductive Step where
  | done
  | stuck
  | merged (region : Region) (result : FlowGraph)
deriving DecidableEq

/-- Makes one move on a valid graph. -/
def step (g : FlowGraph) : Except GraphError Step := do
  g.validate
  match ← nextMove g with
  | .done => pure .done
  | .stuck => pure .stuck
  | .merge region => pure (.merged region (← g.mergeRegion region).2)

end ControlFlow.Hammock
