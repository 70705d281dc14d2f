import ControlFlow.Graph.Numbering
import ControlFlow.Region

/-! Short-circuit tests. Of two tests where one side of the first leads to the second, and both
lead to one common block, the second is taken into the first, which then tests a compound
condition. -/
namespace ControlFlow.ShortCircuit

/-- The blocks that a two-way test leads to, that of the true side first. -/
def sides? (g : FlowGraph) (id : NodeId) : Option (NodeId × NodeId) :=
  match g.outEdges id with
  | [first, second] =>
    if first.branch == .whenTrue && second.branch == .whenFalse then
      some (first.target, second.target)
    else none
  | _ => none

/-- Whether a block can be taken into the test before it: control comes to it from nowhere else,
and it does nothing but test. -/
def isInner (g : FlowGraph) (outer id : NodeId) : Bool :=
  id != outer && g.entry? != some id && (g.preds id).length == 1 &&
    (g.notes? id).any Notes.isCondNode && (sides? g id).isSome

/-- What is done to join two tests. -/
structure Contraction where
  junction : Junction
  outer : NodeId
  /-- The block that goes. -/
  inner : NodeId
  /-- Where the outer block goes instead. -/
  target : NodeId
  /-- Where the joined test leads. -/
  bodyTrue : NodeId
  bodyFalse : NodeId
deriving DecidableEq, Repr

/-- Joins the test on the true side of a block to the block's own. -/
def contractTrue? (g : FlowGraph) (outer onTrue onFalse : NodeId) : Option Contraction :=
  if isInner g outer onTrue then
    match sides? g onTrue with
    | some (innerTrue, innerFalse) =>
      if innerTrue == onFalse then
        some ⟨.andNot, outer, onTrue, innerFalse, innerFalse, onFalse⟩
      else if innerFalse == onFalse then
        some ⟨.and, outer, onTrue, innerTrue, innerTrue, onFalse⟩
      else none
    | none => none
  else none

/-- Joins the test on the false side of a block to the block's own. -/
def contractFalse? (g : FlowGraph) (outer onTrue onFalse : NodeId) : Option Contraction :=
  if isInner g outer onFalse then
    match sides? g onFalse with
    | some (innerTrue, innerFalse) =>
      if innerTrue == onTrue then
        some ⟨.or, outer, onFalse, innerFalse, onTrue, innerFalse⟩
      else if innerFalse == onTrue then
        some ⟨.orNot, outer, onFalse, innerTrue, onTrue, innerTrue⟩
      else none
    | none => none
  else none

/-- A contraction at a block, the true side first. -/
def contraction? (g : FlowGraph) (outer : NodeId) : Option Contraction :=
  match sides? g outer with
  | some (onTrue, onFalse) =>
    (contractTrue? g outer onTrue onFalse).or (contractFalse? g outer onTrue onFalse)
  | none => none

/-- What a block tests: its compound condition, or itself. -/
def condition (g : FlowGraph) (id : NodeId) : Condition :=
  ((g.notes? id).bind Notes.compound).getD (.leaf (g.label id))

/-- The condition of two joined tests. -/
def join : Junction → Condition → Condition → Condition
  | .and, a, b => .and a b
  | .andNot, a, b => .and a (.not b)
  | .or, a, b => .or a b
  | .orNot, a, b => .or a (.not b)

/-- The record of a contraction. -/
def Contraction.region (g : FlowGraph) (c : Contraction) : Region :=
  .shortCircuit c.junction (g.label c.outer) (g.label c.inner) (g.label c.bodyTrue)
    (g.label c.bodyFalse)

/-- Carries out a contraction. The new edge takes over the attributes of the edge to the block
that goes, its side of the test with them. -/
def contract (g : FlowGraph) (c : Contraction) : Except GraphError FlowGraph := do
  let compound := join c.junction (condition g c.outer) (condition g c.inner)
  let attrs := ((g.edge? c.outer c.inner).map Edge.attrs).getD .empty
  let (_, joined) ← (g.removeNode c.inner).addEdge c.outer c.target attrs
  pure (joined.annotate c.outer fun notes => { notes with compound := some compound })

/-- At most `bound` contractions, each at the first block in reverse postorder that has one. Each
takes a node away, so a bound of the number of nodes is never reached. -/
def contractWithin : Nat → FlowGraph → Except GraphError (List Region × FlowGraph)
  | 0, g => pure ([], g)
  | bound + 1, g => do
    let (numbering, g) ← g.number
    match numbering.reversePostorder.findSome? (contraction? g) with
    | none => pure ([], g)
    | some c =>
      let (regions, result) ← contractWithin bound (← contract g c)
      pure (c.region g :: regions, result)

/-- Joins tests as long as there are any to join. -/
def contractAll (g : FlowGraph) : Except GraphError (List Region × FlowGraph) :=
  contractWithin g.size g

end ControlFlow.ShortCircuit
