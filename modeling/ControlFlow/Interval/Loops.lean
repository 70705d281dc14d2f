import ControlFlow.Graph.Dominators
import ControlFlow.Interval.DerivedSequence
import ControlFlow.Region

/-! Loops. An interval whose header control comes back to from inside is a loop; the graphs of the
derived sequence show the inner loops before the outer ones. The edge that closes a loop is traced
back to the first graph, where the kind, the members and the follow of the loop are written
down. -/
namespace ControlFlow

/-- The element with the greatest key, the last one among equals. -/
def greatest? (key : α → Nat) (items : List α) : Option α :=
  items.foldl (fun best a =>
    match best with
    | none => some a
    | some b => if key b ≤ key a then some a else some b) none

/-- The element with the least key, the first one among equals. -/
def least? (key : α → Nat) (items : List α) : Option α :=
  items.foldl (fun best a =>
    match best with
    | none => some a
    | some b => if key a < key b then some a else some b) none

namespace Level

/-- The numbering of a level from its entry. -/
def numbering (level : Level) : Numbering :=
  match level.graph.entry? with
  | some entry => level.graph.numbering entry
  | none => ⟨[], []⟩

/-- The last of the nodes of an interval, in reverse postorder, from which control comes to a
node. -/
def latestPred? (level : Level) (interval : Interval) (id : NodeId) : Option NodeId :=
  greatest? level.numbering.rank ((level.graph.preds id).filter interval.nodes.contains)

/-- The closing edges of the loops of a level: the labels of a header and of the last node of its
interval that leads back to it. -/
def closings (level : Level) : List (String × String) :=
  level.intervals.filterMap fun interval =>
    (level.latestPred? interval interval.header).map fun latch =>
      (level.graph.label interval.header, level.graph.label latch)

/-- Looks inside the node that closes a loop: the node of its interval, one level below, from which
the edge to the head starts. -/
def descend? (level : Level) (head latch : String) : Option String := do
  let id ← level.graph.find? head
  let interval ← level.intervals.find? fun i => level.graph.label i.header == latch
  pure (level.graph.label (← level.latestPred? interval id))

/-- The closing edges of all levels, traced back to the first one. `below` holds the levels passed,
the nearest one first. -/
def tracedClosings (below : List Level) : List Level → List (String × String)
  | [] => []
  | level :: above =>
    (level.closings.filterMap fun (head, latch) =>
      (below.foldlM (fun latch (level : Level) => level.descend? head latch) latch).map fun latch =>
        (head, latch)) ++
    tracedClosings (level :: below) above

end Level

namespace FlowGraph

/-- The natural loop of an edge back to `head`: the nodes that reach its source without passing
through the head, and the head. -/
def naturalLoop (g : FlowGraph) (head latch : NodeId) : List NodeId :=
  head :: (searchFrom g.preds (g.nodeIds.filter (· != head)) [latch]).preorder

/-- The members of a loop: the nodes of the natural loop that the head dominates, between head and
latch in reverse postorder. -/
def loopMembers (g : FlowGraph) (dom : DominatorTree) (numbering : Numbering)
    (head latch : NodeId) : List NodeId :=
  match numbering.revPostNum? head, numbering.revPostNum? latch with
  | some low, some high =>
    let natural := g.naturalLoop head latch
    g.nodeIds.filter fun id =>
      natural.contains id && dom.dominates head id &&
        (numbering.revPostNum? id).any fun rank => low ≤ rank && rank ≤ high
  | _, _ => []

/-- Where a loop tests whether to go on, told from the numbers of ways out of its head and its
latch. -/
def loopKindOf (g : FlowGraph) (members : List NodeId) (head latch : NodeId) : LoopKind :=
  let headTests := (g.succs head).length == 2
  let latchTests := (g.succs latch).length == 2
  if head == latch then .post
  else if latchTests && headTests then
    if (g.succs head).all members.contains then .post else .pre
  else if latchTests then .post
  else if headTests then .pre
  else .endless

/-- The first way out of a set of nodes from one of them. -/
def wayOut? (g : FlowGraph) (members : List NodeId) (id : NodeId) : Option NodeId :=
  (g.succs id).find? fun s => !members.contains s

/-- Where control goes on after a loop: the way out from its test, and for a loop without one the
way out from the first two-way member that has one. -/
def loopFollowOf (g : FlowGraph) (numbering : Numbering) (members : List NodeId)
    (kind : LoopKind) (head latch : NodeId) : Option NodeId :=
  match kind with
  | .pre => g.wayOut? members head
  | .post => g.wayOut? members latch
  | .endless =>
    let exits := g.nodeIds.filterMap fun id =>
      if members.contains id && (g.succs id).length == 2 then
        (g.wayOut? members id).map fun exit => (numbering.rank id, exit)
      else none
    (least? Prod.fst exits).map Prod.snd

/-- Writes down one loop: every member that is in no loop yet gets the head, the head gets kind and
follow, and the latch is marked. -/
def annotateLoop (g : FlowGraph) (members : List NodeId) (kind : LoopKind)
    (follow : Option NodeId) (head latch : NodeId) : FlowGraph :=
  let g := members.foldl (fun g id => g.annotate id fun notes =>
    { notes with loopHead := notes.loopHead.or (some head) }) g
  let g := g.annotate head fun notes => { notes with loopKind := some kind, loopFollow := follow }
  g.annotate latch fun notes => { notes with isLatch := true }

/-- Records the loop closed by an edge, unless the latch is in a loop already. -/
def recordLoop (dom : DominatorTree) (numbering : Numbering) (found : List Region × FlowGraph)
    (closing : String × String) : List Region × FlowGraph :=
  let (regions, g) := found
  match g.find? closing.1, g.find? closing.2 with
  | some head, some latch =>
    if (g.notes? latch).any fun notes => notes.loopHead.isSome then found
    else
      let members := g.loopMembers dom numbering head latch
      let kind := g.loopKindOf members head latch
      let follow := g.loopFollowOf numbering members kind head latch
      (regions ++ [.loop kind (g.label head) (g.label latch) (follow.map g.label)],
        g.annotateLoop members kind follow head latch)
  | _, _ => found

/-- Finds the loops of a graph and writes them down, inner loops first. -/
def structureLoops (g : FlowGraph) : Except GraphError (List Region × FlowGraph) := do
  let (numbering, g) ← g.number
  let dom ← g.dominators
  let levels ← g.derivedSequence
  pure ((Level.tracedClosings [] levels).foldl (recordLoop dom numbering) ([], g))

end FlowGraph

end ControlFlow
