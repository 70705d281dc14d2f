import ControlFlow.Interval.Loops

/-! Follows. The arms of a conditional meet at its follow, a node with several ways in that the
conditional dominates. Conditionals are looked at from the last one back, so that those inside are
met before those around them; one without a follow of its own takes that of the next conditional
that has one. -/
namespace ControlFlow

namespace FlowGraph

/-- The number of ways into a node. -/
def inDegree (g : FlowGraph) (id : NodeId) : Nat := (g.preds id).length

/-- The nodes directly below a node in the dominator tree where ways meet. -/
def joins (g : FlowGraph) (dom : DominatorTree) (id : NodeId) : List NodeId :=
  (dom.children id).filter fun n => g.inDegree n ≥ 2

/-- The node where most ways meet, the last one in reverse postorder among equals. -/
def widestJoin? (g : FlowGraph) (numbering : Numbering) (joins : List NodeId) : Option NodeId :=
  let widest := ((joins.map g.inDegree).max?).getD 0
  greatest? numbering.rank (joins.filter fun n => g.inDegree n == widest)

/-- The node below which the arms of a switch meet: the switch itself if it dominates all of them
directly, else their nearest common dominator. -/
def switchRoot? (g : FlowGraph) (dom : DominatorTree) (header : NodeId) : Option NodeId :=
  let arms := g.succs header
  if arms.all fun arm => dom.immediate? arm == some header then some header else dom.common? arms

/-- The follow of a switch. -/
def switchFollow? (g : FlowGraph) (dom : DominatorTree) (numbering : Numbering) (header : NodeId) :
    Option NodeId :=
  (g.switchRoot? dom header).bind fun root => g.widestJoin? numbering (g.joins dom root)

/-- The follow of a two-way conditional. -/
def testFollow? (g : FlowGraph) (dom : DominatorTree) (numbering : Numbering) (header : NodeId) :
    Option NodeId :=
  greatest? numbering.rank (g.joins dom header)

/-- The record of a switch. -/
def switchRegion? (g : FlowGraph) (header follow : NodeId) : Option Region :=
  some (.switch (g.label header) (g.label follow) ((g.succs header).map g.label))

/-- The record of a two-way conditional, one arm of which may be empty. -/
def testRegion? (g : FlowGraph) (header follow : NodeId) : Option Region :=
  match g.succs header with
  | [first, second] =>
    if first == follow || second == follow then
      let body := if first == follow then second else first
      some (.ifThen (g.label header) (g.label body) (g.label follow))
    else
      some (.ifElse (g.label header) (g.label first) (g.label second) (g.label follow))
  | _ => none

/-- Whether the test of a node belongs to a loop: the node heads one, or closes one that is tested
at its end. -/
def isLoopTest (g : FlowGraph) (id : NodeId) : Bool :=
  match g.notes? id with
  | none => false
  | some notes =>
    notes.loopKind.isSome ||
      (notes.isLatch && ((notes.loopHead.bind g.notes?).bind Notes.loopKind) == some .post)

def isSwitch (g : FlowGraph) (id : NodeId) : Bool := (g.succs id).length > 2

/-- A two-way conditional that is not the test of a loop. -/
def isTest (g : FlowGraph) (id : NodeId) : Bool := (g.succs id).length == 2 && !g.isLoopTest id

/-- A search for the follows of one kind of conditional. -/
structure FollowSearch where
  /-- The conditionals looked at. -/
  covers : FlowGraph → NodeId → Bool
  /-- The follow of one of them, if it has one of its own. -/
  follow? : FlowGraph → DominatorTree → Numbering → NodeId → Option NodeId
  /-- The record of one of them. -/
  region? : FlowGraph → NodeId → NodeId → Option Region

/-- Where a search stands: the records so far, the conditionals that wait for a follow, the latest
one first, and the graph. -/
structure FollowState where
  regions : List Region
  waiting : List NodeId
  graph : FlowGraph

/-- Looks at one node. A conditional with a follow gives it to all that wait. -/
def FollowSearch.visit (search : FollowSearch) (dom : DominatorTree) (numbering : Numbering)
    (state : FollowState) (id : NodeId) : FollowState :=
  let g := state.graph
  if search.covers g id then
    match search.follow? g dom numbering id with
    | some follow =>
      let resolved := id :: state.waiting
      { regions := state.regions ++ resolved.filterMap fun header => search.region? g header follow
        waiting := []
        graph := resolved.foldl (fun g header => g.annotate header fun notes =>
          { notes with follow := some follow }) g }
    | none => { state with waiting := id :: state.waiting }
  else state

/-- Looks at all nodes in postorder. -/
def FollowSearch.run (search : FollowSearch) (g : FlowGraph) :
    Except GraphError (List Region × FlowGraph) := do
  let (numbering, g) ← g.number
  let dom ← g.dominators
  let state := numbering.reversePostorder.reverse.foldl (search.visit dom numbering)
    { regions := [], waiting := [], graph := g }
  pure (state.regions, state.graph)

/-- The search for the follows of switches. -/
def FollowSearch.switches : FollowSearch where
  covers := isSwitch
  follow? := switchFollow?
  region? := switchRegion?

/-- The search for the follows of two-way conditionals. -/
def FollowSearch.tests : FollowSearch where
  covers := isTest
  follow? := testFollow?
  region? := testRegion?

/-- Finds the follows of switches. -/
def structureSwitches (g : FlowGraph) : Except GraphError (List Region × FlowGraph) :=
  FollowSearch.switches.run g

/-- Finds the follows of two-way conditionals. -/
def structureTests (g : FlowGraph) : Except GraphError (List Region × FlowGraph) :=
  FollowSearch.tests.run g

end FlowGraph

end ControlFlow
