import ControlFlow.Graph.Dominators
import ControlFlow.Region

/-! The shapes of hammocks: small single-entry regions that can be read off the edges around one
node. A shape looks at the node through which control enters; where two successors could play
either of two roles, the order in which the graph lists them is tried first. The blocks of a match
are pairwise different and dominated by the node. -/
namespace ControlFlow.Hammock

/-- Whether control comes to a node from one other node only. -/
def comesOnlyFrom (g : FlowGraph) (id source : NodeId) : Bool := g.preds id == [source]

/-- Whether control leaves a node for one other node only. -/
def goesOnlyTo (g : FlowGraph) (id target : NodeId) : Bool := g.succs id == [target]

/-- Whether control comes to a node from these two nodes and no other. -/
def comesFromBoth (g : FlowGraph) (id a b : NodeId) : Bool :=
  g.preds id == [a, b] || g.preds id == [b, a]

/-- The two ways to tell the successors of a two-way node apart. -/
def sides (g : FlowGraph) (id : NodeId) : List (NodeId × NodeId) :=
  match g.succs id with
  | [a, b] => [(a, b), (b, a)]
  | _ => []

/-- Whether no two nodes of a list are the same. -/
def distinct : List NodeId → Bool
  | [] => true
  | id :: ids => !ids.contains id && distinct ids

/-- A node and the only node after it. -/
def seq? (g : FlowGraph) (dom : DominatorTree) (entry : NodeId) : Option Region :=
  match g.succs entry with
  | [exit] =>
    if exit != entry && comesOnlyFrom g exit entry && dom.dominates entry exit then
      some (.seq (g.label entry) (g.label exit))
    else none
  | _ => none

/-- A test in front of a body that returns to it. -/
def preLoop? (g : FlowGraph) (dom : DominatorTree) (cond : NodeId) : Option Region :=
  (sides g cond).findSome? fun (body, exit) =>
    if distinct [cond, body, exit] && comesOnlyFrom g body cond && goesOnlyTo g body cond &&
        comesOnlyFrom g exit cond && dom.dominates cond body && dom.dominates cond exit then
      some (.preLoop (g.label cond) (g.label body) (g.label exit))
    else none

/-- A node that repeats itself until it goes on. -/
def postLoop? (g : FlowGraph) (dom : DominatorTree) (cond : NodeId) : Option Region :=
  (sides g cond).findSome? fun (back, exit) =>
    if back == cond && exit != cond && comesOnlyFrom g exit cond && dom.dominates cond exit then
      some (.postLoop (g.label cond) (g.label exit))
    else none

/-- A body that is skipped or run once. -/
def ifThen? (g : FlowGraph) (dom : DominatorTree) (cond : NodeId) : Option Region :=
  (sides g cond).findSome? fun (body, exit) =>
    if distinct [cond, body, exit] && comesOnlyFrom g body cond && goesOnlyTo g body exit &&
        comesFromBoth g exit cond body && dom.dominates cond body && dom.dominates cond exit then
      some (.ifThen (g.label cond) (g.label body) (g.label exit))
    else none

/-- A body from which nothing follows. The test must not be that of a loop. -/
def ifReturn? (g : FlowGraph) (dom : DominatorTree) (cond : NodeId) : Option Region :=
  if (g.preds cond).any (dom.dominates cond) then none
  else (sides g cond).findSome? fun (body, exit) =>
    if distinct [cond, body, exit] && comesOnlyFrom g body cond && (g.succs body).isEmpty &&
        comesOnlyFrom g exit cond && dom.dominates cond body && dom.dominates cond exit then
      some (.ifReturn (g.label cond) (g.label body) (g.label exit))
    else none

/-- Two bodies of which one is run. -/
def ifElse? (g : FlowGraph) (dom : DominatorTree) (cond : NodeId) : Option Region :=
  (sides g cond).findSome? fun (bodyTrue, bodyFalse) =>
    match g.succs bodyTrue with
    | [exit] =>
      if distinct [cond, bodyTrue, bodyFalse, exit] && comesOnlyFrom g bodyTrue cond &&
          comesOnlyFrom g bodyFalse cond && goesOnlyTo g bodyFalse exit &&
          comesFromBoth g exit bodyTrue bodyFalse && dom.dominates cond bodyTrue &&
          dom.dominates cond bodyFalse && dom.dominates cond exit then
        some (.ifElse (g.label cond) (g.label bodyTrue) (g.label bodyFalse) (g.label exit))
      else none
    | _ => none

/-- A shape that may match at a node. -/
abbrev Shape := FlowGraph → DominatorTree → NodeId → Option Region

/-- All shapes, in the order in which they are looked for. -/
def shapes : List (RegionKind × Shape) :=
  [(.seq, seq?), (.preLoop, preLoop?), (.postLoop, postLoop?), (.ifThen, ifThen?),
    (.ifReturn, ifReturn?), (.ifElse, ifElse?)]

/-- All matches: at each node in turn, each shape in turn. -/
def allMatches (g : FlowGraph) (dom : DominatorTree) : List (RegionKind × NodeId × Region) :=
  g.nodeIds.flatMap fun id =>
    shapes.filterMap fun (kind, shape) => (shape g dom id).map fun region => (kind, id, region)

/-- The first match: of the first shape that matches anywhere, at the first node where it does. -/
def firstMatch? (g : FlowGraph) (dom : DominatorTree) : Option Region :=
  shapes.findSome? fun (_, shape) => g.nodeIds.findSome? fun id => shape g dom id

end ControlFlow.Hammock
