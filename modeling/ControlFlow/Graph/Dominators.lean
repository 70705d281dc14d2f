import ControlFlow.Graph.Numbering

/-! Dominators. One node dominates another if control cannot reach the other without passing
through it. Nearest dominators are found by refinement: a table holds for every node the node that
stands above it, as far as one is known, and is gone through in reverse postorder, again and again,
until nothing changes any more. Each time a node is put below the nearest node that stands above
all its predecessors. -/
namespace ControlFlow

/-- The node above each node that has a place yet. The root stands above itself. -/
structure Ascent where
  links : List (NodeId × NodeId)
deriving DecidableEq, Repr

namespace Ascent

/-- The table in which only the first node of an order has its place. -/
def start (order : List NodeId) : Ascent := ⟨order.head?.toList.map fun root => (root, root)⟩

/-- The node above a node. -/
def above? (ascent : Ascent) (id : NodeId) : Option NodeId := ascent.links.lookup id

/-- Puts a node below another one. -/
def put (ascent : Ascent) (id above : NodeId) : Ascent :=
  ⟨(id, above) :: ascent.links.filter (·.1 != id)⟩

/-- The nearest node at or above two nodes: of two different nodes the one that stands further
back goes up. Every step lowers a rank, so a bound of the sum of the ranks is never reached. -/
def meetWithin (ascent : Ascent) (rank : NodeId → Nat) : Nat → NodeId → NodeId → Option NodeId
  | 0, a, b => if a == b then some a else none
  | bound + 1, a, b =>
    if a == b then some a
    else if rank b < rank a then (ascent.above? a).bind fun up => ascent.meetWithin rank bound up b
    else (ascent.above? b).bind fun up => ascent.meetWithin rank bound a up

/-- The nearest node at or above one found so far and one more node, if that has a place yet. -/
def nearer? (ascent : Ascent) (rank : NodeId → Nat) (nearest : Option NodeId) (id : NodeId) :
    Option NodeId :=
  if (ascent.above? id).isNone then nearest
  else match nearest with
    | none => some id
    | some other => ascent.meetWithin rank (rank id + rank other) id other

/-- The nearest node at or above all nodes of a list that have a place yet. -/
def nearest? (ascent : Ascent) (rank : NodeId → Nat) (ids : List NodeId) : Option NodeId :=
  ids.foldl (ascent.nearer? rank) none

/-- Puts a node below the nearest node above its predecessors. -/
def refine (g : FlowGraph) (rank : NodeId → Nat) (ascent : Ascent) (id : NodeId) : Ascent :=
  match ascent.nearest? rank (g.preds id) with
  | some above => if ascent.above? id == some above then ascent else ascent.put id above
  | none => ascent

/-- Refines the places of all nodes of an order but the first, which is the root. -/
def sweep (g : FlowGraph) (numbering : Numbering) (ascent : Ascent) : Ascent :=
  numbering.reversePostorder.tail.foldl (refine g numbering.rank) ascent

/-- Sweeps until nothing changes. The table is settled after as many sweeps as there are nodes, so
a bound of one more is never reached. -/
def settle (g : FlowGraph) (numbering : Numbering) : Nat → Ascent → Ascent
  | 0, ascent => ascent
  | bound + 1, ascent =>
    let swept := sweep g numbering ascent
    if swept == ascent then ascent else settle g numbering bound swept

/-- Writes down the depth of a node, one more than that of the node above it. A node without a depth
yet counts as the root. -/
def addDepth (ascent : Ascent) (depths : List (NodeId × Nat)) (id : NodeId) :
    List (NodeId × Nat) :=
  match ascent.above? id with
  | some above => (id, (depths.lookup above).getD 0 + 1) :: depths
  | none => depths

/-- The depths of all nodes of an order but the first, which is the root. In reverse postorder a node
comes behind the node above it, whose depth is therefore known. -/
def depths (ascent : Ascent) (order : List NodeId) : List (NodeId × Nat) :=
  order.tail.foldl ascent.addDepth []

end Ascent

/-- The dominators of all nodes that can be reached from a root. -/
structure DominatorTree where
  root : NodeId
  /-- The nearest dominator of each reachable node, in the order of the graph's nodes. The root has
  itself. -/
  parents : List (NodeId × NodeId)
  /-- How many steps up it is to the root from each reachable node that is not the root. -/
  depths : List (NodeId × Nat)
deriving DecidableEq, Repr

namespace FlowGraph

/-- The settled table of the nodes that can be reached from a root. -/
def ascentFrom (g : FlowGraph) (root : NodeId) : Ascent :=
  let numbering := g.numbering root
  Ascent.settle g numbering (numbering.count + 1) (.start numbering.reversePostorder)

/-- The dominators with respect to a root. -/
def dominatorsFrom (g : FlowGraph) (root : NodeId) : DominatorTree :=
  let ascent := g.ascentFrom root
  { root
    parents := g.nodeIds.filterMap fun id => (ascent.above? id).map fun above => (id, above)
    depths := ascent.depths (g.numbering root).reversePostorder }

/-- The dominators with the entry as the root. -/
def dominators (g : FlowGraph) : Except GraphError DominatorTree := do
  pure (g.dominatorsFrom (← g.entry))

end FlowGraph

namespace DominatorTree

def isReachable (tree : DominatorTree) (id : NodeId) : Bool := (tree.parents.lookup id).isSome

/-- The nearest dominator of a node other than the node itself. -/
def immediate? (tree : DominatorTree) (id : NodeId) : Option NodeId :=
  if id == tree.root then none else tree.parents.lookup id

/-- The number of nodes in the tree. -/
def size (tree : DominatorTree) : Nat := tree.parents.length

/-- Goes up from a node, at most `bound` nodes far. -/
def climb (tree : DominatorTree) : Nat → NodeId → List NodeId
  | 0, _ => []
  | bound + 1, id =>
    id :: match tree.immediate? id with
      | some above => tree.climb bound above
      | none => []

/-- The dominators of a node, from the node itself up to the root; none if it is out of reach. No
chain is longer than the tree has nodes. -/
def chain (tree : DominatorTree) (id : NodeId) : List NodeId :=
  if tree.isReachable id then tree.climb tree.size id else []

/-- The depth of a reachable node, zero for any other one. -/
def level (tree : DominatorTree) (id : NodeId) : Nat := (tree.depths.lookup id).getD 0

/-- The number of dominators of a reachable node other than the node itself. -/
def depth? (tree : DominatorTree) (id : NodeId) : Option Nat :=
  if tree.isReachable id then some (tree.level id) else none

/-- Goes up from a node until it is no deeper than `level`, in fewer than `bound` steps. -/
def lift (tree : DominatorTree) (level : Nat) : Nat → NodeId → Option NodeId
  | 0, _ => none
  | bound + 1, id =>
    if level < tree.level id then (tree.immediate? id).bind (tree.lift level bound) else some id

/-- Whether `a` dominates `b`: going up from `b` to the depth of `a` leads to `a`. A reachable node
dominates itself. -/
def dominates (tree : DominatorTree) (a b : NodeId) : Bool :=
  tree.isReachable a && tree.isReachable b && tree.lift (tree.level a) tree.size b == some a

def strictlyDominates (tree : DominatorTree) (a b : NodeId) : Bool :=
  a != b && tree.dominates a b

/-- The nodes of which a node is the nearest dominator, in the order of the graph's nodes. -/
def children (tree : DominatorTree) (id : NodeId) : List NodeId :=
  (tree.parents.filter fun (n, above) => n != tree.root && above == id).map Prod.fst

/-- Goes up from several nodes together until they coincide, in fewer than `bound` steps. -/
def gather (tree : DominatorTree) : Nat → List NodeId → Option NodeId
  | 0, _ => none
  | _, [] => none
  | bound + 1, first :: rest =>
    if rest.all (· == first) then some first
    else ((first :: rest).mapM tree.immediate?).bind (tree.gather bound)

/-- The nearest node that dominates all of some nodes. They are brought to the smallest depth among
them and then go up together. No way up has as many steps as the tree has nodes, so that only nodes
out of reach and an empty list are left without an answer. -/
def common? (tree : DominatorTree) (ids : List NodeId) : Option NodeId :=
  if ids.all tree.isReachable then
    let level := ((ids.map tree.level).min?).getD 0
    (ids.mapM (tree.lift level tree.size)).bind (tree.gather tree.size)
  else none

end DominatorTree

end ControlFlow
