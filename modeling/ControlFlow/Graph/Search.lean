import ControlFlow.Graph.Basic

/-! Depth-first search. Its result is a forest, which holds all that an order of visits can be
asked for: the order in which nodes are met, the order in which they are left, and the two
interleaved. -/
namespace ControlFlow

/-- An ordered forest: a first tree, given by its root and the forest below it, and the trees to
the right of it. -/
inductive Forest where
  | empty
  | tree (root : NodeId) (below right : Forest)
deriving DecidableEq, Repr

/-- One step of a walk around a forest. -/
inductive Visit where
  | enter (node : NodeId)
  | leave (node : NodeId)
deriving DecidableEq, Repr

namespace Forest

/-- The nodes in the order in which they are met. -/
def preorder : Forest → List NodeId
  | empty => []
  | tree root below right => root :: (below.preorder ++ right.preorder)

/-- The nodes in the order in which they are left. -/
def postorder : Forest → List NodeId
  | empty => []
  | tree root below right => below.postorder ++ root :: right.postorder

/-- The walk around the forest, which enters and leaves every node once. -/
def visits : Forest → List Visit
  | empty => []
  | tree root below right => .enter root :: (below.visits ++ .leave root :: right.visits)

end Forest

/-- Visits the roots in turn, each only while it is available, and descends from each by
`descend`. Gives the forest and the nodes that are still available. -/
def searchRoots (succs : NodeId → List NodeId)
    (descend : List NodeId → List NodeId → Forest × List NodeId) :
    List NodeId → List NodeId → Forest × List NodeId
  | available, [] => (.empty, available)
  | available, root :: roots =>
    if available.contains root then
      let (below, available) := descend (available.erase root) (succs root)
      let (right, available) := searchRoots succs descend available roots
      (.tree root below right, available)
    else searchRoots succs descend available roots

/-- Searches to a bounded depth. A depth of the number of available nodes is always enough. -/
def searchTo (succs : NodeId → List NodeId) :
    Nat → List NodeId → List NodeId → Forest × List NodeId
  | 0, available, _ => (.empty, available)
  | depth + 1, available, roots => searchRoots succs (searchTo succs depth) available roots

/-- The depth-first forest from some roots, among the available nodes. -/
def searchFrom (succs : NodeId → List NodeId) (available roots : List NodeId) : Forest :=
  (searchTo succs available.length available roots).1

namespace FlowGraph

/-- The depth-first tree from a node. It is empty if the node is not in the graph. -/
def search (g : FlowGraph) (start : NodeId) : Forest := searchFrom g.succs g.nodeIds [start]

end FlowGraph

end ControlFlow
