import ControlFlow.Graph.Search

/-! Depth-first search without recursion. A traversal keeps the way from its start down to where it
stands, so that a deep graph costs it a long list but no deep recursion. One look goes on by one
successor or back by one node. From the looks come the visits of a whole search and, for those who
ask for one node at a time, the next node that is met. -/
namespace ControlFlow

namespace Visit

/-- The node that a visit enters. -/
def entered? : Visit → Option NodeId
  | enter id => some id
  | leave _ => none

/-- The node that a visit leaves. -/
def left? : Visit → Option NodeId
  | enter _ => none
  | leave id => some id

end Visit

/-- A node on the way down, with those of its successors that have not been looked at. -/
structure Frame where
  node : NodeId
  ahead : List NodeId
deriving DecidableEq, Repr

/-- Where a traversal stands: the way down to it, the last node first, and the nodes that it has not
met. -/
structure Traversal where
  path : List Frame
  unmet : List NodeId
deriving DecidableEq, Repr

namespace Traversal

variable (succs : NodeId → List NodeId)

/-- Goes down to a node. -/
def enter (t : Traversal) (id : NodeId) : Traversal :=
  { path := ⟨id, succs id⟩ :: t.path, unmet := t.unmet.erase id }

/-- Looks at the next successor of the last node and goes down to it if it is unmet; goes back from
the node if no successor is left. There is nothing to look at once the start has been left. -/
def look (t : Traversal) : Option (Option Visit × Traversal) :=
  match t.path with
  | [] => none
  | ⟨node, []⟩ :: above => some (some (.leave node), { t with path := above })
  | ⟨node, next :: ahead⟩ :: above =>
    let passed := { t with path := ⟨node, ahead⟩ :: above }
    if t.unmet.contains next then some (some (.enter next), passed.enter succs next)
    else some (none, passed)

/-- What is left to look at on the way down: every successor, and every node once more. -/
def remaining (t : Traversal) : Nat :=
  t.path.foldr (fun frame rest => frame.ahead.length + 1 + rest) 0

variable {succs}

/-- A look meets a node, or it meets none and leaves less to look at. -/
theorem look_decreases {t next : Traversal} {visit? : Option Visit}
    (looked : t.look succs = some (visit?, next)) :
    next.unmet.length < t.unmet.length ∨ (∀ id, visit? ≠ some (.enter id)) ∧
      next.unmet.length = t.unmet.length ∧ next.remaining < t.remaining := by
  obtain ⟨path, unmet⟩ := t
  match path with
  | [] => cases looked
  | ⟨node, []⟩ :: above =>
    cases looked
    exact .inr ⟨nofun, rfl, by simp [remaining]⟩
  | ⟨node, id :: ahead⟩ :: above =>
    by_cases new : id ∈ unmet
    · simp only [look, List.contains_iff_mem.mpr new, if_true, Option.some.injEq,
        Prod.mk.injEq] at looked
      obtain ⟨-, rfl⟩ := looked
      have shorter := List.length_erase_of_mem new
      have more := List.length_pos_of_mem new
      exact .inl (by simp only [enter]; omega)
    · have old : unmet.contains id = false := by simpa using new
      simp only [look, old, Bool.false_eq_true, if_false, Option.some.injEq,
        Prod.mk.injEq] at looked
      obtain ⟨rfl, rfl⟩ := looked
      exact .inr ⟨nofun, rfl, by simp [remaining]⟩

variable (succs)

/-- All visits that are still to come. -/
def visits (t : Traversal) : List Visit :=
  match _looked : t.look succs with
  | none => []
  | some (visit?, next) => visit?.toList ++ visits next
termination_by (t.unmet.length, t.remaining)
decreasing_by
  rcases look_decreases _looked with fewer | ⟨-, same, less⟩
  · exact .left _ _ fewer
  · exact same ▸ .right _ less

/-- The next node that is met, and where the traversal stands then. -/
def next? (t : Traversal) : Option (NodeId × Traversal) :=
  match _looked : t.look succs with
  | none => none
  | some (some (.enter id), next) => some (id, next)
  | some (_, next) => next? next
termination_by (t.unmet.length, t.remaining)
decreasing_by
  rcases look_decreases _looked with fewer | ⟨-, same, less⟩
  · exact .left _ _ fewer
  · exact same ▸ .right _ less

variable {succs} in
theorem next?_decreases {t next : Traversal} {id : NodeId}
    (found : t.next? succs = some (id, next)) : next.unmet.length < t.unmet.length := by
  fun_induction next? succs t with
  | case1 => cases found
  | case2 t met after looked =>
    cases found
    rcases look_decreases looked with fewer | ⟨none, -⟩
    · exact fewer
    · exact absurd rfl (none id)
  | case3 t after visit? other looked ih =>
    have fewer := ih found
    rcases look_decreases looked with less | ⟨-, same, -⟩
    · exact Nat.lt_trans fewer less
    · exact same ▸ fewer

/-- The nodes that are still to be met, asked for one at a time. -/
def upcoming (t : Traversal) : List NodeId :=
  match _found : t.next? succs with
  | none => []
  | some (id, next) => id :: upcoming next
termination_by t.unmet.length
decreasing_by exact next?_decreases _found

end Traversal

namespace FlowGraph

/-- The traversal that has met its start alone, unless that is not in the graph. -/
def traversal? (g : FlowGraph) (start : NodeId) : Option Traversal :=
  if g.contains start then some (.enter g.succs ⟨[], g.nodeIds⟩ start) else none

/-- The visits of a depth-first search. -/
def depthFirst (g : FlowGraph) (start : NodeId) : List Visit :=
  match g.traversal? start with
  | some t => .enter start :: t.visits g.succs
  | none => []

/-- The nodes in the order in which a depth-first search meets them, asked for one at a time. -/
def preorder (g : FlowGraph) (start : NodeId) : List NodeId :=
  match g.traversal? start with
  | some t => start :: t.upcoming g.succs
  | none => []

/-- The nodes in the order in which a depth-first search leaves them. -/
def postorder (g : FlowGraph) (start : NodeId) : List NodeId :=
  (g.depthFirst start).filterMap Visit.left?

/-- Nodes before their successors, edges that close a cycle apart. -/
def reversePostorder (g : FlowGraph) (start : NodeId) : List NodeId := (g.postorder start).reverse

end FlowGraph

end ControlFlow
