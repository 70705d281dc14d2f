import ControlFlow.Procedure
import ControlFlow.Proofs.Graph.Ordered
import ControlFlow.Proofs.Store.Adjacency

/-! What tables have to do with a graph. Tables hold a graph when every one of them tells what it is to
tell: the arenas have the live nodes and edges under their numbers, the adjacency lists have the edges at
each node in the order in which the graph lists them, and the order, the labels and the entry are those
of the graph. All that can be asked of such tables has the answer of the graph. -/
namespace ControlFlow

/-- A node as it lies in the arena. -/
def Node.stored (n : Node) : StoredNode where
  label := n.label
  attrs := n.attrs
  notes := n.notes

namespace Store

/-- An emptied place of an arena has nothing, and no other place has changed. -/
theorem joined_set_none {α : Type} (arena : Array (Option α)) (i j : Nat) :
    ((arena.setIfInBounds i none)[j]?).join = if j = i then none else (arena[j]?).join := by
  rw [Array.getElem?_setIfInBounds]
  simp only [eq_comm (a := i)]
  split
  · split <;> rfl
  · rfl

/-- Tables hold a graph. -/
structure Holds (s : Store) (g : FlowGraph) : Prop where
  name : s.name = g.name
  attrs : s.attrs = g.attrs
  node? : ∀ id, s.node? id = (g.node? id).map Node.stored
  order : s.order = g.nodeIds
  find? : ∀ label, s.find? label = g.find? label
  entry : s.entry = g.entry?
  outgoing : s.outgoing.Lists s.edgeAt? Edge.source g.edges
  incoming : s.incoming.Lists s.edgeAt? Edge.target g.edges
  nodesSize : s.nodes.size = g.nextNode
  edgesSize : s.edges.size = g.nextEdge
  outgoingSize : s.outgoing.size = g.nextNode
  incomingSize : s.incoming.size = g.nextNode

theorem holds_empty (name : String) : (empty name).Holds (.empty name) where
  name := rfl
  attrs := rfl
  node? _ := rfl
  order := rfl
  find? _ := Std.HashMap.getElem?_empty
  entry := rfl
  outgoing := ⟨fun _ => rfl, nofun⟩
  incoming := ⟨fun _ => rfl, nofun⟩
  nodesSize := rfl
  edgesSize := rfl
  outgoingSize := rfl
  incomingSize := rfl

namespace Holds

variable {s : Store} {g : FlowGraph} (holds : s.Holds g)
include holds

theorem contains (id : NodeId) : s.contains id = g.contains id := by
  rw [Store.contains, FlowGraph.contains, holds.node?, Option.isSome_map]

theorem label : s.label = g.label := by
  funext id
  rw [Store.label, FlowGraph.label, holds.node?, Option.map_map]
  rfl

theorem outEdges : s.outEdges = g.outEdges :=
  funext holds.outgoing.filterMap_listAt

theorem inEdges : s.inEdges = g.inEdges :=
  funext holds.incoming.filterMap_listAt

theorem succs : s.succs = g.succs := by
  funext id
  rw [Store.succs, holds.outEdges, FlowGraph.succs]

/-- The number found for two ends is that of the edge between them. -/
theorem edgeId? (source target : NodeId) :
    (s.edgeId? source target).map s.edgeAt? = (g.edge? source target).map some := by
  rw [Store.edgeId?, holds.outgoing.find?_listAt, FlowGraph.edge?, List.find?_filter]
  simp only [Bool.decide_and, Bool.decide_eq_true]

end Holds

/-- Tables hold a graph that hangs together. -/
structure HoldsSound (s : Store) (g : FlowGraph) : Prop where
  holds : s.Holds g
  sound : g.Sound

/-! ## What procedures do to tables -/

/-- On tables a procedure comes to what is come to on a graph, and leaves tables that hold the graph that
is left there. Where there is an error it fails with that error and has changed nothing. -/
def Mirrors (s : Store) (procedure : Procedure Store α) : Except GraphError (α × FlowGraph) → Prop
  | .ok (a, h) => ∃ t, procedure.runOn s = (.ok a, t) ∧ t.Holds h
  | .error error => procedure.runOn s = (.error error, s)

/-- A procedure that either fails at once or writes down one change. -/
theorem mirrors_of_runOn {s t : Store} {procedure : Procedure Store α} {a : α}
    {outcome : Except GraphError (α × FlowGraph)}
    (ran : procedure.runOn s = match outcome with
      | .ok _ => (.ok a, t)
      | .error error => (.error error, s))
    (done : ∀ b h, outcome = .ok (b, h) → b = a ∧ t.Holds h) : s.Mirrors procedure outcome := by
  cases outcome with
  | error error => exact ran
  | ok result =>
    obtain ⟨rfl, holds⟩ := done _ _ rfl
    exact ⟨t, ran, holds⟩

theorem Mirrors.of_runOn {s : Store} {procedure other : Procedure Store α}
    {outcome : Except GraphError (α × FlowGraph)} (mirrors : s.Mirrors other outcome)
    (same : procedure.runOn s = other.runOn s) : s.Mirrors procedure outcome := by
  cases outcome with
  | error error => exact same.trans mirrors
  | ok result =>
    obtain ⟨t, ran, holds⟩ := mirrors
    exact ⟨t, same.trans ran, holds⟩

theorem Mirrors.map {s : Store} {procedure : Procedure Store α}
    {outcome : Except GraphError (α × FlowGraph)} (mirrors : s.Mirrors procedure outcome)
    (f : α → β) : s.Mirrors (f <$> procedure) (Prod.map f id <$> outcome) := by
  cases outcome with
  | error error =>
    show (f <$> procedure).runOn s = (.error error, s)
    rw [Procedure.runOn_map, show procedure.runOn s = _ from mirrors]
  | ok result =>
    obtain ⟨t, ran, holds⟩ := mirrors
    refine ⟨t, ?_, holds⟩
    rw [Procedure.runOn_map, ran]

end Store

end ControlFlow
