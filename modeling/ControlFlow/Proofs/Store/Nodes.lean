import ControlFlow.Proofs.Store.Removal

/-! Nodes in the tables. A node is written to every table that has something about it, and taken out of
each of them again with the edges at it. Both do to the tables what the change of the same name does to
the graph that they hold. -/
namespace ControlFlow.Store

variable {s t : Store} {g : FlowGraph}

namespace Holds

variable (holds : s.Holds g) (sound : g.Sound)
include holds sound

theorem insertNode {label : String} {attrs : AttrMap}
    (after : (g.insertNode label attrs).WellFormed) :
    (s.insertNode label attrs).Holds (g.insertNode label attrs) where
  name := holds.name
  attrs := holds.attrs
  node? id := by
    rw [FlowGraph.insertNode_node? after, Store.node?, Store.insertNode, Array.getElem?_push,
      holds.nodesSize]
    split
    · rfl
    · exact holds.node? id
  order := by
    have parted := List.pairwise_map.mp (parted_of_sorted sound.labels_sorted label)
    rw [FlowGraph.insertNode_nodeIds sound.wf, ← insertIdx_partitionPoint parted, ← holds.order,
      ← holds.label, ← holds.nodesSize]
    rfl
  find? other := by
    rw [FlowGraph.insertNode_find? after, Store.find?, Store.insertNode,
      Std.HashMap.getElem?_insert, holds.nodesSize]
    simp only [beq_iff_eq]
    split
    · rfl
    · exact holds.find? other
  entry := by
    rw [ FlowGraph.insertNode_entry? after, Store.insertNode, holds.nodesSize, holds.entry]
  outgoing := holds.outgoing.push
  incoming := holds.incoming.push
  nodesSize := (Array.size_push _).trans (congrArg (· + 1) holds.nodesSize)
  edgesSize := holds.edgesSize
  outgoingSize := (Array.size_push _).trans (congrArg (· + 1) holds.outgoingSize)
  incomingSize := (Array.size_push _).trans (congrArg (· + 1) holds.incomingSize)

theorem addNode (label : String) (attrs : AttrMap) :
    s.Mirrors (addNode label attrs) (g.addNode label attrs) := by
  have taken : s.labels.contains label = (g.find? label).isSome := by
    rw [Std.HashMap.contains_eq_isSome_getElem?]
    exact congrArg Option.isSome (holds.find? label)
  refine mirrors_of_runOn (a := s.nodes.size) (t := s.insertNode label attrs) ?_ ?_
  · rw [Store.addNode, Procedure.runOn_get_bind, taken, holds.entry, holds.label,
      FlowGraph.addNode]
    cases g.find? label with
    | some id => rfl
    | none => cases attrs.marksEntry <;> cases g.entry? <;> rfl
  · intro id h added
    have after := sound.wf.addNode added
    obtain ⟨-, -, result⟩ := FlowGraph.addNode_eq_ok_iff.mp added
    obtain ⟨rfl, rfl⟩ := Prod.mk.inj result
    exact ⟨holds.nodesSize.symm, holds.insertNode sound after⟩

theorem removeNode (id : NodeId) :
    s.Mirrors (removeNode id) (.ok ((g.node? id).map Node.stored, g.removeNode id)) := by
  cases found : g.node? id with
  | none =>
    refine ⟨s, ?_, ?_⟩
    · rw [Store.removeNode, Procedure.runOn_get_bind, holds.node?, found]
      rfl
    · rw [FlowGraph.removeNode_of_absent sound.wf found]
      exact holds
  | some n =>
    obtain ⟨member, rfl⟩ := sound.wf.node?_eq_some_iff.mp found
    refine ⟨s.eraseNode n.id n.label, ?_, holds.eraseNode sound member⟩
    rw [Store.removeNode, Procedure.runOn_get_bind, holds.node?, found]
    rfl

end Holds

end ControlFlow.Store
