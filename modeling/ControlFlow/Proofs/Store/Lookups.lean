import ControlFlow.Proofs.Graph.Ordered
import ControlFlow.Proofs.Store.Insertion

/-! What a graph answers once a node has been added to it or removed from it. The node itself is found
or not found any more; every other question is answered as before. -/
namespace ControlFlow

namespace FlowGraph

variable {g : FlowGraph} {label : String} {attrs : AttrMap}

/-! ## Look-ups in a graph with one more node -/

theorem insertNode_node? (after : (g.insertNode label attrs).WellFormed) (id : NodeId) :
    (g.insertNode label attrs).node? id =
      if id = g.nextNode then some (g.newNode label attrs) else g.node? id := by
  split
  · next same => exact after.node?_eq_some_iff.mpr ⟨mem_insertNode.mpr (.inl rfl), same.symm⟩
  · next other =>
    exact find?_insertBefore_of_skipped (by simpa using Ne.symm other) _

theorem insertNode_find? (after : (g.insertNode label attrs).WellFormed) (other : String) :
    (g.insertNode label attrs).find? other =
      if label = other then some g.nextNode else g.find? other := by
  split
  · next same =>
    exact after.find?_eq_some_iff.mpr ⟨_, mem_insertNode.mpr (.inl rfl), same, rfl⟩
  · next different =>
    exact congrArg (Option.map Node.id)
      (find?_insertBefore_of_skipped (by simpa using different) _)

theorem insertNode_entry? (after : (g.insertNode label attrs).WellFormed) :
    FlowGraph.entry? (g.insertNode label attrs) =
      if attrs.marksEntry then some g.nextNode else g.entry? := by
  split
  · next marked =>
    exact after.entry?_eq_some_iff.mpr ⟨_, mem_insertNode.mpr (.inl rfl), marked, rfl⟩
  · next plain =>
    exact congrArg (Option.map Node.id)
      (find?_insertBefore_of_skipped (Bool.not_eq_true _ ▸ plain) _)

theorem insertNode_nodeIds (wf : g.WellFormed) :
    (g.insertNode label attrs).nodeIds =
      insertBefore (fun id => Text.naturalCompare (g.label id) label == .lt) g.nextNode
        g.nodeIds :=
  map_insertBefore (fun n member => by rw [wf.label_node member]) (g.newNode label attrs)

/-! ## Look-ups in a graph with one node less -/

theorem removeNode_node?_self (id : NodeId) : (g.removeNode id).node? id = none := by
  have gone : id ∉ (g.removeNode id).nodeIds := fun live =>
    (mem_removeNode_nodeIds.mp live).2 rfl
  rw [← contains_iff, contains, Bool.not_eq_true, Option.isSome_eq_false_iff,
    Option.isNone_iff_eq_none] at gone
  exact gone

/-- There is nothing to be removed at a number that is not live. -/
theorem removeNode_of_absent (wf : g.WellFormed) {id : NodeId} (absent : g.node? id = none) :
    g.removeNode id = g := by
  have other (n : Node) (member : n ∈ g.nodes) : n.id ≠ id := by
    rintro rfl
    rw [wf.node?_eq_some_iff.mpr ⟨member, rfl⟩] at absent
    cases absent
  have nodes : g.nodes.filter (·.id != id) = g.nodes :=
    List.filter_eq_self.mpr fun n member => bne_iff_ne.mpr (other n member)
  have edges : g.edges.filter (fun e => e.source != id && e.target != id) = g.edges := by
    refine List.filter_eq_self.mpr fun e member => ?_
    obtain ⟨source, target⟩ := wf.edgesLive e member
    obtain ⟨m, sourceMember, atSource⟩ := mem_nodeIds.mp source
    obtain ⟨n, targetMember, atTarget⟩ := mem_nodeIds.mp target
    rw [← atSource, ← atTarget]
    simp [other m sourceMember, other n targetMember]
  rw [removeNode, nodes, edges]

theorem removeNode_nodeIds (id : NodeId) :
    (g.removeNode id).nodeIds = g.nodeIds.filter (· != id) := by
  rw [nodeIds, nodeIds, List.filter_map]
  rfl

theorem removeNode_find? (wf : g.WellFormed) {n : Node} (member : n ∈ g.nodes) (label : String) :
    (g.removeNode n.id).find? label = if n.label = label then none else g.find? label := by
  split
  · next same =>
    refine find?_eq_none_iff.mpr fun m kept other => ?_
    obtain ⟨listed, different⟩ := List.mem_filter.mp kept
    have unique := List.inj_on_of_nodup_map wf.labelsNodup listed member (other.trans same.symm)
    simp [unique] at different
  · next different =>
    refine congrArg (Option.map Node.id) ?_
    rw [removeNode, List.find?_filter]
    refine List.find?_congr fun m listed => ?_
    by_cases other : m.label = label
    · have kept : m.id ≠ n.id := fun same => different
        (List.inj_on_of_nodup_map wf.idsNodup listed member same ▸ other)
      simp [other, kept]
    · simp [other]

theorem removeNode_entry? (wf : g.WellFormed) (id : NodeId) :
    FlowGraph.entry? (g.removeNode id) = if g.entry? == some id then none else g.entry? := by
  cases entered : g.entry? with
  | none =>
    exact entry?_eq_none_iff.mpr fun m kept =>
      entry?_eq_none_iff.mp entered m (List.mem_of_mem_filter kept)
  | some entry =>
    split
    · next same =>
      obtain rfl : entry = id := by simpa using same
      refine entry?_eq_none_iff.mpr fun m kept => ?_
      obtain ⟨listed, different⟩ := List.mem_filter.mp kept
      refine Bool.eq_false_iff.mpr fun marked => ?_
      have alone := wf.entry?_eq_some_iff.mpr ⟨m, listed, marked, rfl⟩
      rw [entered] at alone
      simp [Option.some.inj alone] at different
    · next different => exact wf.removeNode_entry entered (by simpa using different)

theorem removeEdge_of_absent {source target : NodeId} (absent : g.edge? source target = none) :
    g.removeEdge source target = g := by
  have edges : g.edges.filter (fun e => !(e.source == source && e.target == target)) = g.edges :=
    List.filter_eq_self.mpr fun e member => by
      simpa [-not_and, not_and_or] using List.find?_eq_none.mp absent e member
  rw [removeEdge, edges]

/-- The labels of the nodes in their order. -/
theorem Sound.labels_sorted (sound : g.Sound) :
    (g.nodeIds.map g.label).Pairwise fun a b => Text.naturalCompare a b = .lt := by
  rw [nodeIds, List.map_map, List.pairwise_map]
  refine sound.ordered.nodes.imp_of_mem fun {m n} left right less => ?_
  simp only [Function.comp_apply, sound.wf.label_node left, sound.wf.label_node right]
  exact less

end FlowGraph

end ControlFlow
