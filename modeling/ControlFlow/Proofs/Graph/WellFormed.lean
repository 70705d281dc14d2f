import Mathlib
import ControlFlow.Graph.Numbering

/-! The representation invariant of flow graphs. Nodes are told apart by their numbers and by their
labels, at most one of them is the entry, every edge joins live nodes, and two nodes have at most
one edge in each direction. Every change of a graph keeps the invariant. -/
namespace ControlFlow

/-- The source and the target of an edge. -/
def Edge.ends (edge : Edge) : NodeId × NodeId := (edge.source, edge.target)

namespace FlowGraph

/-- The representation invariant. -/
structure WellFormed (g : FlowGraph) : Prop where
  idsNodup : g.nodeIds.Nodup
  /-- Numbers are handed out in increasing order. -/
  idsBelow : ∀ id ∈ g.nodeIds, id < g.nextNode
  labelsNodup : (g.nodes.map Node.label).Nodup
  oneEntry : ∀ m ∈ g.nodes, ∀ n ∈ g.nodes, m.isEntry = true → n.isEntry = true → m.id = n.id
  edgesLive : ∀ e ∈ g.edges, e.source ∈ g.nodeIds ∧ e.target ∈ g.nodeIds
  endsNodup : (g.edges.map Edge.ends).Nodup

theorem wellFormed_iff {g : FlowGraph} : g.WellFormed ↔
    g.nodeIds.Nodup ∧ (∀ id ∈ g.nodeIds, id < g.nextNode) ∧ (g.nodes.map Node.label).Nodup ∧
      (∀ m ∈ g.nodes, ∀ n ∈ g.nodes, m.isEntry = true → n.isEntry = true → m.id = n.id) ∧
      (∀ e ∈ g.edges, e.source ∈ g.nodeIds ∧ e.target ∈ g.nodeIds) ∧
      (g.edges.map Edge.ends).Nodup :=
  ⟨fun ⟨ids, below, labels, entry, edges, ends⟩ => ⟨ids, below, labels, entry, edges, ends⟩,
    fun ⟨ids, below, labels, entry, edges, ends⟩ => ⟨ids, below, labels, entry, edges, ends⟩⟩

instance (g : FlowGraph) : Decidable g.WellFormed := decidable_of_iff _ wellFormed_iff.symm

theorem wellFormed_empty (name : String) : (empty name).WellFormed where
  idsNodup := List.nodup_nil
  idsBelow := nofun
  labelsNodup := List.nodup_nil
  oneEntry := nofun
  edgesLive := nofun
  endsNodup := List.nodup_nil

/-- A search finds what alone passes its test. -/
theorem find?_of_only {items : List α} {test : α → Bool} {a : α} (listed : a ∈ items)
    (passes : test a = true) (only : ∀ b ∈ items, test b = true → b = a) :
    items.find? test = some a := by
  cases found : items.find? test with
  | none => exact absurd passes (List.find?_eq_none.mp found a listed)
  | some b => rw [only b (List.mem_of_find?_eq_some found) (List.find?_some found)]

/-- Where keys are told apart, a search for one finds the element that has it. -/
theorem find?_key [BEq β] [LawfulBEq β] {key : α → β} {items : List α}
    (nodup : (items.map key).Nodup) {a : α} {b : β} :
    items.find? (key · == b) = some a ↔ a ∈ items ∧ key a = b := by
  constructor
  · intro found
    exact ⟨List.mem_of_find?_eq_some found, by simpa using List.find?_some found⟩
  · rintro ⟨member, rfl⟩
    refine find?_of_only member (by simp) fun other listed same => ?_
    exact List.inj_on_of_nodup_map nodup listed member (by simpa using same)

/-! ## Looking nodes up -/

section

variable {g : FlowGraph}

theorem mem_nodeIds {id : NodeId} : id ∈ g.nodeIds ↔ ∃ n ∈ g.nodes, n.id = id := by
  simp [nodeIds]

theorem contains_iff {id : NodeId} : g.contains id = true ↔ id ∈ g.nodeIds := by
  simp [contains, node?, mem_nodeIds, List.find?_isSome]

theorem contains_eq_false_iff {id : NodeId} : g.contains id = false ↔ id ∉ g.nodeIds := by
  rw [← contains_iff, Bool.not_eq_true]

/-- A label that is looked up in vain is the label of no node. -/
theorem find?_eq_none_iff {label : String} :
    g.find? label = none ↔ ∀ n ∈ g.nodes, n.label ≠ label := by
  simp [find?]

theorem isEntry_iff {n : Node} : n.isEntry = true ↔ n.attrs.get? "entry" = some "true" := by
  rw [Node.isEntry, AttrMap.marksEntry, beq_iff_eq]

theorem entry?_eq_none_iff : g.entry? = none ↔ ∀ n ∈ g.nodes, n.isEntry = false := by
  unfold entry?
  simp

theorem exists_of_find? {label : String} {id : NodeId} (found : g.find? label = some id) :
    ∃ n ∈ g.nodes, n.label = label ∧ n.id = id := by
  simp only [find?, Option.map_eq_some_iff] at found
  obtain ⟨n, found, rfl⟩ := found
  exact ⟨n, List.mem_of_find?_eq_some found, by simpa using List.find?_some found, rfl⟩

theorem exists_of_entry_eq {id : NodeId} (found : g.entry? = some id) :
    ∃ n ∈ g.nodes, n.isEntry = true ∧ n.id = id := by
  simp only [Option.map_eq_some_iff, entry?] at found
  obtain ⟨n, found, rfl⟩ := found
  exact ⟨n, List.mem_of_find?_eq_some found, List.find?_some found, rfl⟩

theorem entry_live {id : NodeId} (found : g.entry? = some id) : id ∈ g.nodeIds := by
  obtain ⟨n, member, -, rfl⟩ := exists_of_entry_eq found
  exact mem_nodeIds.mpr ⟨n, member, rfl⟩

theorem size_pos_of_entry {id : NodeId} (found : g.entry? = some id) : 0 < g.size := by
  obtain ⟨n, member, -⟩ := exists_of_entry_eq found
  exact List.length_pos_of_mem member

theorem find?_live {label : String} {id : NodeId} (found : g.find? label = some id) :
    id ∈ g.nodeIds := by
  obtain ⟨n, member, -, rfl⟩ := exists_of_find? found
  exact mem_nodeIds.mpr ⟨n, member, rfl⟩

namespace WellFormed

variable (wf : g.WellFormed)
include wf

theorem node?_eq_some_iff {id : NodeId} {n : Node} :
    g.node? id = some n ↔ n ∈ g.nodes ∧ n.id = id :=
  find?_key wf.idsNodup

theorem find?_eq_some_iff {label : String} {id : NodeId} :
    g.find? label = some id ↔ ∃ n ∈ g.nodes, n.label = label ∧ n.id = id := by
  simp only [find?, Option.map_eq_some_iff, find?_key wf.labelsNodup, and_assoc]

theorem entry?_eq_some_iff {id : NodeId} :
    g.entry? = some id ↔ ∃ n ∈ g.nodes, n.isEntry = true ∧ n.id = id := by
  refine ⟨exists_of_entry_eq, ?_⟩
  rintro ⟨n, member, marked, rfl⟩
  cases found : g.entry? with
  | none => simp [entry?_eq_none_iff.mp found n member] at marked
  | some entry =>
    obtain ⟨m, live, entering, rfl⟩ := exists_of_entry_eq found
    rw [wf.oneEntry m live n member entering marked]

theorem label_node {n : Node} (member : n ∈ g.nodes) : g.label n.id = n.label := by
  simp [label, wf.node?_eq_some_iff.mpr ⟨member, rfl⟩]

/-- A live node is found by its label. -/
theorem find?_label {id : NodeId} (live : id ∈ g.nodeIds) : g.find? (g.label id) = some id := by
  obtain ⟨n, member, rfl⟩ := mem_nodeIds.mp live
  exact wf.find?_eq_some_iff.mpr ⟨n, member, (wf.label_node member).symm, rfl⟩

theorem label_of_find? {label : String} {id : NodeId} (found : g.find? label = some id) :
    g.label id = label := by
  obtain ⟨n, member, rfl, rfl⟩ := exists_of_find? found
  exact wf.label_node member

theorem label_inj {a b : NodeId} (left : a ∈ g.nodeIds) (right : b ∈ g.nodeIds)
    (same : g.label a = g.label b) : a = b := by
  have found := wf.find?_label left
  rw [same, wf.find?_label right] at found
  exact (Option.some.inj found).symm

end WellFormed

/-! ## Looking edges up -/

theorem mem_succs {a b : NodeId} : b ∈ g.succs a ↔ ∃ e ∈ g.edges, e.source = a ∧ e.target = b := by
  simp [succs, outEdges, and_assoc]

theorem mem_preds {a b : NodeId} : a ∈ g.preds b ↔ ∃ e ∈ g.edges, e.source = a ∧ e.target = b := by
  simp only [preds, inEdges, List.mem_map, List.mem_filter, beq_iff_eq]
  exact exists_congr fun e => ⟨fun ⟨⟨member, target⟩, source⟩ => ⟨member, source, target⟩,
    fun ⟨member, source, target⟩ => ⟨⟨member, target⟩, source⟩⟩

theorem mem_preds_iff_mem_succs {a b : NodeId} : a ∈ g.preds b ↔ b ∈ g.succs a :=
  mem_preds.trans mem_succs.symm

theorem hasEdge_iff {a b : NodeId} : g.hasEdge a b = true ↔ b ∈ g.succs a := by
  simp [hasEdge, edge?, mem_succs, List.find?_isSome]

namespace WellFormed

variable (wf : g.WellFormed)
include wf

theorem source_live {a b : NodeId} (edge : b ∈ g.succs a) : a ∈ g.nodeIds := by
  obtain ⟨e, member, rfl, -⟩ := mem_succs.mp edge
  exact (wf.edgesLive e member).1

theorem target_live {a b : NodeId} (edge : b ∈ g.succs a) : b ∈ g.nodeIds := by
  obtain ⟨e, member, -, rfl⟩ := mem_succs.mp edge
  exact (wf.edgesLive e member).2

theorem edge?_eq_some_iff {a b : NodeId} {e : Edge} :
    g.edge? a b = some e ↔ e ∈ g.edges ∧ e.source = a ∧ e.target = b := by
  have keyed : g.edge? a b = some e ↔ e ∈ g.edges ∧ e.ends = (a, b) :=
    find?_key (b := ⟨a, b⟩) wf.endsNodup
  rw [keyed, Edge.ends, Prod.mk.injEq]

theorem edges_nodup : g.edges.Nodup := wf.endsNodup.of_map _

theorem eq_of_ends {e f : Edge} (left : e ∈ g.edges) (right : f ∈ g.edges)
    (same : e.ends = f.ends) : e = f :=
  List.inj_on_of_nodup_map wf.endsNodup left right same

theorem succs_nodup (a : NodeId) : (g.succs a).Nodup := by
  refine (List.nodup_map_iff_inj_on ?_).mpr ?_
  · exact (wf.endsNodup.of_map _).filter _
  · intro e left f right same
    simp only [outEdges, List.mem_filter, beq_iff_eq] at left right
    exact wf.eq_of_ends left.1 right.1 (Prod.ext (left.2.trans right.2.symm) same)

theorem preds_nodup (b : NodeId) : (g.preds b).Nodup := by
  refine (List.nodup_map_iff_inj_on ?_).mpr ?_
  · exact (wf.endsNodup.of_map _).filter _
  · intro e left f right same
    simp only [inEdges, List.mem_filter, beq_iff_eq] at left right
    exact wf.eq_of_ends left.1 right.1 (Prod.ext same (left.2.trans right.2.symm))

end WellFormed

end

end FlowGraph

end ControlFlow
