import ControlFlow.Proofs.Store.Edges

/-! What the tables tell of each other. The labels lead to the live nodes, the order has them, the lists
have every edge at its two ends and are sorted, and the entry is where the mark is. Nothing is said here
of a graph: these are facts of the tables alone, and tables that hold a sound graph have them. -/
namespace ControlFlow.Store

variable {s : Store} {g : FlowGraph}

/-- How the tables hang together. -/
structure Consistent (s : Store) : Prop where
  labelsDistinct : ∀ a b m n, s.node? a = some m → s.node? b = some n → m.label = n.label → a = b
  find?_iff : ∀ label id, s.find? label = some id ↔ ∃ n, s.node? id = some n ∧ n.label = label
  mem_order_iff : ∀ id, id ∈ s.order ↔ s.contains id = true
  orderSorted : s.order.Pairwise fun a b => Text.naturalCompare (s.label a) (s.label b) = .lt
  edgesLive : ∀ i e, s.edgeAt? i = some e → s.contains e.source = true ∧ s.contains e.target = true
  edgesSingle : ∀ i j e f, s.edgeAt? i = some e → s.edgeAt? j = some f →
    e.source = f.source → e.target = f.target → i = j
  /-- An edge is listed once where it starts, and nothing else is listed there. -/
  outgoing_count : ∀ id i, (s.outgoing.listAt id).count i =
    if (s.edgeAt? i).any (·.source == id) then 1 else 0
  incoming_count : ∀ id i, (s.incoming.listAt id).count i =
    if (s.edgeAt? i).any (·.target == id) then 1 else 0
  outgoingSorted : ∀ id, (s.outgoing.listAt id).Pairwise fun i j => s.compareOutgoing i j = .lt
  incomingSorted : ∀ id, (s.incoming.listAt id).Pairwise fun i j => s.compareIncoming i j = .lt
  /-- Every place of the arena has its two lists, also after its node is gone. -/
  outgoingSize : s.outgoing.size = s.nodes.size
  incomingSize : s.incoming.size = s.nodes.size
  /-- The entry is the one node that carries the mark. -/
  entry_iff : ∀ id, s.entry = some id ↔ ∀ other,
    (∃ n, s.node? other = some n ∧ n.attrs.get? "entry" = some "true") ↔ other = id

/-! ## Tables that hold a sound graph are consistent -/

namespace HoldsSound

variable (held : s.HoldsSound g)
include held

theorem node?_eq_some_iff {id : NodeId} {stored : StoredNode} :
    s.node? id = some stored ↔ ∃ n ∈ g.nodes, n.id = id ∧ n.stored = stored := by
  rw [held.holds.node?, Option.map_eq_some_iff]
  simp only [held.sound.wf.node?_eq_some_iff, and_assoc]

theorem entry_iff (id : NodeId) : s.entry = some id ↔ ∀ other,
    (∃ n, s.node? other = some n ∧ n.attrs.get? "entry" = some "true") ↔ other = id := by
  have marked (other : NodeId) :
      (∃ n, s.node? other = some n ∧ n.attrs.get? "entry" = some "true") ↔
        g.entry? = some other := by
    rw [held.sound.wf.entry?_eq_some_iff]
    constructor
    · rintro ⟨stored, found, mark⟩
      obtain ⟨n, live, rfl, rfl⟩ := held.node?_eq_some_iff.mp found
      exact ⟨n, live, FlowGraph.isEntry_iff.mpr mark, rfl⟩
    · rintro ⟨n, live, mark, rfl⟩
      exact ⟨n.stored, held.node?_eq_some_iff.mpr ⟨n, live, rfl, rfl⟩,
        FlowGraph.isEntry_iff.mp mark⟩
  simp only [marked, held.holds.entry]
  constructor
  · intro entered other
    rw [entered, Option.some.injEq, eq_comm]
  · intro only
    exact (only id).mpr rfl

theorem contains_iff {id : NodeId} : s.contains id = true ↔ id ∈ g.nodeIds := by
  rw [held.holds.contains, FlowGraph.contains_iff]

theorem edge_live {i : EdgeId} {e : Edge} (found : s.edgeAt? i = some e) :
    e.source ∈ g.nodeIds ∧ e.target ∈ g.nodeIds :=
  held.sound.wf.edgesLive e (held.holds.outgoing.mem_edges_iff.mpr ⟨i, found⟩)

theorem outgoing_sorted (id : NodeId) :
    (s.outgoing.listAt id).Pairwise fun i j => s.compareOutgoing i j = .lt := by
  have lists := held.holds.outgoing
  have sorted := lists.pairwise_listAt (held.sound.ordered.outEdges id)
  refine sorted.imp_of_mem fun {i j} left right less => ?_
  obtain ⟨e, -, here, -⟩ := lists.live left
  obtain ⟨f, -, there, -⟩ := lists.live right
  simp only [compareOutgoing, here, there, held.holds.label]
  exact less e f here there

theorem incoming_sorted (id : NodeId) :
    (s.incoming.listAt id).Pairwise fun i j => s.compareIncoming i j = .lt := by
  have lists := held.holds.incoming
  have sorted := lists.pairwise_listAt (held.sound.ordered.inEdges held.sound.wf id)
  refine sorted.imp_of_mem fun {i j} left right less => ?_
  obtain ⟨e, -, here, -⟩ := lists.live left
  obtain ⟨f, -, there, -⟩ := lists.live right
  simp only [compareIncoming, here, there, held.holds.label]
  exact less e f here there

theorem consistent : s.Consistent where
  labelsDistinct a b m n left right same := by
    obtain ⟨m, here, rfl, rfl⟩ := held.node?_eq_some_iff.mp left
    obtain ⟨n, there, rfl, rfl⟩ := held.node?_eq_some_iff.mp right
    exact congrArg Node.id (List.inj_on_of_nodup_map held.sound.wf.labelsNodup here there same)
  find?_iff label id := by
    rw [held.holds.find?, held.sound.wf.find?_eq_some_iff]
    constructor
    · rintro ⟨n, live, labelled, atId⟩
      exact ⟨n.stored, held.node?_eq_some_iff.mpr ⟨n, live, atId, rfl⟩, labelled⟩
    · rintro ⟨stored, found, labelled⟩
      obtain ⟨n, live, atId, rfl⟩ := held.node?_eq_some_iff.mp found
      exact ⟨n, live, labelled, atId⟩
  mem_order_iff id := by rw [held.holds.order, held.contains_iff]
  orderSorted := by
    rw [held.holds.order, held.holds.label]
    exact List.pairwise_map.mp held.sound.labels_sorted
  edgesLive i e found := by
    rw [held.contains_iff, held.contains_iff]
    exact held.edge_live found
  edgesSingle i j e f left right source target :=
    held.holds.eq_of_ends held.sound right left source target
  outgoing_count := held.holds.outgoing.count_listAt held.sound.wf.edges_nodup
  incoming_count := held.holds.incoming.count_listAt held.sound.wf.edges_nodup
  outgoingSorted := held.outgoing_sorted
  incomingSorted := held.incoming_sorted
  outgoingSize := held.holds.outgoingSize.trans held.holds.nodesSize.symm
  incomingSize := held.holds.incomingSize.trans held.holds.nodesSize.symm
  entry_iff := held.entry_iff

end HoldsSound

end ControlFlow.Store
