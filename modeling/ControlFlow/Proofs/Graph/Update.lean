import ControlFlow.Proofs.Graph.WellFormed

/-! What changes of a graph do. Adding and removing say exactly which nodes and edges there are
afterwards, and both keep the representation invariant. -/
namespace ControlFlow.FlowGraph

variable {g : FlowGraph}

theorem insertBefore_perm (less : α → Bool) (new : α) (items : List α) :
    (insertBefore less new items).Perm (new :: items) := by
  induction items with
  | nil => exact .refl _
  | cons head rest ih =>
    simp only [insertBefore]
    split
    · exact (ih.cons head).trans (.swap new head rest)
    · exact .refl _

/-- What is left out of account may be put anywhere. -/
theorem filter_insertBefore {less keep : α → Bool} {new : α} (skipped : keep new = false)
    (items : List α) : (insertBefore less new items).filter keep = items.filter keep := by
  induction items with
  | nil => simp [insertBefore, skipped]
  | cons head rest ih =>
    simp only [insertBefore]
    split
    · simp only [List.filter_cons, ih]
    · simp [skipped]

/-- An element is put at one place by its own order and by that of the images. -/
theorem map_insertBefore {β : Type} {f : α → β} {less : α → Bool} {less' : β → Bool} {items : List α}
    (same : ∀ a ∈ items, less a = less' (f a)) (new : α) :
    (insertBefore less new items).map f = insertBefore less' (f new) (items.map f) := by
  induction items with
  | nil => rfl
  | cons a rest ih =>
    obtain ⟨first, others⟩ := List.forall_mem_cons.mp same
    rw [List.map_cons, insertBefore, insertBefore, ← first, ← ih others]
    split <;> rfl

/-! ## Adding nodes -/

/-- The node that is added under a label. -/
def newNode (g : FlowGraph) (label : String) (attrs : AttrMap) : Node :=
  { id := g.nextNode, label, attrs, notes := .ofAttrs attrs }

theorem insertNode_nodes (label : String) (attrs : AttrMap) :
    (g.insertNode label attrs).nodes.Perm (g.newNode label attrs :: g.nodes) :=
  insertBefore_perm _ _ _

theorem mem_insertNode {label : String} {attrs : AttrMap} {n : Node} :
    n ∈ (g.insertNode label attrs).nodes ↔ n = g.newNode label attrs ∨ n ∈ g.nodes := by
  rw [(insertNode_nodes label attrs).mem_iff, List.mem_cons]

theorem mem_insertNode_nodeIds {label : String} {attrs : AttrMap} {id : NodeId} :
    id ∈ (g.insertNode label attrs).nodeIds ↔ id = g.nextNode ∨ id ∈ g.nodeIds := by
  simp only [mem_nodeIds, mem_insertNode]
  constructor
  · rintro ⟨n, rfl | member, rfl⟩
    · exact .inl rfl
    · exact .inr ⟨n, member, rfl⟩
  · rintro (rfl | ⟨n, member, rfl⟩)
    · exact ⟨g.newNode label attrs, .inl rfl, rfl⟩
    · exact ⟨n, .inr member, rfl⟩

theorem find?_insertNode_eq_none {label other : String} {attrs : AttrMap}
    (fresh : g.find? other = none) (different : label ≠ other) :
    (g.insertNode label attrs).find? other = none := by
  apply find?_eq_none_iff.mpr
  intro n present same
  rcases mem_insertNode.mp present with rfl | old
  · exact different same
  · exact find?_eq_none_iff.mp fresh n old same

theorem entry?_insertNode_eq_none {label : String} {attrs : AttrMap}
    (unentered : g.entry? = none) (plain : attrs.marksEntry = false) :
    FlowGraph.entry? (g.insertNode label attrs) = none := by
  apply entry?_eq_none_iff.mpr
  intro n present
  rcases mem_insertNode.mp present with rfl | old
  · exact plain
  · exact entry?_eq_none_iff.mp unentered n old

/-- A node is added exactly when its label is new and it is no second entry. -/
theorem addNode_eq_ok_iff {label : String} {attrs : AttrMap} {result : NodeId × FlowGraph} :
    g.addNode label attrs = .ok result ↔
      g.find? label = none ∧ (attrs.marksEntry = true → g.entry? = none) ∧
        result = (g.nextNode, g.insertNode label attrs) := by
  unfold addNode
  cases found : g.find? label with
  | some id => simp
  | none =>
    cases marked : attrs.marksEntry with
    | false => simp [eq_comm]
    | true => cases entered : g.entry? <;> simp [eq_comm]

theorem WellFormed.insertNode (wf : g.WellFormed) {label : String} {attrs : AttrMap}
    (fresh : g.find? label = none) (single : attrs.marksEntry = true → g.entry? = none) :
    (g.insertNode label attrs).WellFormed where
  idsNodup := by
    rw [nodeIds, ((insertNode_nodes label attrs).map Node.id).nodup_iff]
    exact List.nodup_cons.mpr
      ⟨fun member => Nat.lt_irrefl _ (wf.idsBelow _ member), wf.idsNodup⟩
  idsBelow id live := by
    rcases mem_insertNode_nodeIds.mp live with rfl | live
    · exact Nat.lt_succ_self _
    · exact Nat.lt_succ_of_lt (wf.idsBelow id live)
  labelsNodup := by
    rw [((insertNode_nodes label attrs).map Node.label).nodup_iff]
    refine List.nodup_cons.mpr ⟨fun member => ?_, wf.labelsNodup⟩
    obtain ⟨n, member, same⟩ := List.mem_map.mp member
    exact find?_eq_none_iff.mp fresh n member same
  oneEntry m left n right entering entered := by
    have alone (n : Node) (member : n ∈ g.nodes) (marked : n.isEntry = true)
        (marks : (g.newNode label attrs).isEntry = true) : False := by
      have none := entry?_eq_none_iff.mp (single marks) n member
      simp [marked] at none
    rcases mem_insertNode.mp left with rfl | left <;> rcases mem_insertNode.mp right with rfl | right
    · rfl
    · exact (alone n right entered entering).elim
    · exact (alone m left entering entered).elim
    · exact wf.oneEntry m left n right entering entered
  edgesLive e member := by
    obtain ⟨source, target⟩ := wf.edgesLive e member
    exact ⟨mem_insertNode_nodeIds.mpr (.inr source), mem_insertNode_nodeIds.mpr (.inr target)⟩
  endsNodup := wf.endsNodup

/-! ## Removing nodes -/

theorem mem_removeNode_nodeIds {id other : NodeId} :
    other ∈ (g.removeNode id).nodeIds ↔ other ∈ g.nodeIds ∧ other ≠ id := by
  simp only [mem_nodeIds, removeNode, List.mem_filter, bne_iff_ne, ne_eq]
  constructor
  · rintro ⟨n, ⟨member, different⟩, rfl⟩
    exact ⟨⟨n, member, rfl⟩, different⟩
  · rintro ⟨⟨n, member, rfl⟩, different⟩
    exact ⟨n, ⟨member, different⟩, rfl⟩

theorem mem_removeNode_edges {id : NodeId} {e : Edge} :
    e ∈ (g.removeNode id).edges ↔ e ∈ g.edges ∧ e.source ≠ id ∧ e.target ≠ id := by
  simp [removeNode]

theorem mem_removeNode_succs {id a b : NodeId} :
    b ∈ (g.removeNode id).succs a ↔ b ∈ g.succs a ∧ a ≠ id ∧ b ≠ id := by
  simp only [mem_succs, mem_removeNode_edges]
  constructor
  · rintro ⟨e, ⟨member, source, target⟩, rfl, rfl⟩
    exact ⟨⟨e, member, rfl, rfl⟩, source, target⟩
  · rintro ⟨⟨e, member, rfl, rfl⟩, source, target⟩
    exact ⟨e, ⟨member, source, target⟩, rfl, rfl⟩

theorem removeNode_node? {id other : NodeId} (different : other ≠ id) :
    (g.removeNode id).node? other = g.node? other := by
  simp only [node?, removeNode, List.find?_filter]
  refine List.find?_congr fun n _ => ?_
  by_cases same : n.id = other
  · simp [same, different]
  · simp [same]

theorem removeNode_outEdges {id other : NodeId} (different : other ≠ id) :
    (g.removeNode id).outEdges other = (g.outEdges other).filter (·.target != id) := by
  simp only [outEdges, removeNode, List.filter_filter]
  refine List.filter_congr fun e _ => ?_
  by_cases same : e.source = other
  · simp [same, different]
  · have skipped : (e.source == other) = false := by simpa using same
    simp [skipped]

theorem removeNode_size_lt {id : NodeId} (live : id ∈ g.nodeIds) :
    (g.removeNode id).size < g.size := by
  obtain ⟨n, member, named⟩ := mem_nodeIds.mp live
  exact List.length_filter_lt_length_iff_exists.mpr ⟨n, member, by simp [named]⟩

theorem WellFormed.removeNode (wf : g.WellFormed) (id : NodeId) :
    (g.removeNode id).WellFormed where
  idsNodup := wf.idsNodup.sublist (List.filter_sublist.map _)
  idsBelow other live := wf.idsBelow other (mem_removeNode_nodeIds.mp live).1
  labelsNodup := wf.labelsNodup.sublist (List.filter_sublist.map _)
  oneEntry m left n right :=
    wf.oneEntry m (List.mem_of_mem_filter left) n (List.mem_of_mem_filter right)
  edgesLive e member := by
    obtain ⟨member, source, target⟩ := mem_removeNode_edges.mp member
    obtain ⟨sourceLive, targetLive⟩ := wf.edgesLive e member
    exact ⟨mem_removeNode_nodeIds.mpr ⟨sourceLive, source⟩,
      mem_removeNode_nodeIds.mpr ⟨targetLive, target⟩⟩
  endsNodup := wf.endsNodup.sublist (List.filter_sublist.map _)

theorem WellFormed.removeNode_entry (wf : g.WellFormed) {id entry : NodeId}
    (entered : g.entry? = some entry) (different : entry ≠ id) :
    FlowGraph.entry? (g.removeNode id) = some entry := by
  obtain ⟨n, member, marked, rfl⟩ := exists_of_entry_eq entered
  exact (wf.removeNode id).entry?_eq_some_iff.mpr
    ⟨n, List.mem_filter.mpr ⟨member, by simpa using different⟩, marked, rfl⟩

/-! ## Adding edges -/

theorem insertEdge_edges (edge : Edge) : (g.insertEdge edge).edges.Perm (edge :: g.edges) :=
  insertBefore_perm _ _ _

theorem mem_insertEdge_edges {edge e : Edge} :
    e ∈ (g.insertEdge edge).edges ↔ e = edge ∨ e ∈ g.edges := by
  rw [(insertEdge_edges edge).mem_iff, List.mem_cons]

theorem mem_insertEdge_succs {edge : Edge} {a b : NodeId} :
    b ∈ (g.insertEdge edge).succs a ↔
      (a = edge.source ∧ b = edge.target) ∨ b ∈ g.succs a := by
  simp only [mem_succs, mem_insertEdge_edges]
  constructor
  · rintro ⟨e, rfl | member, rfl, rfl⟩
    · exact .inl ⟨rfl, rfl⟩
    · exact .inr ⟨e, member, rfl, rfl⟩
  · rintro (⟨rfl, rfl⟩ | ⟨e, member, rfl, rfl⟩)
    · exact ⟨edge, .inl rfl, rfl, rfl⟩
    · exact ⟨e, .inr member, rfl, rfl⟩

theorem insertEdge_outEdges (edge : Edge) :
    ((g.insertEdge edge).outEdges edge.source).Perm (edge :: g.outEdges edge.source) := by
  have kept := (insertEdge_edges (g := g) edge).filter (·.source == edge.source)
  simpa [outEdges] using kept

theorem insertEdge_outEdges_of_ne {edge : Edge} {id : NodeId} (different : edge.source ≠ id) :
    (g.insertEdge edge).outEdges id = g.outEdges id :=
  filter_insertBefore (by simpa using different) _

/-- An edge is added exactly when it joins live nodes that have none in its direction. -/
theorem addEdge_eq_ok_iff {source target : NodeId} {attrs : AttrMap} {result : Nat × FlowGraph} :
    g.addEdge source target attrs = .ok result ↔
      source ∈ g.nodeIds ∧ target ∈ g.nodeIds ∧ target ∉ g.succs source ∧
        result = (g.nextEdge, g.insertEdge { source, target, attrs }) := by
  unfold addEdge
  by_cases live : source ∈ g.nodeIds ∧ target ∈ g.nodeIds
  · have dangling : (!g.contains source || !g.contains target) = false := by
      simp [contains_iff.mpr live.1, contains_iff.mpr live.2]
    by_cases taken : target ∈ g.succs source
    · simp [dangling, hasEdge_iff.mpr taken, taken]
    · have free : g.hasEdge source target = false := by
        rw [← Bool.not_eq_true, hasEdge_iff]
        exact taken
      simp [dangling, free, live, taken, eq_comm]
  · have dangling : (!g.contains source || !g.contains target) = true := by
      simp only [Bool.or_eq_true, Bool.not_eq_true', contains_eq_false_iff]
      exact not_and_or.mp live
    rw [if_pos dangling]
    constructor
    · intro failed
      cases failed
    · rintro ⟨sourceLive, targetLive, -⟩
      exact (live ⟨sourceLive, targetLive⟩).elim

theorem WellFormed.insertEdge (wf : g.WellFormed) {edge : Edge}
    (source : edge.source ∈ g.nodeIds) (target : edge.target ∈ g.nodeIds)
    (free : edge.target ∉ g.succs edge.source) : (g.insertEdge edge).WellFormed where
  idsNodup := wf.idsNodup
  idsBelow := wf.idsBelow
  labelsNodup := wf.labelsNodup
  oneEntry := wf.oneEntry
  edgesLive e member := by
    rcases mem_insertEdge_edges.mp member with rfl | member
    · exact ⟨source, target⟩
    · exact wf.edgesLive e member
  endsNodup := by
    rw [((insertEdge_edges edge).map Edge.ends).nodup_iff]
    refine List.nodup_cons.mpr ⟨fun member => free ?_, wf.endsNodup⟩
    obtain ⟨e, member, same⟩ := List.mem_map.mp member
    obtain ⟨source, target⟩ := Prod.mk.inj same
    exact mem_succs.mpr ⟨e, member, source, target⟩

end ControlFlow.FlowGraph
