import ControlFlow.Proofs.AttrMap
import ControlFlow.Proofs.Graph.Annotations
import ControlFlow.Proofs.Graph.Construction
import ControlFlow.Proofs.Text.NaturalOrder

/-! The order in which a graph lists its nodes and edges. Nodes are listed strictly in the natural
order of their labels, and edges strictly by their sources, then by their branches, then by their
targets. A change that can be made keeps this order together with the representation invariant. -/
namespace ControlFlow.FlowGraph

/-- The order in which a graph lists its nodes. -/
def compareNodes (m n : Node) : Ordering := Text.naturalCompare m.label n.label

/-- Nodes and edges are listed in their orders, and no two of them at one place. -/
structure Ordered (g : FlowGraph) : Prop where
  nodes : g.nodes.Pairwise fun m n => compareNodes m n = .lt
  edges : g.edges.Pairwise fun e f => g.compareEdges e f = .lt

variable {g h : FlowGraph}

/-! ## Strict orders -/

/-- Lists in one strict order are the same if they have the same elements. -/
theorem eq_of_sorted {α : Type} {compare : α → α → Ordering} [Std.OrientedCmp compare]
    {items others : List α} (sorted : items.Pairwise fun a b => compare a b = .lt)
    (sorted' : others.Pairwise fun a b => compare a b = .lt)
    (same : ∀ a, a ∈ items ↔ a ∈ others) : items = others := by
  have antisymm : Std.Antisymm fun a b => compare a b = .lt :=
    ⟨fun _ _ less greater => absurd greater (Std.OrientedCmp.not_lt_of_lt less)⟩
  have irrefl : Std.Irrefl fun a b => compare a b = .lt :=
    ⟨fun _ less => Std.OrientedCmp.not_lt_of_lt less less⟩
  exact sorted.eq_of_mem_iff sorted' same

/-- What is put before the first element that is not less stands at its place in a strict order. -/
theorem pairwise_insertBefore {α : Type} {compare : α → α → Ordering} [Std.TransCmp compare]
    {new : α} {items : List α} (sorted : items.Pairwise fun a b => compare a b = .lt)
    (other : ∀ a ∈ items, compare a new ≠ .eq) :
    (insertBefore (fun a => compare a new == .lt) new items).Pairwise
      fun a b => compare a b = .lt := by
  induction items with
  | nil => exact List.pairwise_singleton _ _
  | cons a rest ih =>
    obtain ⟨first, sorted⟩ := List.pairwise_cons.mp sorted
    obtain ⟨otherFirst, other⟩ := List.forall_mem_cons.mp other
    simp only [insertBefore, beq_iff_eq]
    split
    · next less =>
      refine List.pairwise_cons.mpr ⟨fun b member => ?_, ih sorted other⟩
      rcases List.mem_cons.mp ((insertBefore_perm _ _ _).mem_iff.mp member) with rfl | old
      · exact less
      · exact first b old
    · next notLess =>
      have above : compare new a = .lt := by
        refine Std.OrientedCmp.gt_iff_lt.mp ?_
        cases relation : compare a new with
        | lt => exact absurd relation notLess
        | eq => exact absurd relation otherFirst
        | gt => rfl
      refine List.pairwise_cons.mpr ⟨fun b member => ?_, List.pairwise_cons.mpr ⟨first, sorted⟩⟩
      rcases List.mem_cons.mp member with rfl | old
      · exact above
      · exact Std.TransCmp.lt_trans above (first b old)

instance : Std.TransCmp compareNodes :=
  inferInstanceAs (Std.TransCmp (Ordering.byKey Node.label Text.naturalCompare))

instance : Std.TransCmp g.compareEdges := by
  have keyed : g.compareEdges =
      compareLex (Ordering.byKey (fun e => g.label e.source) Text.naturalCompare)
        (compareLex (Ordering.byKey Edge.branch Branch.compare)
          (Ordering.byKey (fun e => g.label e.target) Text.naturalCompare)) := by
    funext e f
    simp only [compareEdges, compareLex, Ordering.byKey]
  rw [keyed]
  infer_instance

theorem compareEdges_eq_eq {e f : Edge} (same : g.compareEdges e f = .eq) :
    g.label e.source = g.label f.source ∧ g.label e.target = g.label f.target := by
  simp only [compareEdges, Ordering.then_eq_eq, Std.LawfulEqCmp.compare_eq_iff_eq] at same
  exact ⟨same.1, same.2.2⟩

/-- Edges between live nodes stand at one place only if they have the same ends. -/
theorem WellFormed.ends_of_compareEdges (wf : g.WellFormed) {e f : Edge}
    (left : e.source ∈ g.nodeIds ∧ e.target ∈ g.nodeIds)
    (right : f.source ∈ g.nodeIds ∧ f.target ∈ g.nodeIds) (same : g.compareEdges e f = .eq) :
    e.ends = f.ends := by
  obtain ⟨source, target⟩ := compareEdges_eq_eq same
  exact Prod.ext (wf.label_inj left.1 right.1 source) (wf.label_inj left.2 right.2 target)

theorem compareEdges_congr {e f : Edge}
    (left : h.label e.source = g.label e.source ∧ h.label e.target = g.label e.target)
    (right : h.label f.source = g.label f.source ∧ h.label f.target = g.label f.target) :
    h.compareEdges e f = g.compareEdges e f := by
  simp only [compareEdges, left, right]

/-! ## The edges of one node -/

/-- Among edges that leave one node, branches and targets decide. -/
theorem compareEdges_of_source {e f : Edge} (same : e.source = f.source) :
    g.compareEdges e f = (e.branch.compare f.branch).then
      (Text.naturalCompare (g.label e.target) (g.label f.target)) := by
  have equal : Text.naturalCompare (g.label f.source) (g.label f.source) = .eq :=
    Std.ReflCmp.compare_self
  rw [compareEdges, same, equal, Ordering.then]

/-- Among edges that come from different nodes, these decide. -/
theorem WellFormed.compareEdges_of_sources (wf : g.WellFormed) {e f : Edge}
    (left : e.source ∈ g.nodeIds) (right : f.source ∈ g.nodeIds) (different : e.source ≠ f.source) :
    g.compareEdges e f = Text.naturalCompare (g.label e.source) (g.label f.source) := by
  have unequal : Text.naturalCompare (g.label e.source) (g.label f.source) ≠ .eq := fun equal =>
    different (wf.label_inj left right (Std.LawfulEqCmp.eq_of_compare equal))
  rw [compareEdges]
  cases order : Text.naturalCompare (g.label e.source) (g.label f.source) with
  | eq => exact absurd order unequal
  | lt => rfl
  | gt => rfl

theorem Ordered.outEdges (ordered : g.Ordered) (id : NodeId) :
    (g.outEdges id).Pairwise fun e f => (e.branch.compare f.branch).then
      (Text.naturalCompare (g.label e.target) (g.label f.target)) = .lt := by
  refine (ordered.edges.sublist List.filter_sublist).imp_of_mem fun {e f} left right less => ?_
  have atLeft := beq_iff_eq.mp (List.mem_filter.mp left).2
  have atRight := beq_iff_eq.mp (List.mem_filter.mp right).2
  rwa [compareEdges_of_source (atLeft.trans atRight.symm)] at less

/-- Edges that enter one node come from different nodes. -/
theorem Ordered.inEdges (ordered : g.Ordered) (wf : g.WellFormed) (id : NodeId) :
    (g.inEdges id).Pairwise fun e f =>
      Text.naturalCompare (g.label e.source) (g.label f.source) = .lt := by
  have apart : (g.inEdges id).Pairwise fun e f => e.source ≠ f.source :=
    List.pairwise_map.mp (wf.preds_nodup id)
  refine ((ordered.edges.sublist List.filter_sublist).and apart).imp_of_mem
    fun {e f} left right ⟨less, different⟩ => ?_
  have leftLive := (wf.edgesLive e (List.mem_of_mem_filter left)).1
  have rightLive := (wf.edgesLive f (List.mem_of_mem_filter right)).1
  rwa [wf.compareEdges_of_sources leftLive rightLive different] at less

/-! ## The order is kept -/

namespace Ordered

theorem bare (name : String) (attrs : AttrMap) : Ordered { empty name with attrs } :=
  ⟨List.Pairwise.nil, List.Pairwise.nil⟩

/-- Edges stay in order when some are left out and their ends keep their labels. -/
theorem edges_of_sublist (ordered : g.Ordered) (fewer : h.edges.Sublist g.edges)
    (labels : ∀ e ∈ h.edges, h.label e.source = g.label e.source ∧
      h.label e.target = g.label e.target) :
    h.edges.Pairwise fun e f => h.compareEdges e f = .lt := by
  refine (ordered.edges.sublist fewer).imp_of_mem fun {e f} left right less => ?_
  rwa [compareEdges_congr (labels e left) (labels f right)]

theorem removeNode (ordered : g.Ordered) (id : NodeId) : (g.removeNode id).Ordered where
  nodes := ordered.nodes.sublist List.filter_sublist
  edges := by
    refine ordered.edges_of_sublist List.filter_sublist fun e member => ?_
    obtain ⟨-, source, target⟩ := mem_removeNode_edges.mp member
    simp only [label, removeNode_node? source, removeNode_node? target, and_self]

theorem insertNode (ordered : g.Ordered) (wf : g.WellFormed) {label : String} {attrs : AttrMap}
    (wfAfter : (g.insertNode label attrs).WellFormed) (fresh : g.find? label = none) :
    (g.insertNode label attrs).Ordered where
  nodes := by
    have other (n : Node) (member : n ∈ g.nodes) :
        compareNodes n (g.newNode label attrs) ≠ .eq := fun same =>
      find?_eq_none_iff.mp fresh n member (Std.LawfulEqCmp.eq_of_compare same)
    have placed := pairwise_insertBefore ordered.nodes other
    exact placed
  edges := by
    have kept (id : NodeId) (live : id ∈ g.nodeIds) :
        (g.insertNode label attrs).label id = g.label id := by
      obtain ⟨n, member, rfl⟩ := mem_nodeIds.mp live
      rw [wf.label_node member, wfAfter.label_node (mem_insertNode.mpr (.inr member))]
    refine ordered.edges_of_sublist (List.Sublist.refl _) fun e member => ?_
    obtain ⟨source, target⟩ := wf.edgesLive e member
    exact ⟨kept _ source, kept _ target⟩

theorem insertEdge (ordered : g.Ordered) (wf : g.WellFormed) {edge : Edge}
    (source : edge.source ∈ g.nodeIds) (target : edge.target ∈ g.nodeIds)
    (free : edge.target ∉ g.succs edge.source) : (g.insertEdge edge).Ordered where
  nodes := ordered.nodes
  edges := by
    have other (e : Edge) (member : e ∈ g.edges) : g.compareEdges e edge ≠ .eq := fun same => by
      have ends := wf.ends_of_compareEdges (wf.edgesLive e member) ⟨source, target⟩ same
      obtain ⟨sameSource, sameTarget⟩ := Prod.mk.inj ends
      exact free (mem_succs.mpr ⟨e, member, sameSource, sameTarget⟩)
    have placed := pairwise_insertBefore ordered.edges other
    exact placed

/-- The order depends on the labels and the edges alone. -/
theorem congr (ordered : g.Ordered) (nodes : h.nodes.map Node.label = g.nodes.map Node.label)
    (edges : h.edges = g.edges) (label : h.label = g.label) : h.Ordered where
  nodes := by
    have labels : (g.nodes.map Node.label).Pairwise fun a b => Text.naturalCompare a b = .lt :=
      List.pairwise_map.mpr ordered.nodes
    rw [← nodes] at labels
    exact List.pairwise_map.mp labels
  edges := ordered.edges_of_sublist (edges ▸ List.Sublist.refl _) fun e _ => by
    simp only [label, and_self]

end Ordered

/-! ## The invariant is kept as well -/

/-- What every graph that changes lead to is: well-formed and in order. -/
structure Sound (g : FlowGraph) : Prop where
  wf : g.WellFormed
  ordered : g.Ordered

private theorem key_of_mem_entry {key : String} {value : Option String} {entry : String × String}
    (written : entry ∈ Notes.findings.entry key value) : entry.1 = key := by
  simp only [Notes.findings.entry, Option.mem_toList, Option.map_eq_some_iff] at written
  obtain ⟨text, -, rfl⟩ := written
  rfl

/-- Findings are written under other keys than the entry's mark. -/
theorem isEntry_insertFindings (n : Node) : Node.isEntry { n with
    attrs := n.attrs.insertAll (n.notes.findings g.label) } = n.isEntry := by
  have missing : ∀ entry ∈ n.notes.findings g.label, entry.1 ≠ "entry" := by
    intro entry member
    simp only [Notes.findings, List.mem_append, or_assoc] at member
    rcases member with written | written | written | written | written | written <;>
      rw [key_of_mem_entry written] <;> decide
  simp only [Node.isEntry, AttrMap.marksEntry, AttrMap.get?_insertAll_of_not_mem _ missing]

/-- A node becomes the entry only if no other one is. -/
theorem setEntry_eq_ok {id : NodeId} (changed : g.setEntry id = .ok h) :
    (∀ entry, g.entry? = some entry → entry = id) ∧
      h = g.modifyNode id fun n => { n with attrs := n.attrs.insert "entry" "true" } := by
  unfold setEntry at changed
  grind

theorem nodeIds_map {change : Node → Node} (ids : ∀ n, (change n).id = n.id) :
    FlowGraph.nodeIds { g with nodes := g.nodes.map change } = g.nodeIds := by
  have same : Node.id ∘ change = Node.id := funext ids
  simp only [nodeIds, List.map_map, same]

theorem node?_map {change : Node → Node} (ids : ∀ n, (change n).id = n.id) (id : NodeId) :
    FlowGraph.node? { g with nodes := g.nodes.map change } id = (g.node? id).map change := by
  have sameKey : (fun n : Node => n.id == id) ∘ change = fun n => n.id == id :=
    funext fun n => congrArg (· == id) (ids n)
  simp only [node?, List.find?_map, sameKey]

theorem label_map {change : Node → Node} (ids : ∀ n, (change n).id = n.id)
    (labels : ∀ n, (change n).label = n.label) :
    FlowGraph.label { g with nodes := g.nodes.map change } = g.label := by
  funext id
  have sameLabels : Node.label ∘ change = Node.label := funext labels
  simp only [label, node?_map ids, Option.map_map, sameLabels]

namespace Sound

theorem addNode (sound : g.Sound) {label : String} {attrs : AttrMap} {id : NodeId}
    (added : g.addNode label attrs = .ok (id, h)) : h.Sound := by
  have wf := sound.wf.addNode added
  obtain ⟨fresh, -, result⟩ := addNode_eq_ok_iff.mp added
  cases result
  exact ⟨wf, sound.ordered.insertNode sound.wf wf fresh⟩

theorem addEdge (sound : g.Sound) {source target : NodeId} {attrs : AttrMap} {id : Nat}
    (added : g.addEdge source target attrs = .ok (id, h)) : h.Sound := by
  have wf := sound.wf.addEdge added
  obtain ⟨sourceLive, targetLive, free, result⟩ := addEdge_eq_ok_iff.mp added
  cases result
  exact ⟨wf, sound.ordered.insertEdge sound.wf sourceLive targetLive free⟩

theorem keptByAdding : KeptByAdding Sound where
  bare name attrs := ⟨keptByAdding_wellFormed.bare name attrs, .bare name attrs⟩
  addNode sound added := sound.addNode added
  addEdge sound added := sound.addEdge added

variable (sound : g.Sound)
include sound

theorem removeNode (id : NodeId) : (g.removeNode id).Sound :=
  ⟨sound.wf.removeNode id, sound.ordered.removeNode id⟩

theorem removeEdge (source target : NodeId) : (g.removeEdge source target).Sound where
  wf := {
    idsNodup := sound.wf.idsNodup
    idsBelow := sound.wf.idsBelow
    labelsNodup := sound.wf.labelsNodup
    oneEntry := sound.wf.oneEntry
    edgesLive := fun e member => sound.wf.edgesLive e (List.mem_of_mem_filter member)
    endsNodup := sound.wf.endsNodup.sublist (List.filter_sublist.map _) }
  ordered := {
    nodes := sound.ordered.nodes
    edges := sound.ordered.edges_of_sublist List.filter_sublist fun _ _ => ⟨rfl, rfl⟩ }

/-- An edge whose attribute is set is taken out and put back where it belongs. -/
theorem setEdgeAttr {source target : NodeId} {key value : String}
    (changed : g.setEdgeAttr source target key value = .ok h) : h.Sound := by
  unfold FlowGraph.setEdgeAttr at changed
  split at changed
  · cases changed
  · next edge found =>
    obtain ⟨member, rfl, rfl⟩ := sound.wf.edge?_eq_some_iff.mp found
    obtain rfl := Except.ok.inj changed
    have live := sound.wf.edgesLive edge member
    have free : edge.target ∉ (g.removeEdge edge.source edge.target).succs edge.source := by
      intro taken
      obtain ⟨other, kept, sourceSame, targetSame⟩ := mem_succs.mp taken
      have different := (List.mem_filter.mp kept).2
      simp [sourceSame, targetSame] at different
    have fewer := sound.removeEdge edge.source edge.target
    have wf : ((g.removeEdge edge.source edge.target).insertEdge
        { edge with attrs := edge.attrs.insert key value }).WellFormed :=
      fewer.wf.insertEdge live.1 live.2 free
    have ordered : ((g.removeEdge edge.source edge.target).insertEdge
        { edge with attrs := edge.attrs.insert key value }).Ordered :=
      fewer.ordered.insertEdge fewer.wf live.1 live.2 free
    exact ⟨⟨wf.idsNodup, wf.idsBelow, wf.labelsNodup, wf.oneEntry, wf.edgesLive, wf.endsNodup⟩,
      ⟨ordered.nodes, ordered.edges⟩⟩

/-- Annotations do not matter. -/
theorem of_sameCore (same : h.SameCore g) : h.Sound where
  wf := sound.wf.of_sameCore same
  ordered := by
    have labels : h.nodes.map Node.label = g.nodes.map Node.label := by
      have reset := congrArg (fun k => k.nodes.map Node.label) same
      simpa [resetAnnotations, Function.comp_def] using reset
    exact sound.ordered.congr labels same.edges same.label

/-- Nodes can be changed that keep their numbers and labels, if only one of them still marks the
entry. -/
theorem mapNodes {change : Node → Node} (ids : ∀ n, (change n).id = n.id)
    (labels : ∀ n, (change n).label = n.label)
    (oneEntry : ∀ m ∈ g.nodes, ∀ n ∈ g.nodes,
      (change m).isEntry = true → (change n).isEntry = true → m.id = n.id) :
    FlowGraph.Sound { g with nodes := g.nodes.map change } := by
  have sameLabels : Node.label ∘ change = Node.label := funext labels
  refine ⟨⟨?_, ?_, ?_, ?_, ?_, sound.wf.endsNodup⟩, sound.ordered.congr ?_ rfl ?_⟩
  · rw [nodeIds_map ids]
    exact sound.wf.idsNodup
  · rw [nodeIds_map ids]
    exact sound.wf.idsBelow
  · simpa only [List.map_map, sameLabels] using sound.wf.labelsNodup
  · intro m left n right entering entered
    obtain ⟨first, firstMember, rfl⟩ := List.mem_map.mp left
    obtain ⟨second, secondMember, rfl⟩ := List.mem_map.mp right
    rw [ids, ids]
    exact oneEntry first firstMember second secondMember entering entered
  · rw [nodeIds_map ids]
    exact sound.wf.edgesLive
  · rw [List.map_map, sameLabels]
  · exact label_map ids labels

/-- Only a node that may be the entry is made it. -/
theorem setEntry {id : NodeId} (changed : g.setEntry id = .ok h) : h.Sound := by
  obtain ⟨alone, rfl⟩ := setEntry_eq_ok changed
  have only (n : Node) (member : n ∈ g.nodes) (marked : Node.isEntry
      (if n.id == id then { n with attrs := n.attrs.insert "entry" "true" } else n) = true) :
      n.id = id := by
    by_cases same : n.id = id
    · exact same
    · simp only [beq_iff_eq, same, if_false] at marked
      exact alone n.id (sound.wf.entry?_eq_some_iff.mpr ⟨n, member, marked, rfl⟩)
  refine sound.mapNodes ?_ ?_ ?_
  · intro n
    split <;> rfl
  · intro n
    split <;> rfl
  · intro m left n right entering entered
    rw [only m left entering, only n right entered]

theorem exportAnnotations : g.exportAnnotations.Sound := by
  refine sound.mapNodes (fun _ => rfl) (fun _ => rfl) ?_
  intro m left n right entering entered
  rw [isEntry_insertFindings] at entering entered
  exact sound.wf.oneEntry m left n right entering entered

end Sound

end ControlFlow.FlowGraph
