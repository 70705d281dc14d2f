import ControlFlow.Proofs.Graph.Changes

/-! Merging one node. The node goes and a new one comes with its label, and with every edge that was
at it; since labels and edges say where everything is listed, nothing else changes. The attributes
come with it as well, all but one: what the node says of the entry is kept only if it is the entry
itself. -/
namespace ControlFlow

namespace FlowGraph

variable {g h : FlowGraph} {id merged a b : NodeId}

/-! ## Graphs known by their texts -/

/-- What is written of a node. -/
def nodeText (n : Node) : String × AttrMap := (n.label, n.attrs)

/-- What is written of an edge. -/
def edgeText (g : FlowGraph) (e : Edge) : String × String × AttrMap :=
  (g.label e.source, g.label e.target, e.attrs)

/-- The order of edges, told by what is written of them. -/
def compareEdgeTexts : String × String × AttrMap → String × String × AttrMap → Ordering :=
  compareLex (Ordering.byKey (·.1) Text.naturalCompare)
    (compareLex (Ordering.byKey (fun text => Branch.ofCond (text.2.2.get? "cond")) Branch.compare)
      (Ordering.byKey (·.2.1) Text.naturalCompare))

instance : Std.TransCmp compareEdgeTexts := by
  unfold compareEdgeTexts
  infer_instance

theorem WellFormed.entryLabel_eq (wf : g.WellFormed) : g.entry?.map g.label =
    ((g.nodes.map nodeText).find? (·.2.marksEntry)).map Prod.fst := by
  rw [List.find?_map, entry?, Option.map_map, Option.map_map]
  refine Option.map_congr fun n found => ?_
  exact wf.label_node (List.mem_of_find?_eq_some found)

/-- Graphs in order have the same contents if the same is written of their nodes and edges. -/
theorem contents_eq (sound : g.Sound) (sound' : h.Sound)
    (nodes : ∀ text, text ∈ h.nodes.map nodeText ↔ text ∈ g.nodes.map nodeText)
    (edges : ∀ text, text ∈ h.edges.map h.edgeText ↔ text ∈ g.edges.map g.edgeText) :
    h.contents = g.contents := by
  have nodeTexts : h.nodes.map nodeText = g.nodes.map nodeText := by
    have sorted {k : FlowGraph} (sound : k.Sound) : (k.nodes.map nodeText).Pairwise
        fun m n => Ordering.byKey Prod.fst Text.naturalCompare m n = .lt :=
      List.pairwise_map.mpr sound.ordered.nodes
    exact eq_of_sorted (sorted sound') (sorted sound) nodes
  have edgeTexts : h.edges.map h.edgeText = g.edges.map g.edgeText := by
    have sorted {k : FlowGraph} (sound : k.Sound) : (k.edges.map k.edgeText).Pairwise
        fun e f => compareEdgeTexts e f = .lt :=
      List.pairwise_map.mpr sound.ordered.edges
    exact eq_of_sorted (sorted sound') (sorted sound) edges
  have entries : h.entry?.map h.label = g.entry?.map g.label := by
    rw [sound'.wf.entryLabel_eq, sound.wf.entryLabel_eq, nodeTexts]
  exact Prod.ext nodeTexts (Prod.ext entries edgeTexts)

end FlowGraph

/-! ## What a node says of the entry -/

/-- The node without what it says of the entry, unless it is the entry. -/
def Node.unmark (n : Node) : Node :=
  if n.isEntry then n else { n with attrs := n.attrs.erase "entry" }

namespace Node

variable (n : Node)

@[simp] theorem unmark_id : n.unmark.id = n.id := by
  unfold unmark
  split <;> rfl

@[simp] theorem unmark_label : n.unmark.label = n.label := by
  unfold unmark
  split <;> rfl

@[simp] theorem unmark_isEntry : n.unmark.isEntry = n.isEntry := by
  unfold unmark
  split
  · rfl
  · next other =>
    rw [Bool.not_eq_true] at other
    rw [other, isEntry, AttrMap.marksEntry, AttrMap.get?_erase_self]
    rfl

/-- Nothing is lost where the attribute is absent or says that the node is the entry. -/
theorem unmark_attrs_eq_iff : n.unmark.attrs = n.attrs ↔
    ∀ value, n.attrs.get? "entry" = some value → value = "true" := by
  unfold unmark
  split
  · next marked =>
    have found := FlowGraph.isEntry_iff.mp marked
    simp [found]
  · next other =>
    rw [AttrMap.erase_eq_self_iff]
    refine ⟨fun missing value found => ?_, fun onlyTrue => ?_⟩
    · cases missing.symm.trans found
    · refine Option.eq_none_iff_forall_ne_some.mpr fun value found => other ?_
      exact FlowGraph.isEntry_iff.mpr (onlyTrue value found ▸ found)

end Node

namespace FlowGraph

variable {g h : FlowGraph} {id merged a b : NodeId}

/-- The graph in which a node that is not the entry says nothing of it. -/
def unmark (g : FlowGraph) (id : NodeId) : FlowGraph := g.modifyNode id Node.unmark

theorem label_unmark (id : NodeId) : (g.unmark id).label = g.label :=
  label_map (fun n => by split <;> simp) (fun n => by split <;> simp)

theorem edgeText_unmark (id : NodeId) : (g.unmark id).edgeText = g.edgeText := by
  funext e
  simp only [edgeText, label_unmark]

theorem Sound.unmark (sound : g.Sound) (id : NodeId) : (g.unmark id).Sound := by
  have kept (n : Node) : Node.isEntry (if n.id == id then n.unmark else n) = n.isEntry := by
    split <;> simp
  refine sound.mapNodes (fun n => by split <;> simp) (fun n => by split <;> simp) ?_
  intro m left n right entering entered
  rw [kept] at entering entered
  exact sound.wf.oneEntry m left n right entering entered

theorem mem_unmark_texts (wf : g.WellFormed) {n : Node} (found : g.node? id = some n)
    {text : String × AttrMap} : text ∈ (g.unmark id).nodes.map nodeText ↔
      text = nodeText n.unmark ∨ ∃ m ∈ g.nodes, m.id ≠ id ∧ text = nodeText m := by
  obtain ⟨member, rfl⟩ := wf.node?_eq_some_iff.mp found
  simp only [FlowGraph.unmark, modifyNode, List.map_map, List.mem_map, Function.comp_apply,
    beq_iff_eq]
  constructor
  · rintro ⟨m, listed, rfl⟩
    by_cases same : m.id = n.id
    · obtain rfl := List.inj_on_of_nodup_map wf.idsNodup listed member same
      exact .inl (by rw [if_pos rfl])
    · exact .inr ⟨m, listed, same, by rw [if_neg same]⟩
  · rintro (rfl | ⟨m, listed, other, rfl⟩)
    · exact ⟨n, member, by rw [if_pos rfl]⟩
    · exact ⟨m, listed, by rw [if_neg other]⟩

/-- Nothing changes exactly if the node loses nothing. -/
theorem contents_eq_unmark_iff (wf : g.WellFormed) {n : Node} (found : g.node? id = some n) :
    g.contents = (g.unmark id).contents ↔ n.unmark.attrs = n.attrs := by
  obtain ⟨member, rfl⟩ := wf.node?_eq_some_iff.mp found
  constructor
  · intro same
    have texts : g.nodes.map nodeText = (g.unmark n.id).nodes.map nodeText := congrArg Prod.fst same
    rw [FlowGraph.unmark, modifyNode, List.map_map] at texts
    have text := List.map_inj_left.mp texts n member
    rw [Function.comp_apply, if_pos (beq_self_eq_true _)] at text
    exact (congrArg Prod.snd text).symm
  · intro kept
    have unchanged : n.unmark = n := by
      unfold Node.unmark at kept ⊢
      split at kept
      · next marked => rw [if_pos marked]
      · next other =>
        rw [if_neg other]
        simp only at kept
        rw [kept]
    have whole : g.unmark n.id = g := by
      have nodes : (g.nodes.map fun m => if m.id == n.id then m.unmark else m) = g.nodes := by
        refine (List.map_congr_left fun m listed => ?_).trans (List.map_id _)
        split
        · next same =>
          rw [List.inj_on_of_nodup_map wf.idsNodup listed member (beq_iff_eq.mp same), unchanged]
          rfl
        · rfl
      rw [FlowGraph.unmark, modifyNode, nodes]
    rw [whole]

/-! ## The merge -/

theorem mergeOrder_single (id : NodeId) : g.mergeOrder id [id] = [id] := by
  simp [mergeOrder]

/-- The new node has the attributes of the old one, but for what that says of the entry. -/
theorem mergedAttrs_single (wf : g.WellFormed) {n : Node} (found : g.node? id = some n) :
    g.mergedAttrs n [id] = n.unmark.attrs := by
  obtain ⟨member, rfl⟩ := wf.node?_eq_some_iff.mp found
  have entering : g.entry?.any [n.id].contains = n.isEntry := by
    rw [Bool.eq_iff_iff, Option.any_eq_true]
    constructor
    · rintro ⟨entry, entered, inside⟩
      obtain ⟨m, listed, marked, rfl⟩ := exists_of_entry_eq entered
      have same : m.id = n.id := by simpa using inside
      rwa [List.inj_on_of_nodup_map wf.idsNodup listed member same] at marked
    · intro marked
      exact ⟨n.id, wf.entry?_eq_some_iff.mpr ⟨n, member, marked, rfl⟩, by simp⟩
  rw [mergedAttrs, entering, Node.unmark]
  split
  · next marked => exact AttrMap.insert_of_get? (isEntry_iff.mp marked)
  · rfl

/-- The number that stands for a node after another one has been merged alone. -/
def afterMerge (id merged a : NodeId) : NodeId := if a = id then merged else a

namespace Rewired

variable (rewired : g.Rewired id [id] none merged h)
include rewired

theorem label_afterMerge (live : a ∈ g.nodeIds) : h.label (afterMerge id merged a) = g.label a := by
  unfold afterMerge
  split
  · next same => rw [rewired.label, same]
  · next other =>
    rw [FlowGraph.label, rewired.outside a live (by simpa using other)]
    rfl

/-- What is live after the merge stands for what was live before. -/
theorem exists_before (headLive : id ∈ g.nodeIds) (live : b ∈ h.nodeIds) :
    ∃ a ∈ g.nodeIds, afterMerge id merged a = b := by
  rcases (rewired.nodeIds b).mp live with ⟨old, other⟩ | rfl
  · exact ⟨b, old, if_neg (by simpa using other)⟩
  · exact ⟨id, headLive, if_pos rfl⟩

/-- Every edge comes back with its attributes, a loop as a loop. -/
theorem mem_edges_iff (wf : g.WellFormed) (left : a ∈ g.nodeIds) (right : b ∈ g.nodeIds)
    {attrs : AttrMap} : ⟨afterMerge id merged a, afterMerge id merged b, attrs⟩ ∈ h.edges ↔
      ⟨a, b, attrs⟩ ∈ g.edges := by
  rw [← rewired.wf.map_edge?_eq_some_iff, ← wf.map_edge?_eq_some_iff]
  have alone := @mergeOrder_single g id
  have loop := rewired.loop
  rw [alone] at loop
  unfold afterMerge
  by_cases source : a = id <;> by_cases target : b = id
  · simpa [source, target] using congrArg (· = some attrs) loop
  · have leaving := rewired.leaving b right (by simpa using target)
    simp [source, target, leaving, alone]
  · have entering := rewired.entering a left (by simpa using source)
    simp [source, target, entering, alone]
  · rw [if_neg source, if_neg target,
      rewired.between a left b right (by simpa using source) (by simpa using target)]

end Rewired

/-- After the merge the same is written of every node and edge, but for what the node says of the
entry. -/
theorem contents_after_merge (sound : g.Sound) (live : id ∈ g.nodeIds)
    (ran : g.mergeNodes [id] none = .ok (merged, h)) (rewired : g.Rewired id [id] none merged h) :
    h.contents = (g.unmark id).contents := by
  obtain ⟨n, inserted, found, added, edges⟩ := mergeNodes_steps ran
  have named : n.unmark.label = n.label := n.unmark_label
  refine contents_eq (sound.unmark id) (sound.mergeNodes ran) (fun text => ?_) (fun text => ?_)
  · rw [mem_unmark_texts sound.wf found, List.mem_map]
    simp only [mem_merged_nodes added edges, mergeOrder_single, mergedAttrs_single sound.wf found,
      List.mem_singleton]
    constructor
    · rintro ⟨m, rfl | ⟨listed, other⟩, rfl⟩
      · exact .inl (Prod.ext named.symm rfl)
      · exact .inr ⟨m, listed, other, rfl⟩
    · rintro (rfl | ⟨m, listed, other, rfl⟩)
      · exact ⟨_, .inl rfl, Prod.ext named.symm rfl⟩
      · exact ⟨m, .inr ⟨listed, other⟩, rfl⟩
  · have unchanged : (g.unmark id).edges = g.edges := rfl
    rw [edgeText_unmark, unchanged, List.mem_map, List.mem_map]
    have text {a b : NodeId} (left : a ∈ g.nodeIds) (right : b ∈ g.nodeIds) (attrs : AttrMap) :
        h.edgeText ⟨afterMerge id merged a, afterMerge id merged b, attrs⟩ =
          g.edgeText ⟨a, b, attrs⟩ := by
      simp only [edgeText, rewired.label_afterMerge left, rewired.label_afterMerge right]
    constructor
    · rintro ⟨⟨source, target, attrs⟩, member, rfl⟩
      obtain ⟨sourceLive, targetLive⟩ := rewired.wf.edgesLive _ member
      obtain ⟨a, left, rfl⟩ := rewired.exists_before live sourceLive
      obtain ⟨b, right, rfl⟩ := rewired.exists_before live targetLive
      exact ⟨⟨a, b, attrs⟩, (rewired.mem_edges_iff sound.wf left right).mp member,
        (text left right attrs).symm⟩
    · rintro ⟨⟨a, b, attrs⟩, member, rfl⟩
      obtain ⟨left, right⟩ := sound.wf.edgesLive _ member
      exact ⟨_, (rewired.mem_edges_iff sound.wf left right).mpr member, text left right attrs⟩

/-- A single node can be merged, and the new node has its label. The graph is the same as before
except that a node which is not the entry says nothing of the entry any more: so it is the same
exactly if the node has no such attribute, or one that makes it the entry. -/
theorem mergeNodes_single (sound : g.Sound) (live : id ∈ g.nodeIds) :
    ∃ merged h, g.mergeNodes [id] none = .ok (merged, h) ∧
      (InPlace.mergeNodes [id] none).runOn g = (.ok merged, h) ∧
      h.label merged = g.label id ∧ (g.unmark id).same h = true ∧
      (g.same h = true ↔
        ∀ value, ((g.node? id).bind fun n => n.attrs.get? "entry") = some value →
          value = "true") := by
  have mergeable : g.Mergeable [id] :=
    ⟨List.cons_ne_nil _ _, List.forall_mem_singleton.mpr live, List.nodup_singleton id⟩
  obtain ⟨merged, h, ran, rewired⟩ := mergeNodes_rewired sound.wf mergeable none
  have performs : InPlace.Performs _ g _ := .mergeNodes [id] none
  rw [ran] at performs
  obtain ⟨n, member, rfl⟩ := mem_nodeIds.mp live
  have found : g.node? n.id = some n := sound.wf.node?_eq_some_iff.mpr ⟨member, rfl⟩
  have contents := contents_after_merge sound live ran rewired
  refine ⟨merged, h, ran, performs, rewired.label, ?_, ?_⟩
  · rw [same, contents, beq_self_eq_true]
  · rw [same, beq_iff_eq, contents, contents_eq_unmark_iff sound.wf found,
      Node.unmark_attrs_eq_iff, found, Option.bind_some]

/-- An entry, a node that says that it is not the entry, and a loop that keeps a mark of its own. -/
def marked : FlowGraph where
  name := "marked"
  attrs := .empty
  nodes := [⟨0, "A", .ofList [("entry", "true")], .ofAttrs .empty⟩,
    ⟨1, "B", .ofList [("entry", "no")], .ofAttrs .empty⟩,
    ⟨2, "C", .ofList [("shape", "box")], .ofAttrs .empty⟩]
  edges := [⟨0, 1, .empty⟩, ⟨1, 2, .empty⟩, ⟨2, 1, .ofList [("cond", "true")]⟩,
    ⟨2, 2, .ofList [("cond", "false")]⟩]
  nextNode := 3
  nextEdge := 4

theorem marked_loop_merges_same : marked.Sound ∧ 2 ∈ marked.nodeIds ∧
    ∃ merged h, marked.mergeNodes [2] none = .ok (merged, h) ∧ h.label merged = "C" ∧
      marked.same h = true := by
  have sound : marked.Sound := ⟨by decide, by decide, by decide⟩
  have live : 2 ∈ marked.nodeIds := by decide
  obtain ⟨merged, h, ran, -, named, -, kept⟩ := mergeNodes_single sound live
  refine ⟨sound, live, merged, h, ran, named, kept.mpr ?_⟩
  intro value found
  cases found

/-- What the second node says of the entry is lost. -/
theorem marked_block_merges_different : marked.Sound ∧ 1 ∈ marked.nodeIds ∧
    ∃ merged h, marked.mergeNodes [1] none = .ok (merged, h) ∧ h.label merged = "B" ∧
      marked.same h = false :=
  ⟨⟨by decide, by decide, by decide⟩, by decide, _, _, rfl, by rfl, by rfl⟩

end FlowGraph

end ControlFlow
