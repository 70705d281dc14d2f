import ControlFlow.Proofs.Except
import ControlFlow.Proofs.Graph.WellFormed

/-! Graphs that differ only in numbers. The contents of a graph say what its nodes and edges are
called and how they are listed, but not which numbers the nodes have: graphs with the same contents
are taken into each other by renumbering their nodes. Whatever is looked up in one of them is found
in the other under the new number. -/
namespace ControlFlow

/-- An edge between nodes that have got new numbers. -/
def Edge.renumber (ren : NodeId → NodeId) (edge : Edge) : Edge :=
  { edge with source := ren edge.source, target := ren edge.target }

@[simp] theorem Edge.renumber_source (ren : NodeId → NodeId) (edge : Edge) :
    (edge.renumber ren).source = ren edge.source := rfl

@[simp] theorem Edge.renumber_target (ren : NodeId → NodeId) (edge : Edge) :
    (edge.renumber ren).target = ren edge.target := rfl

@[simp] theorem Edge.renumber_attrs (ren : NodeId → NodeId) (edge : Edge) :
    (edge.renumber ren).attrs = edge.attrs := rfl

@[simp] theorem Edge.renumber_branch (ren : NodeId → NodeId) (edge : Edge) :
    (edge.renumber ren).branch = edge.branch := rfl

namespace FlowGraph

/-- What is written of each node: its number, its label and its attributes. -/
def blocks (g : FlowGraph) : List (NodeId × String × AttrMap) :=
  g.nodes.map fun n => (n.id, n.label, n.attrs)

/-- One graph is the other with new numbers for its nodes, whatever their names and annotations
are. -/
structure Renumbers (ren : NodeId → NodeId) (g h : FlowGraph) : Prop where
  injective : Function.Injective ren
  blocks : h.blocks = g.blocks.map fun (id, text) => (ren id, text)
  edges : h.edges = g.edges.map (Edge.renumber ren)

variable {ren : NodeId → NodeId} {g h : FlowGraph}

/-! ## Looking up -/

theorem nodeIds_eq_blocks : g.nodeIds = g.blocks.map Prod.fst := by
  simp [nodeIds, blocks, Function.comp_def]

theorem node?_eq_blocks (id : NodeId) : (g.node? id).map (fun n => (n.id, n.label, n.attrs)) =
    g.blocks.find? (·.1 == id) := by
  rw [blocks, List.find?_map]
  rfl

theorem find?_eq_blocks (label : String) :
    g.find? label = (g.blocks.find? (·.2.1 == label)).map Prod.fst := by
  rw [find?, blocks, List.find?_map, Option.map_map]
  rfl

theorem entry_eq_blocks : g.entry? = (g.blocks.find? (·.2.2.marksEntry)).map Prod.fst := by
  unfold entry?
  rw [blocks, List.find?_map, Option.map_map]
  rfl

theorem label_eq_blocks (id : NodeId) :
    g.label id = ((g.blocks.find? (·.1 == id)).map (·.2.1)).getD "" := by
  rw [label, ← node?_eq_blocks, Option.map_map]
  rfl

namespace Renumbers

variable (same : Renumbers ren g h)
include same

theorem beq (a b : NodeId) : (ren a == ren b) = (a == b) := by
  rw [Bool.eq_iff_iff, beq_iff_eq, beq_iff_eq, same.injective.eq_iff]

theorem bne (a b : NodeId) : (ren a != ren b) = (a != b) := congrArg not (same.beq a b)

theorem beq_option (a : Option NodeId) (b : NodeId) :
    (a.map ren == some (ren b)) = (a == some b) := by
  rw [Bool.eq_iff_iff, beq_iff_eq, beq_iff_eq, ← Option.map_some,
    (Option.map_injective same.injective).eq_iff]

theorem contains_map (ids : List NodeId) (id : NodeId) :
    (ids.map ren).contains (ren id) = ids.contains id := by
  simp [same.injective.eq_iff]

theorem nodeIds : h.nodeIds = g.nodeIds.map ren := by
  rw [nodeIds_eq_blocks, nodeIds_eq_blocks, same.blocks, List.map_map, List.map_map]
  rfl

theorem size : h.size = g.size := by
  have lengths := congrArg List.length same.blocks
  simpa [FlowGraph.blocks, FlowGraph.size] using lengths

theorem find_block (id : NodeId) : h.blocks.find? (·.1 == ren id) =
    (g.blocks.find? (·.1 == id)).map fun (id, text) => (ren id, text) := by
  rw [same.blocks, List.find?_map]
  simp only [Function.comp_def, same.beq]

/-- A node and its image have the same label and attributes. -/
theorem node? (id : NodeId) : (h.node? (ren id)).map (fun n => (n.label, n.attrs)) =
    (g.node? id).map fun n => (n.label, n.attrs) := by
  have blocks := congrArg (Option.map Prod.snd) (same.find_block id)
  rw [← node?_eq_blocks, ← node?_eq_blocks] at blocks
  simpa [Function.comp_def] using blocks

theorem contains (id : NodeId) : h.contains (ren id) = g.contains id := by
  have found := congrArg Option.isSome (same.node? id)
  simpa [FlowGraph.contains] using found

theorem label (id : NodeId) : h.label (ren id) = g.label id := by
  rw [label_eq_blocks, label_eq_blocks, same.find_block, Option.map_map]
  rfl

theorem labels (ids : List NodeId) : (ids.map ren).map h.label = ids.map g.label := by
  simp [same.label]

theorem find? (label : String) : h.find? label = (g.find? label).map ren := by
  rw [find?_eq_blocks, find?_eq_blocks, same.blocks, List.find?_map, Option.map_map, Option.map_map]
  rfl

theorem entry_eq : h.entry? = g.entry?.map ren := by
  rw [entry_eq_blocks, entry_eq_blocks, same.blocks, List.find?_map, Option.map_map,
    Option.map_map]
  rfl

theorem outEdges (id : NodeId) : h.outEdges (ren id) = (g.outEdges id).map (Edge.renumber ren) := by
  rw [FlowGraph.outEdges, FlowGraph.outEdges, same.edges, List.filter_map]
  simp only [Function.comp_def, Edge.renumber_source, same.beq]

theorem inEdges (id : NodeId) : h.inEdges (ren id) = (g.inEdges id).map (Edge.renumber ren) := by
  rw [FlowGraph.inEdges, FlowGraph.inEdges, same.edges, List.filter_map]
  simp only [Function.comp_def, Edge.renumber_target, same.beq]

theorem succs (id : NodeId) : h.succs (ren id) = (g.succs id).map ren := by
  rw [FlowGraph.succs, FlowGraph.succs, same.outEdges, List.map_map, List.map_map]
  rfl

theorem preds (id : NodeId) : h.preds (ren id) = (g.preds id).map ren := by
  rw [FlowGraph.preds, FlowGraph.preds, same.inEdges, List.map_map, List.map_map]
  rfl

theorem edge? (source target : NodeId) :
    h.edge? (ren source) (ren target) = (g.edge? source target).map (Edge.renumber ren) := by
  rw [FlowGraph.edge?, FlowGraph.edge?, same.edges, List.find?_map]
  simp only [Function.comp_def, Edge.renumber_source, Edge.renumber_target, same.beq]

theorem hasEdge (source target : NodeId) :
    h.hasEdge (ren source) (ren target) = g.hasEdge source target := by
  rw [FlowGraph.hasEdge, FlowGraph.hasEdge, same.edge?, Option.isSome_map]

theorem compareEdges (e f : Edge) :
    h.compareEdges (e.renumber ren) (f.renumber ren) = g.compareEdges e f := by
  simp [FlowGraph.compareEdges, same.label]

/-- The contents of a graph do not tell its numbers. -/
theorem contents : h.contents = g.contents := by
  have texts := congrArg (List.map Prod.snd) same.blocks
  rw [FlowGraph.contents, FlowGraph.contents, same.entry_eq, same.edges]
  simpa [FlowGraph.blocks, Function.comp_def, same.label] using texts

theorem same_eq : g.same h = true := by
  rw [FlowGraph.same, same.contents, beq_self_eq_true]

end Renumbers

/-! ## Graphs with the same contents -/

/-- The node of `h` that has the label of a node of `g`. The next number of `g` goes to the next
number of `h`, and every other number that is not in use to one beyond. -/
def counterpart (g h : FlowGraph) (id : NodeId) : NodeId :=
  if id ∈ g.nodeIds then (h.find? (g.label id)).getD 0
  else if id = g.nextNode then h.nextNode
  else h.nextNode + 1 + id

section

variable (wf : g.WellFormed) (wf' : h.WellFormed) (same : g.same h = true)
include wf wf' same

/-- Every node has a counterpart. -/
theorem exists_counterpart {id : NodeId} (live : id ∈ g.nodeIds) :
    counterpart g h id ∈ h.nodeIds ∧ h.label (counterpart g h id) = g.label id := by
  have labels : g.nodes.map Node.label = h.nodes.map Node.label := by
    have nodes := congrArg Prod.fst (beq_iff_eq.mp same)
    simpa [contents, Function.comp_def] using congrArg (List.map Prod.fst) nodes
  obtain ⟨n, member, rfl⟩ := mem_nodeIds.mp live
  have listed : n.label ∈ h.nodes.map Node.label := labels ▸ List.mem_map_of_mem member
  obtain ⟨m, other, label⟩ := List.mem_map.mp listed
  have found : h.find? (g.label n.id) = some m.id :=
    wf'.find?_eq_some_iff.mpr ⟨m, other, label.trans (wf.label_node member).symm, rfl⟩
  rw [counterpart, if_pos live, found, Option.getD_some]
  exact ⟨find?_live found, wf'.label_of_find? found⟩

theorem counterpart_injective : Function.Injective (counterpart g h) := by
  have below {id : NodeId} (live : id ∈ g.nodeIds) : counterpart g h id < h.nextNode :=
    wf'.idsBelow _ (exists_counterpart wf wf' same live).1
  have beyond {id : NodeId} (unused : id ∉ g.nodeIds) :
      counterpart g h id = if id = g.nextNode then h.nextNode else h.nextNode + 1 + id := by
    rw [counterpart, if_neg unused]
  intro a b equal
  -- Labels tell nodes in use apart; the others are sent beyond all of them.
  by_cases left : a ∈ g.nodeIds <;> by_cases right : b ∈ g.nodeIds
  · obtain ⟨-, label⟩ := exists_counterpart wf wf' same left
    obtain ⟨-, label'⟩ := exists_counterpart wf wf' same right
    exact wf.label_inj left right (by rw [← label, ← label', equal])
  · have := below left
    have := beyond right
    grind
  · have := below right
    have := beyond left
    grind
  · have := beyond left
    have := beyond right
    grind

/-- Both lists follow from the contents: a node is found again by its label. -/
theorem blocks_counterpart :
    h.blocks = g.blocks.map fun (id, text) => (counterpart g h id, text) := by
  have texts : g.nodes.map (fun n => (n.label, n.attrs)) = h.nodes.map fun n => (n.label, n.attrs) :=
    congrArg Prod.fst (beq_iff_eq.mp same)
  have told : h.blocks = (h.nodes.map fun n => (n.label, n.attrs)).map
      fun text => ((h.find? text.1).getD 0, text.1, text.2) := by
    rw [blocks, List.map_map]
    refine List.map_congr_left fun n member => ?_
    simp [wf'.find?_eq_some_iff.mpr ⟨n, member, rfl, rfl⟩]
  rw [told, ← texts, blocks, List.map_map, List.map_map]
  refine List.map_congr_left fun n member => ?_
  simp [counterpart, mem_nodeIds.mpr ⟨n, member, rfl⟩, wf.label_node member]

theorem edges_counterpart : h.edges = g.edges.map (Edge.renumber (counterpart g h)) := by
  have texts : g.edges.map (fun e => (g.label e.source, g.label e.target, e.attrs)) =
      h.edges.map fun e => (h.label e.source, h.label e.target, e.attrs) :=
    congrArg (fun contents => contents.2.2) (beq_iff_eq.mp same)
  have told : h.edges = (h.edges.map fun e => (h.label e.source, h.label e.target, e.attrs)).map
      fun text => ⟨(h.find? text.1).getD 0, (h.find? text.2.1).getD 0, text.2.2⟩ := by
    rw [List.map_map]
    refine (List.map_id _).symm.trans (List.map_congr_left fun e member => ?_)
    obtain ⟨source, target⟩ := wf'.edgesLive e member
    simp [wf'.find?_label source, wf'.find?_label target]
  rw [told, ← texts, List.map_map]
  refine List.map_congr_left fun e member => ?_
  obtain ⟨source, target⟩ := wf.edgesLive e member
  simp [Edge.renumber, counterpart, source, target]

/-- Graphs with the same contents differ only in numbers. -/
theorem exists_renumbers : ∃ ren, Renumbers ren g h ∧ ren g.nextNode = h.nextNode := by
  refine ⟨counterpart g h, ⟨counterpart_injective wf wf' same, blocks_counterpart wf wf' same,
    edges_counterpart wf wf' same⟩, ?_⟩
  rw [counterpart, if_neg fun live => (wf.idsBelow _ live).false, if_pos rfl]

end

end FlowGraph

end ControlFlow
