import ControlFlow.Proofs.Renumbering.Merge
import ControlFlow.Proofs.Renumbering.Search

/-! Annotations of renumbered graphs. Annotations refer to nodes by their numbers, so those of one
graph are those of the other with new numbers, once both graphs have forgotten what earlier analyses
have found out. Corresponding changes keep it so. -/
namespace ControlFlow

/-- Annotations that refer to nodes with new numbers. -/
def Notes.renumber (ren : NodeId → NodeId) (notes : Notes) : Notes :=
  { notes with
    loopHead := notes.loopHead.map ren
    loopFollow := notes.loopFollow.map ren
    follow := notes.follow.map ren }

/-- A node with a new number, and with new numbers for the nodes that its annotations refer to. -/
def Node.renumber (ren : NodeId → NodeId) (node : Node) : Node :=
  { node with id := ren node.id, notes := node.notes.renumber ren }

namespace FlowGraph

/-- One graph is the other with new numbers for its nodes, and so are its annotations. -/
structure Annotated (ren : NodeId → NodeId) (g h : FlowGraph) : Prop where
  injective : Function.Injective ren
  nodes : h.nodes = g.nodes.map (Node.renumber ren)
  edges : h.edges = g.edges.map (Edge.renumber ren)

variable {ren : NodeId → NodeId} {g h : FlowGraph}

/-- Fresh annotations refer to no nodes. -/
theorem Renumbers.resetAnnotations (same : Renumbers ren g h) :
    Annotated ren g.resetAnnotations h.resetAnnotations where
  injective := same.injective
  nodes := by
    have fresh (k : FlowGraph) : k.resetAnnotations.nodes = k.blocks.map fun block =>
        ⟨block.1, block.2.1, block.2.2, .ofAttrs block.2.2⟩ := by
      simp only [FlowGraph.resetAnnotations, FlowGraph.blocks, List.map_map, Function.comp_def]
    rw [fresh, fresh, same.blocks, List.map_map, List.map_map]
    rfl
  edges := same.edges

namespace Annotated

variable (same : Annotated ren g h)
include same

theorem renumbers : Renumbers ren g h where
  injective := same.injective
  blocks := by
    rw [blocks, blocks, same.nodes, List.map_map, List.map_map]
    rfl
  edges := same.edges

theorem notes? (id : NodeId) : h.notes? (ren id) = (g.notes? id).map (Notes.renumber ren) := by
  rw [FlowGraph.notes?, FlowGraph.notes?, FlowGraph.node?, FlowGraph.node?, same.nodes,
    List.find?_map, Option.map_map, Option.map_map]
  simp only [Function.comp_def, Node.renumber, same.renumbers.beq]

/-- Corresponding changes of corresponding nodes keep the annotations alike. -/
theorem annotate (id : NodeId) {change change' : Notes → Notes}
    (alike : ∀ notes, change' (notes.renumber ren) = (change notes).renumber ren) :
    Annotated ren (g.annotate id change) (h.annotate (ren id) change') where
  injective := same.injective
  nodes := by
    simp only [FlowGraph.annotate, modifyNode, same.nodes, List.map_map]
    refine List.map_congr_left fun n _ => ?_
    simp only [Function.comp_apply, Node.renumber, same.renumbers.beq]
    split
    · simp only [alike]
    · rfl
  edges := same.edges

theorem foldl_annotate (ids : List NodeId) {change change' : Notes → Notes}
    (alike : ∀ notes, change' (notes.renumber ren) = (change notes).renumber ren) :
    Annotated ren (ids.foldl (fun g id => g.annotate id change) g)
      ((ids.map ren).foldl (fun h id => h.annotate id change') h) := by
  induction ids generalizing g h with
  | nil => exact same
  | cons id ids ih => exact ih (same.annotate id alike)

theorem recordNumbers (numbering : Numbering) :
    Annotated ren (g.recordNumbers numbering) (h.recordNumbers (numbering.renumber ren)) where
  injective := same.injective
  nodes := by
    simp only [FlowGraph.recordNumbers, same.nodes, List.map_map]
    refine List.map_congr_left fun n _ => ?_
    simp only [Function.comp_apply, Node.renumber, Numbering.preNum?_renumber same.injective,
      Numbering.postNum?_renumber same.injective, Numbering.revPostNum?_renumber same.injective]
    split <;> rfl
  edges := same.edges

theorem number : Agree (fun r r' => r'.1 = r.1.renumber ren ∧ Annotated ren r.2 r'.2)
    g.number h.number := by
  refine same.renumbers.entry.bind ?_
  rintro entry _ rfl
  have numbering := same.renumbers.numbering entry
  refine ⟨numbering, ?_⟩
  rw [numbering]
  exact same.recordNumbers _

theorem removeNode (id : NodeId) : Annotated ren (g.removeNode id) (h.removeNode (ren id)) where
  injective := same.injective
  nodes := by
    simp only [FlowGraph.removeNode, same.nodes, List.filter_map, Function.comp_def, Node.renumber,
      same.renumbers.bne]
  edges := (same.renumbers.removeNode id).edges

theorem insertEdge (edge : Edge) :
    Annotated ren (g.insertEdge edge) (h.insertEdge (edge.renumber ren)) where
  injective := same.injective
  nodes := same.nodes
  edges := (same.renumbers.insertEdge edge).edges

end Annotated

end FlowGraph

end ControlFlow
