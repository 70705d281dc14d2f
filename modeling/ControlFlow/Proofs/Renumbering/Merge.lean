import ControlFlow.Proofs.Graph.Merge
import ControlFlow.Proofs.Renumbering.Basic

/-! Changes of renumbered graphs. Nodes and edges are put where their labels belong, so a change made
to two graphs that differ only in numbers leaves two such graphs, or is refused both times. A new
node gets the next number of its graph; new numbers that take the one to the other take the changed
graphs into each other as well. -/
namespace ControlFlow

variable {ren : NodeId → NodeId} {g h : FlowGraph}

theorem firstOfEach_map {α β γ δ : Type} [BEq β] [BEq δ] {key : α → β} {key' : γ → δ} {f : α → γ}
    (keys : ∀ a b, (key' (f a) != key' (f b)) = (key a != key b)) (items : List α) :
    firstOfEach key' (items.map f) = (firstOfEach key items).map f := by
  induction items with
  | nil => rfl
  | cons a rest ih =>
    rw [List.map_cons, firstOfEach, firstOfEach, ih, List.filter_map, List.map_cons]
    simp only [Function.comp_def, keys]

namespace FlowGraph

/-- The edges that a merge keeps, between nodes that have got new numbers. -/
def Rewiring.renumber (ren : NodeId → NodeId) (kept : Rewiring) : Rewiring where
  entering := kept.entering.map (Edge.renumber ren)
  leaving := kept.leaving.map (Edge.renumber ren)
  loop := kept.loop.map (Edge.renumber ren)

theorem Rewiring.edges_renumber (kept : Rewiring) (merged : NodeId) :
    (kept.renumber ren).edges (ren merged) = (kept.edges merged).map
      fun (source, target, attrs) => (ren source, ren target, attrs) := by
  simp [Rewiring.edges, Rewiring.renumber, Function.comp_def]
  cases kept.loop <;> rfl

namespace Renumbers

variable (same : Renumbers ren g h)
include same

/-! ## Single changes -/

theorem removeNode (id : NodeId) : Renumbers ren (g.removeNode id) (h.removeNode (ren id)) where
  injective := same.injective
  blocks := by
    have filtered (k : FlowGraph) (other : NodeId) :
        (k.removeNode other).blocks = k.blocks.filter (·.1 != other) := by
      simp only [FlowGraph.blocks, FlowGraph.removeNode, List.filter_map, Function.comp_def]
    rw [filtered, filtered, same.blocks, List.filter_map]
    simp only [Function.comp_def, same.bne]
  edges := by
    simp only [FlowGraph.removeNode, same.edges, List.filter_map, Function.comp_def,
      Edge.renumber_source, Edge.renumber_target, same.bne]

theorem removeAll (members : List NodeId) : Renumbers ren (members.foldl FlowGraph.removeNode g)
    ((members.map ren).foldl FlowGraph.removeNode h) := by
  induction members generalizing g h with
  | nil => exact same
  | cons id members ih => exact ih (same.removeNode id)

/-- New nodes correspond when their numbers do. -/
theorem insertNode (next : ren g.nextNode = h.nextNode) (label : String) (attrs : AttrMap) :
    Renumbers ren (g.insertNode label attrs) (h.insertNode label attrs) where
  injective := same.injective
  blocks := by
    have inserted (k : FlowGraph) : (k.insertNode label attrs).blocks =
        insertBefore (fun block => Text.naturalCompare block.2.1 label == .lt)
          (k.nextNode, label, attrs) k.blocks := by
      refine map_insertBefore ?_ (k.newNode label attrs)
      exact fun _ _ => rfl
    rw [inserted, inserted, same.blocks, ← next]
    refine (map_insertBefore (f := fun block => (ren block.1, block.2)) ?_
      (g.nextNode, label, attrs)).symm
    exact fun _ _ => rfl
  edges := same.edges

/-- A node is refused by both graphs, or added to both. -/
theorem addNode (label : String) (attrs : AttrMap) :
    Agree (fun r r' => r = (g.nextNode, g.insertNode label attrs) ∧
      r' = (h.nextNode, h.insertNode label attrs)) (g.addNode label attrs)
      (h.addNode label attrs) := by
  rw [FlowGraph.addNode, FlowGraph.addNode, same.find?, same.entry_eq, Option.isSome_map]
  split
  · trivial
  · cases attrs.marksEntry <;> cases g.entry? <;> trivial

theorem insertEdge (edge : Edge) :
    Renumbers ren (g.insertEdge edge) (h.insertEdge (edge.renumber ren)) where
  injective := same.injective
  blocks := same.blocks
  edges := by
    simp only [FlowGraph.insertEdge, placeEdge, same.edges]
    have alike (e : Edge) (_ : e ∈ g.edges) : (g.compareEdges e edge == .lt) =
        (h.compareEdges (e.renumber ren) (edge.renumber ren) == .lt) := by
      rw [same.compareEdges]
    exact (map_insertBefore alike edge).symm

/-- An edge is refused by both graphs, or added to both. -/
theorem addEdge (source target : NodeId) (attrs : AttrMap) :
    Agree (fun r r' => r.2 = g.insertEdge ⟨source, target, attrs⟩ ∧
      r'.2 = h.insertEdge ⟨ren source, ren target, attrs⟩) (g.addEdge source target attrs)
      (h.addEdge (ren source) (ren target) attrs) := by
  rw [FlowGraph.addEdge, FlowGraph.addEdge, same.contains, same.contains, same.hasEdge]
  split
  · trivial
  · split
    · trivial
    · exact ⟨rfl, rfl⟩

theorem addEdges (edges : List (NodeId × NodeId × AttrMap)) :
    Agree (Renumbers ren) (g.addEdges edges)
      (h.addEdges (edges.map fun (source, target, attrs) => (ren source, ren target, attrs))) := by
  refine Agree.foldlM (Q := fun e e' => e' = (ren e.1, ren e.2.1, e.2.2)) ?_ ?_ same
  · rintro k k' ⟨source, target, attrs⟩ _ sameSoFar rfl
    refine (sameSoFar.addEdge source target attrs).bind ?_
    rintro ⟨edge, k⟩ ⟨edge', k'⟩ ⟨rfl, rfl⟩
    exact sameSoFar.insertEdge ⟨source, target, attrs⟩
  · rw [List.forall₂_map_right_iff]
    exact List.forall₂_same.mpr fun _ _ => rfl

/-! ## Merges -/

theorem checkMembers (seen ids : List NodeId) : Agree (fun _ _ => True) (g.checkMembers seen ids)
    (h.checkMembers (seen.map ren) (ids.map ren)) := by
  induction ids generalizing seen with
  | nil => trivial
  | cons id ids ih =>
    rw [List.map_cons, FlowGraph.checkMembers, FlowGraph.checkMembers, same.contains,
      same.contains_map]
    split
    · trivial
    · split
      · trivial
      · exact ih (id :: seen)

theorem mergeOrder (head : NodeId) (ids : List NodeId) :
    h.mergeOrder (ren head) (ids.map ren) = (g.mergeOrder head ids).map ren := by
  simp only [FlowGraph.mergeOrder, same.nodeIds, List.filter_map, Function.comp_def, same.bne,
    same.contains_map, List.map_cons]

theorem rewiring (head : NodeId) (members : List NodeId) (loopEdge : Option (NodeId × NodeId)) :
    h.rewiring (ren head) (members.map ren) (loopEdge.map (Prod.map ren ren)) =
      (g.rewiring head members loopEdge).renumber ren := by
  have closes (e : Edge) : (loopEdge.map (Prod.map ren ren) != some (ren e.source, ren e.target)) =
      (loopEdge != some (e.source, e.target)) := by
    have pairs := (Option.map_injective (same.injective.prodMap same.injective)).beq_eq
      (a := loopEdge) (b := some (e.source, e.target))
    exact congrArg not pairs
  have sources (edges : List Edge) : firstOfEach Edge.source (edges.map (Edge.renumber ren)) =
      (firstOfEach Edge.source edges).map (Edge.renumber ren) :=
    firstOfEach_map (fun a b => same.bne a.source b.source) edges
  have targets (edges : List Edge) : firstOfEach Edge.target (edges.map (Edge.renumber ren)) =
      (firstOfEach Edge.target edges).map (Edge.renumber ren) :=
    firstOfEach_map (fun a b => same.bne a.target b.target) edges
  simp only [FlowGraph.rewiring, Rewiring.renumber, List.flatMap_map, ← List.map_flatMap,
    same.inEdges, same.outEdges, List.filter_map, List.find?_map, Function.comp_def,
    Edge.renumber_source, Edge.renumber_target, same.contains_map, same.beq, closes, sources,
    targets]

theorem mergedAttrs {model model' : Node} (attrs : model'.attrs = model.attrs)
    (members : List NodeId) :
    h.mergedAttrs model' (members.map ren) = g.mergedAttrs model members := by
  simp only [FlowGraph.mergedAttrs, same.entry_eq, attrs, Option.any_map, same.contains_map]

theorem mergeNodes (next : ren g.nextNode = h.nextNode) (ids : List NodeId)
    (loopEdge : Option (NodeId × NodeId)) :
    Agree (fun r r' => r'.1 = ren r.1 ∧ Renumbers ren r.2 r'.2) (g.mergeNodes ids loopEdge)
      (h.mergeNodes (ids.map ren) (loopEdge.map (Prod.map ren ren))) := by
  cases ids with
  | nil => trivial
  | cons head others =>
    refine (same.checkMembers [] (head :: others)).bind fun _ _ _ => ?_
    have texts := same.node? head
    -- The head is live in both graphs or in neither.
    cases left : g.node? head with
    | none => cases right : h.node? (ren head) with
      | none => trivial
      | some model' => simp [left, right] at texts
    | some model => cases right : h.node? (ren head) with
      | none => simp [left, right] at texts
      | some model' =>
        simp only [left, right, Option.map_some, Option.some.injEq, Prod.mk.injEq] at texts
        obtain ⟨label, attrs⟩ := texts
        have rest := same.removeAll (g.mergeOrder head (head :: others))
        -- Removing nodes hands out no number, so the new nodes correspond.
        have restNext : ren ((g.mergeOrder head (head :: others)).foldl FlowGraph.removeNode
            g).nextNode = (((g.mergeOrder head (head :: others)).map ren).foldl
              FlowGraph.removeNode h).nextNode := by
          rw [removeAll_nextNode, removeAll_nextNode, next]
        simp only [same.mergeOrder, same.rewiring, label, same.mergedAttrs attrs]
        refine (rest.addNode _ _).bind ?_
        rintro _ _ ⟨rfl, rfl⟩
        rw [← restNext, Rewiring.edges_renumber]
        refine ((rest.insertNode restNext _ _).addEdges _).bind fun k k' sameMerged => ?_
        exact ⟨rfl, sameMerged⟩

theorem findAll (labels : List String) :
    Agree (fun ids ids' => ids' = ids.map ren) (g.findAll labels) (h.findAll labels) := by
  induction labels with
  | nil => exact rfl
  | cons label labels ih =>
    rw [FlowGraph.findAll, FlowGraph.findAll, List.mapM_cons, List.mapM_cons, same.find?]
    cases g.find? label with
    | none => trivial
    | some id =>
      refine ih.bind ?_
      rintro ids _ rfl
      exact rfl

theorem loopEdge? (region : Region) :
    h.loopEdge? region = (g.loopEdge? region).map (Prod.map ren ren) := by
  have ends (source target : String) :
      ((h.find? source).bind fun a => (h.find? target).bind fun b => some (a, b)) =
        ((g.find? source).bind fun a => (g.find? target).bind fun b => some (a, b)).map
          (Prod.map ren ren) := by
    rw [same.find?, same.find?]
    cases g.find? source <;> cases g.find? target <;> rfl
  cases region with
  | preLoop cond body exit => exact ends body cond
  | postLoop cond exit => exact ends cond cond
  | loop kind head latch follow => exact ends latch head
  | _ => rfl

theorem mergeRegion (next : ren g.nextNode = h.nextNode) (region : Region) :
    Agree (fun r r' => r'.1 = ren r.1 ∧ Renumbers ren r.2 r'.2) (g.mergeRegion region)
      (h.mergeRegion region) := by
  rw [FlowGraph.mergeRegion, FlowGraph.mergeRegion, same.loopEdge?]
  refine (same.findAll region.labels).bind ?_
  rintro ids _ rfl
  exact same.mergeNodes next ids _

end Renumbers

end FlowGraph

end ControlFlow
