import ControlFlow.Proofs.Graph.Rewiring
import ControlFlow.Proofs.Store.Edges
import ControlFlow.Proofs.Store.Nodes
import ControlFlow.Store.Merge

/-! Merging nodes in the tables. What is looked up beforehand is what the graph answers. A list that the
checks refuse has cost nothing. Once they have accepted one, nothing that follows can fail: every step is
one that the merge of the graph takes, and there it succeeds. So no merge stops half way. -/
namespace ControlFlow.Store

variable {s t : Store} {g h : FlowGraph}

namespace Holds

variable (holds : s.Holds g)
include holds

/-! ## What is looked up -/

theorem checkMembers (seen ids : List NodeId) :
    s.checkMembers seen ids = g.checkMembers seen ids := by
  induction ids generalizing seen with
  | nil => rfl
  | cons id rest ih =>
    rw [Store.checkMembers, FlowGraph.checkMembers, holds.contains, holds.label, ih]

theorem mergeOrder (head : NodeId) (ids : List NodeId) :
    s.mergeOrder head ids = g.mergeOrder head ids := by
  rw [Store.mergeOrder, holds.order, FlowGraph.mergeOrder]

theorem rewiring (head : NodeId) (members : List NodeId) (loopEdge : Option (NodeId × NodeId)) :
    s.rewiring head members loopEdge = g.rewiring head members loopEdge := by
  rw [Store.rewiring, holds.inEdges, holds.outEdges, FlowGraph.rewiring]

theorem mergedAttrs (model : Node) (members : List NodeId) :
    s.mergedAttrs model.stored members = g.mergedAttrs model members := by
  rw [Store.mergedAttrs, holds.entry, FlowGraph.mergedAttrs]
  rfl

theorem findAll (labels : List String) : s.findAll labels = g.findAll labels := by
  refine congrArg labels.mapM (funext fun label => ?_)
  cases found : g.find? label with
  | none => simp only [holds.find?, found]
  | some id => simp only [holds.find?, found]

theorem loopEdge? (region : Region) : s.loopEdge? region = g.loopEdge? region := by
  simp only [Store.loopEdge?, FlowGraph.loopEdge?, holds.find?]

/-! ## What is done -/

variable (sound : g.Sound)
include sound

theorem removeNodes (ids : List NodeId) :
    ∃ t, (removeNodes ids).runOn s = (.ok (), t) ∧ t.Holds (ids.foldl FlowGraph.removeNode g) := by
  induction ids generalizing s g with
  | nil => exact ⟨s, rfl, holds⟩
  | cons id rest ih =>
    obtain ⟨t, ran, held⟩ := holds.removeNode sound id
    obtain ⟨u, ranRest, heldRest⟩ := ih held (sound.removeNode id)
    refine ⟨u, ?_, heldRest⟩
    rw [Store.removeNodes, Procedure.runOn_bind, ran]
    exact ranRest

/-- Edges that can all be added to the graph can all be added to the tables. -/
theorem addEdges {edges : List (NodeId × NodeId × AttrMap)} (added : g.addEdges edges = .ok h) :
    ∃ t, (addEdges edges).runOn s = (.ok (), t) ∧ t.Holds h := by
  induction edges generalizing s g with
  | nil =>
    cases added
    exact ⟨s, rfl, holds⟩
  | cons edge rest ih =>
    obtain ⟨source, target, attrs⟩ := edge
    rw [FlowGraph.addEdges, List.foldlM_cons] at added
    obtain ⟨k, first, later⟩ := bind_eq_ok_iff.mp added
    obtain ⟨⟨number, k'⟩, one, same⟩ := bind_eq_ok_iff.mp first
    cases same
    have mirrors := holds.addEdge sound source target attrs
    rw [one] at mirrors
    obtain ⟨t, ran, held⟩ := mirrors
    obtain ⟨u, ranRest, heldRest⟩ := ih held (sound.addEdge one) later
    refine ⟨u, ?_, heldRest⟩
    rw [Store.addEdges, Procedure.runOn_bind, ran]
    exact ranRest

/-- Where the graph takes the new node and its edges, so do the tables. -/
theorem replace {members : List NodeId} {label : String} {attrs : AttrMap}
    {kept : FlowGraph.Rewiring} {merged : NodeId} {inserted : FlowGraph}
    (added : (members.foldl FlowGraph.removeNode g).addNode label attrs = .ok (merged, inserted))
    (edges : inserted.addEdges (kept.edges merged) = .ok h) :
    ∃ t, (replace members label attrs kept).runOn s = (.ok merged, t) ∧ t.Holds h := by
  obtain ⟨t, ranRemovals, held⟩ := holds.removeNodes sound members
  have removed : (members.foldl FlowGraph.removeNode g).Sound :=
    List.foldlRecOn _ _ sound fun k sound id _ => sound.removeNode id
  have mirrors := held.addNode removed label attrs
  rw [added] at mirrors
  obtain ⟨u, ranNode, held⟩ := mirrors
  obtain ⟨v, ranEdges, held⟩ := held.addEdges (removed.addNode added) edges
  refine ⟨v, ?_, held⟩
  simp only [Store.replace, Procedure.runOn_bind, ranRemovals, ranNode, ranEdges]
  rfl

theorem mergeNodes (ids : List NodeId) (loopEdge : Option (NodeId × NodeId)) :
    s.Mirrors (mergeNodes ids loopEdge) (g.mergeNodes ids loopEdge) := by
  cases ids with
  | nil => exact rfl
  | cons head rest =>
    cases checked : g.checkMembers [] (head :: rest) with
    | error error =>
      have refused : g.mergeNodes (head :: rest) loopEdge = .error error := by
        simp only [FlowGraph.mergeNodes, checked, bind, Except.bind]
      rw [refused]
      show Procedure.runOn _ s = _
      rw [Store.mergeNodes, Procedure.runOn_bind, Procedure.runOn_check, holds.checkMembers, checked]
    | ok accepted =>
      have mergeable := FlowGraph.checkMembers_iff_mergeable.mp checked
      obtain ⟨merged, h, ran, -⟩ :=
        FlowGraph.mergeNodes_merged sound.wf mergeable.live mergeable.nodup loopEdge
      obtain ⟨model, inserted, found, added, edges⟩ := FlowGraph.mergeNodes_steps ran
      obtain ⟨t, ranReplace, held⟩ := holds.replace sound added edges
      rw [ran]
      refine ⟨t, ?_, held⟩
      rw [Store.mergeNodes, Procedure.runOn_bind, Procedure.runOn_check, holds.checkMembers, checked]
      dsimp only
      rw [Procedure.runOn_get_bind, holds.node?, found, holds.mergeOrder]
      dsimp only [Option.map_some]
      rw [holds.mergedAttrs, holds.rewiring]
      exact ranReplace

theorem mergeRegion (region : Region) :
    s.Mirrors (mergeRegion region) (g.mergeRegion region) := by
  cases found : g.findAll region.labels with
  | error error =>
    have refused : g.mergeRegion region = .error error := by
      rw [FlowGraph.mergeRegion, found]
      rfl
    rw [refused]
    show Procedure.runOn _ s = _
    rw [Store.mergeRegion, Procedure.runOn_bind, Procedure.runOn_check, holds.findAll, found]
  | ok ids =>
    have outcome : g.mergeRegion region = g.mergeNodes ids (g.loopEdge? region) := by
      rw [FlowGraph.mergeRegion, found, ok_bind]
    have same : (Store.mergeRegion region).runOn s =
        (Store.mergeNodes ids (g.loopEdge? region)).runOn s := by
      rw [Store.mergeRegion, Procedure.runOn_bind, Procedure.runOn_check, holds.findAll, found]
      dsimp only
      rw [Procedure.runOn_get_bind, holds.loopEdge?]
    rw [outcome]
    exact (holds.mergeNodes sound ids (g.loopEdge? region)).of_runOn same

end Holds

end ControlFlow.Store
