import ControlFlow.Graph.Dominators
import ControlFlow.Proofs.Graph.Walk

/-! Annotations do not matter to the graph. Two graphs that differ in annotations only have the same
walks, orders and dominators. -/
namespace ControlFlow.FlowGraph

variable {g h : FlowGraph}

/-- Annotations aside, nothing of a graph depends on annotations. -/
@[simp] theorem resetAnnotations_nodeIds : g.resetAnnotations.nodeIds = g.nodeIds := by
  simp [resetAnnotations, nodeIds, Function.comp_def]

@[simp] theorem resetAnnotations_edges : g.resetAnnotations.edges = g.edges := rfl

@[simp] theorem resetAnnotations_entry : g.resetAnnotations.entry? = g.entry? := by
  simp only [resetAnnotations, entry?, List.find?_map, Option.map_map]
  rfl

@[simp] theorem resetAnnotations_label (id : NodeId) :
    g.resetAnnotations.label id = g.label id := by
  simp only [label, node?, resetAnnotations, List.find?_map, Option.map_map]
  rfl

@[simp] theorem resetAnnotations_find? (label : String) :
    g.resetAnnotations.find? label = g.find? label := by
  simp only [find?, resetAnnotations, List.find?_map, Option.map_map]
  rfl

theorem WellFormed.resetAnnotations (wf : g.WellFormed) : g.resetAnnotations.WellFormed where
  idsNodup := by
    rw [resetAnnotations_nodeIds]
    exact wf.idsNodup
  idsBelow := by
    rw [resetAnnotations_nodeIds]
    exact wf.idsBelow
  labelsNodup := by
    simpa [FlowGraph.resetAnnotations, Function.comp_def] using wf.labelsNodup
  oneEntry m left n right entering entered := by
    obtain ⟨first, firstMember, rfl⟩ := List.mem_map.mp left
    obtain ⟨second, secondMember, rfl⟩ := List.mem_map.mp right
    exact wf.oneEntry first firstMember second secondMember entering entered
  edgesLive := by
    rw [resetAnnotations_nodeIds]
    exact wf.edgesLive
  endsNodup := wf.endsNodup

/-- Two graphs that differ in annotations only. -/
def SameCore (g h : FlowGraph) : Prop := g.resetAnnotations = h.resetAnnotations

namespace SameCore

theorem refl (g : FlowGraph) : g.SameCore g := Eq.refl _

theorem symm (same : g.SameCore h) : h.SameCore g := Eq.symm same

theorem trans {k : FlowGraph} (first : g.SameCore h) (second : h.SameCore k) : g.SameCore k :=
  Eq.trans first second

variable (same : g.SameCore h)
include same

theorem nodeIds : g.nodeIds = h.nodeIds := by
  simpa only [resetAnnotations_nodeIds] using congrArg FlowGraph.nodeIds same

theorem edges : g.edges = h.edges := by
  simpa only [resetAnnotations_edges] using congrArg FlowGraph.edges same

theorem succs : g.succs = h.succs := by
  funext id
  rw [FlowGraph.succs, outEdges, same.edges]
  rfl

theorem preds : g.preds = h.preds := by
  funext id
  rw [FlowGraph.preds, inEdges, same.edges]
  rfl

theorem entry_eq : g.entry? = h.entry? := by
  simpa only [resetAnnotations_entry] using congrArg FlowGraph.entry? same

theorem label : g.label = h.label := by
  funext id
  simpa only [resetAnnotations_label] using congrFun (congrArg FlowGraph.label same) id

theorem find?_eq : g.find? = h.find? := by
  funext label
  simpa only [resetAnnotations_find?] using congrFun (congrArg FlowGraph.find? same) label

theorem step : g.Step = h.Step := by
  funext a b
  rw [Step, Step, same.succs]

private theorem walk_of_walk {a b : NodeId} {passed : List NodeId} (walk : g.Walk a b passed) :
    h.Walk a b passed := by
  induction walk with
  | here => exact .here
  | step _ edge ih =>
    rw [same.step] at edge
    exact ih.step edge

theorem walk : g.Walk = h.Walk := by
  funext a b passed
  exact propext ⟨same.walk_of_walk, same.symm.walk_of_walk⟩

theorem reaches {a b : NodeId} (reached : g.Reaches a b) : h.Reaches a b := by
  rwa [Reaches, same.walk] at reached

theorem dominates : g.Dominates = h.Dominates := by
  funext root a b
  simp only [Dominates, Reaches, same.walk]

theorem numbering : g.numbering = h.numbering := by
  funext start
  rw [FlowGraph.numbering, FlowGraph.search, same.succs, same.nodeIds]
  rfl

theorem refine : Ascent.refine g = Ascent.refine h := by
  funext rank ascent id
  rw [Ascent.refine, same.preds]
  rfl

theorem settle (numbering : Numbering) (bound : Nat) (ascent : Ascent) :
    ascent.settle g numbering bound = ascent.settle h numbering bound := by
  induction bound generalizing ascent with
  | zero => rfl
  | succ bound ih =>
    have swept : ascent.sweep g numbering = ascent.sweep h numbering := by
      rw [Ascent.sweep, same.refine]
      rfl
    rw [Ascent.settle, swept, ih]
    rfl

theorem dominatorsFrom : g.dominatorsFrom = h.dominatorsFrom := by
  funext root
  simp only [FlowGraph.dominatorsFrom, ascentFrom, same.numbering, same.nodeIds, same.settle]

end SameCore

theorem sameCore_resetAnnotations : g.resetAnnotations.SameCore g := by
  simp [SameCore, resetAnnotations]

theorem sameCore_annotate (id : NodeId) (change : Notes → Notes) :
    (g.annotate id change).SameCore g := by
  simp only [SameCore, resetAnnotations, annotate, modifyNode, List.map_map, mk.injEq, true_and,
    and_true]
  refine List.map_congr_left fun n _ => ?_
  simp only [Function.comp_apply]
  split <;> rfl

theorem sameCore_foldl_annotate (ids : List NodeId) (change : NodeId → Notes → Notes) :
    (ids.foldl (fun g id => g.annotate id (change id)) g).SameCore g := by
  induction ids generalizing g with
  | nil => exact .refl g
  | cons id rest ih => exact ih.trans (sameCore_annotate id (change id))

private theorem find?_map_id {change : Node → Node} (same : ∀ n, (change n).id = n.id)
    (nodes : List Node) (id : NodeId) :
    (nodes.map change).find? (·.id == id) = (nodes.find? (·.id == id)).map change := by
  have key : (fun n : Node => n.id == id) ∘ change = fun n => n.id == id := by
    funext n
    simp [same]
  rw [List.find?_map, key]

private theorem annotate_node? (id other : NodeId) (change : Notes → Notes) :
    (g.annotate id change).node? other = (g.node? other).map fun n =>
      if n.id == id then { n with notes := change n.notes } else n :=
  find?_map_id (fun n => by split <;> rfl) g.nodes other

theorem annotate_notes? {id other : NodeId} {change : Notes → Notes} (different : other ≠ id) :
    (g.annotate id change).notes? other = (g.notes? other) := by
  rw [notes?, annotate_node?, notes?]
  cases found : g.node? other with
  | none => rfl
  | some n =>
    have named : n.id = other := by simpa using List.find?_some found
    simp [named, different]

theorem annotate_notes?_self {id : NodeId} {change : Notes → Notes} :
    (g.annotate id change).notes? id = (g.notes? id).map change := by
  rw [notes?, annotate_node?, notes?]
  cases found : g.node? id with
  | none => rfl
  | some n =>
    have named : n.id = id := by simpa using List.find?_some found
    simp [named]

theorem sameCore_recordNumbers (numbering : Numbering) :
    (g.recordNumbers numbering).SameCore g := by
  simp only [SameCore, resetAnnotations, recordNumbers, List.map_map, mk.injEq, true_and, and_true]
  refine List.map_congr_left fun n _ => ?_
  simp only [Function.comp_apply]
  split <;> rfl

/-- Numbering changes nothing of the annotations but the numbers. -/
theorem recordNumbers_notes? {read : Notes → α}
    (keeps : ∀ notes pre post rev, read { notes with
      preNum := pre, postNum := post, revPostNum := rev } = read notes)
    (numbering : Numbering) (id : NodeId) :
    ((g.recordNumbers numbering).notes? id).map read = (g.notes? id).map read := by
  have found : (g.recordNumbers numbering).node? id = (g.node? id).map _ :=
    find?_map_id (fun n => by split <;> rfl) g.nodes id
  rw [notes?, found, notes?]
  cases g.node? id with
  | none => rfl
  | some n =>
    simp only [Option.map_some]
    split
    · exact congrArg some (keeps _ _ _ _)
    · rfl

/-- Writing down the same numbers twice is writing them down once. -/
theorem recordNumbers_recordNumbers (numbering : Numbering) :
    (g.recordNumbers numbering).recordNumbers numbering = g.recordNumbers numbering := by
  simp only [recordNumbers, List.map_map, mk.injEq, true_and, and_true]
  refine List.map_congr_left fun n _ => ?_
  simp only [Function.comp_apply]
  cases pre : numbering.preNum? n.id <;> cases post : numbering.postNum? n.id <;>
    cases rev : numbering.revPostNum? n.id <;> simp [pre, post, rev]

theorem recordNumbers_compound (numbering : Numbering) (id : NodeId) :
    ((g.recordNumbers numbering).notes? id).bind Notes.compound =
      (g.notes? id).bind Notes.compound := by
  have same : ((g.recordNumbers numbering).notes? id).map Notes.compound =
      (g.notes? id).map Notes.compound := recordNumbers_notes? (fun _ _ _ _ => rfl) numbering id
  simpa [Option.bind_map, Function.comp_def] using
    congrArg (Option.bind · fun compound => compound) same

theorem number_eq_ok {entry : NodeId} (entered : g.entry? = some entry) :
    g.number = .ok (g.numbering entry, g.recordNumbers (g.numbering entry)) := by
  rw [number, FlowGraph.entry, entered]
  rfl

theorem number_eq_ok_iff {numbering : Numbering} :
    g.number = .ok (numbering, h) ↔
      ∃ entry, g.entry? = some entry ∧ numbering = g.numbering entry ∧
        h = g.recordNumbers (g.numbering entry) := by
  cases entered : g.entry? with
  | none => simp [number, entry, entered, bind, Except.bind]
  | some entry =>
    rw [number_eq_ok entered]
    simp [eq_comm]

theorem dominators_eq_ok {entry : NodeId} (entered : g.entry? = some entry) :
    g.dominators = .ok (g.dominatorsFrom entry) := by
  rw [dominators, FlowGraph.entry, entered]
  rfl

/-- The invariant does not depend on annotations. -/
theorem WellFormed.of_sameCore (wf : g.WellFormed) (same : h.SameCore g) : h.WellFormed := by
  have bare := wf.resetAnnotations
  rw [← same] at bare
  have reset (n : Node) (member : n ∈ h.nodes) :
      { n with notes := .ofAttrs n.attrs } ∈ h.resetAnnotations.nodes :=
    List.mem_map_of_mem member
  exact {
    idsNodup := by simpa using bare.idsNodup
    idsBelow := fun id live => bare.idsBelow id (by simpa using live)
    labelsNodup := by
      simpa [FlowGraph.resetAnnotations, Function.comp_def] using bare.labelsNodup
    oneEntry := fun m left n right entering entered =>
      bare.oneEntry { m with notes := .ofAttrs m.attrs } (reset m left)
        { n with notes := .ofAttrs n.attrs } (reset n right) entering entered
    edgesLive := by simpa using bare.edgesLive
    endsNodup := bare.endsNodup }

end ControlFlow.FlowGraph
