import ControlFlow.Interval.Loops
import ControlFlow.Proofs.Renumbering.Merge
import ControlFlow.Proofs.Renumbering.Search

/-! Intervals and derived sequences of renumbered graphs. Intervals grow along a numbering, by tests
of membership alone, so corresponding nodes are put into corresponding intervals. The graph of the
intervals is built anew from their labels, and is the same but for its name. So the graphs of two
derived sequences differ only in numbers, level by level. -/
namespace ControlFlow

variable {ren : NodeId → NodeId} {g h : FlowGraph}

namespace Interval

/-- An interval of nodes that have got new numbers. -/
def renumber (ren : NodeId → NodeId) (i : Interval) : Interval := ⟨ren i.header, i.nodes.map ren⟩

variable (same : g.Renumbers ren h)
include same

theorem admits_renumber (taken members : List NodeId) (id : NodeId) :
    admits h (taken.map ren) (members.map ren) (ren id) = admits g taken members id := by
  simp only [admits, same.contains_map, same.preds, List.isEmpty_map, List.all_map,
    Function.comp_def]

theorem sweep_renumber (order taken members : List NodeId) :
    sweep h (order.map ren) (taken.map ren) (members.map ren) =
      (sweep g order taken members).map ren := by
  rw [sweep, sweep]
  induction order generalizing members with
  | nil => rfl
  | cons id order ih =>
    rw [List.map_cons, List.foldl_cons, List.foldl_cons, admits_renumber same]
    split
    · rw [← ih, List.map_append, List.map_singleton]
    · exact ih members

theorem grow_renumber (order taken : List NodeId) (bound : Nat) (members : List NodeId) :
    grow h (order.map ren) (taken.map ren) bound (members.map ren) =
      (grow g order taken bound members).map ren := by
  induction bound generalizing members with
  | zero => rfl
  | succ bound ih =>
    simp only [grow, sweep_renumber same, List.length_map, ih]
    split <;> rfl

theorem newHeaders_renumber (order taken members : List NodeId) :
    newHeaders h (order.map ren) (taken.map ren) (members.map ren) =
      (newHeaders g order taken members).map ren := by
  simp only [newHeaders, List.filter_map, Function.comp_def, same.contains_map, same.preds,
    List.any_map]

theorem partitionWithin_renumber (order : List NodeId) (bound : Nat) (placed queue : List NodeId) :
    partitionWithin h (order.map ren) bound (placed.map ren) (queue.map ren) =
      (partitionWithin g order bound placed queue).map (renumber ren) := by
  induction bound generalizing placed queue with
  | zero => rfl
  | succ bound ih =>
    cases queue with
    | nil => rfl
    | cons header queue =>
      have members := grow_renumber same order (placed ++ header :: queue) order.length [header]
      simp only [List.map_append, List.map_cons, List.map_nil] at members
      simp only [partitionWithin, List.map_cons, List.length_map, members, renumber, ← ih,
        List.map_append, ← newHeaders_renumber same]

end Interval

namespace FlowGraph

/-- One graph is the other under another name, and the next numbers are the same. -/
structure Twins (g h : FlowGraph) : Prop where
  renumbers : Renumbers id g h
  nextNode : g.nextNode = h.nextNode

namespace Renumbers

variable (same : Renumbers ren g h)
include same

/-! ## Intervals -/

theorem intervalsFrom (start : NodeId) :
    h.intervalsFrom (ren start) = (g.intervalsFrom start).map (Interval.renumber ren) := by
  rw [FlowGraph.intervalsFrom, FlowGraph.intervalsFrom, same.numbering,
    Numbering.reversePostorder_renumber, same.size]
  exact Interval.partitionWithin_renumber same _ g.size [] [start]

theorem intervals : Agree (fun found found' => found' = found.map (Interval.renumber ren))
    g.intervals h.intervals := by
  refine same.entry.bind ?_
  rintro entry _ rfl
  exact same.intervalsFrom entry

/-! ## The graph of the intervals -/

theorem intervalEdges (intervals : List Interval) :
    h.intervalEdges (intervals.map (Interval.renumber ren)) =
      (g.intervalEdges intervals).map
        (Prod.map (Interval.renumber ren) (Interval.renumber ren)) := by
  simp only [FlowGraph.intervalEdges, List.flatMap_map, List.map_flatMap, List.filter_map,
    List.map_map, Function.comp_def, Interval.renumber, same.bne, same.preds, List.any_map,
    same.contains_map, Prod.map]

theorem addInterval {derived derived' : FlowGraph} (twins : Twins derived derived')
    (interval : Interval) : Agree Twins (derived.addInterval g interval)
      (derived'.addInterval h (interval.renumber ren)) := by
  have marks : ( h.entry? == some (ren interval.header)) =
      ( g.entry? == some interval.header) := by
    rw [same.entry_eq, same.beq_option]
  simp only [FlowGraph.addInterval, Interval.renumber, marks, same.label]
  refine (twins.renumbers.addNode _ _).bind ?_
  rintro _ _ ⟨rfl, rfl⟩
  exact ⟨twins.renumbers.insertNode twins.nextNode _ _, congrArg (· + 1) twins.nextNode⟩

theorem addIntervalEdge {derived derived' : FlowGraph} (twins : Twins derived derived')
    (pair : Interval × Interval) : Agree Twins (derived.addIntervalEdge g pair)
      (derived'.addIntervalEdge h (pair.map (Interval.renumber ren) (Interval.renumber ren))) := by
  have found (label : String) : derived'.find? label = derived.find? label := by
    rw [twins.renumbers.find?, Option.map_id_fun, id_eq]
  simp only [FlowGraph.addIntervalEdge, Prod.map, Interval.renumber, same.label, found]
  split
  · next source target _ _ =>
    refine (twins.renumbers.addEdge source target .empty).bind ?_
    rintro ⟨edge, k⟩ ⟨edge', k'⟩ ⟨rfl, rfl⟩
    exact ⟨twins.renumbers.insertEdge _, twins.nextNode⟩
  · exact twins

theorem collapse (intervals : List Interval) : Agree Twins (g.collapse intervals)
    (h.collapse (intervals.map (Interval.renumber ren))) := by
  have bare : Twins (empty g.name) (empty h.name) :=
    ⟨⟨Function.injective_id, rfl, rfl⟩, rfl⟩
  rw [FlowGraph.collapse, FlowGraph.collapse, same.intervalEdges]
  -- First the nodes, numbered in the order of the intervals, then the edges between them.
  refine Agree.bind (R := Twins) ?_ fun derived derived' twins => ?_
  · refine Agree.foldlM (Q := fun i i' => i' = i.renumber ren) ?_ ?_ bare
    · rintro k k' i _ twins rfl
      exact same.addInterval twins i
    · exact List.forall₂_map_right_iff.mpr (List.forall₂_same.mpr fun _ _ => rfl)
  · refine Agree.foldlM (Q := fun pair pair' =>
      pair' = pair.map (Interval.renumber ren) (Interval.renumber ren)) ?_ ?_ twins
    · rintro k k' pair _ twins rfl
      exact same.addIntervalEdge twins pair
    · exact List.forall₂_map_right_iff.mpr (List.forall₂_same.mpr fun _ _ => rfl)

end Renumbers

end FlowGraph

/-! ## Levels -/

/-- Two levels of derived sequences differ only in numbers. -/
def Level.Alike (level level' : Level) : Prop :=
  ∃ ren, level.graph.Renumbers ren level'.graph ∧
    level'.intervals = level.intervals.map (Interval.renumber ren)

namespace FlowGraph.Renumbers

theorem levelsWithin (same : g.Renumbers ren h) (bound : Nat) :
    Agree (List.Forall₂ Level.Alike) (g.levelsWithin bound) (h.levelsWithin bound) := by
  induction bound generalizing g h ren with
  | zero => exact List.Forall₂.nil
  | succ bound ih =>
    rw [FlowGraph.levelsWithin, FlowGraph.levelsWithin]
    refine same.intervals.bind ?_
    rintro intervals _ rfl
    refine (same.collapse intervals).bind fun derived derived' twins => ?_
    rw [twins.renumbers.size, same.size]
    split
    · exact (ih twins.renumbers).bind fun levels levels' alike => .cons ⟨ren, same, rfl⟩ alike
    · exact .cons ⟨ren, same, rfl⟩ .nil

theorem derivedSequence (same : g.Renumbers ren h) :
    Agree (List.Forall₂ Level.Alike) g.derivedSequence h.derivedSequence := by
  rw [FlowGraph.derivedSequence, FlowGraph.derivedSequence, same.size]
  exact same.entry.bind fun _ _ _ => same.levelsWithin g.size

end FlowGraph.Renumbers

end ControlFlow
