import ControlFlow.Proofs.Renumbering.Hammock
import ControlFlow.Proofs.Renumbering.Structuring
import ControlFlow.Strategy

/-! Results depend on contents only. Two graphs with the same contents can have been built in any
order, can have lost nodes on the way and can bear any name; they are structured, annotated and
divided into intervals alike. Where a result refers to a node, it is compared by the node's label.
All that is asked of the graphs is the representation invariant, which every change keeps. -/
namespace ControlFlow

/-- What is known of a node, with labels for the nodes that it refers to. -/
structure NamedNotes where
  preNum : Nat
  postNum : Nat
  revPostNum : Nat
  loopHead : Option String
  loopKind : Option LoopKind
  loopFollow : Option String
  follow : Option String
  isCondNode : Bool
  isLatch : Bool
  compound : Option Condition
deriving DecidableEq, Repr

/-- Annotations with labels in place of numbers. -/
def Notes.named (g : FlowGraph) (notes : Notes) : NamedNotes where
  preNum := notes.preNum
  postNum := notes.postNum
  revPostNum := notes.revPostNum
  loopHead := notes.loopHead.map g.label
  loopKind := notes.loopKind
  loopFollow := notes.loopFollow.map g.label
  follow := notes.follow.map g.label
  isCondNode := notes.isCondNode
  isLatch := notes.isLatch
  compound := notes.compound

/-- The label of the header of an interval, and those of its nodes in their order. -/
def Interval.named (g : FlowGraph) (i : Interval) : String × List String :=
  (g.label i.header, i.nodes.map g.label)

/-- Two levels have the same graph and the same intervals, by label. -/
structure Level.Same (level level' : Level) : Prop where
  graph : level.graph.same level'.graph = true
  intervals : level.intervals.map (Interval.named level.graph) =
    level'.intervals.map (Interval.named level'.graph)

namespace FlowGraph

/-- What is known of the node with a label. -/
def namedNotes? (g : FlowGraph) (label : String) : Option NamedNotes :=
  ((g.find? label).bind g.notes?).map (Notes.named g)

variable {ren : NodeId → NodeId} {g h : FlowGraph}

theorem Renumbers.named_intervals (same : Renumbers ren g h) (intervals : List Interval) :
    (intervals.map (Interval.renumber ren)).map (Interval.named h) =
      intervals.map (Interval.named g) := by
  rw [List.map_map]
  refine List.map_congr_left fun i _ => ?_
  rw [Function.comp_apply, Interval.named, Interval.named, ← same.label i.header,
    ← same.labels i.nodes]
  rfl

theorem Annotated.named_notes (same : Annotated ren g h) (notes : Notes) :
    (notes.renumber ren).named h = notes.named g := by
  have label : h.label ∘ ren = g.label := funext same.renumbers.label
  simp only [Notes.named, Notes.renumber, Option.map_map, label]

theorem Annotated.namedNotes? (same : Annotated ren g h) (label : String) :
    h.namedNotes? label = g.namedNotes? label := by
  simp only [FlowGraph.namedNotes?, same.renumbers.find?, Option.bind_map, Function.comp_def,
    same.notes?, Option.map_bind, Option.map_map, same.named_notes]

end FlowGraph

theorem Level.Alike.same {level level' : Level} (alike : level.Alike level') :
    level.Same level' := by
  obtain ⟨ren, same, intervals⟩ := alike
  exact ⟨same.same_eq, by rw [intervals, same.named_intervals]⟩

namespace FlowGraph

variable {g h : FlowGraph}

/-- Graphs with the same contents are both refused or both structured, with the same regions, the
same remainder and the same contents left; structuring by intervals annotates their nodes alike.
Their intervals and their derived sequences are the same by label, level by level. -/
theorem results_of_same (wf : g.WellFormed) (wf' : h.WellFormed) (same : g.same h = true) :
    (∀ strategy : Strategy,
      Agree (fun (analysis, left) (analysis', left') =>
          analysis = analysis' ∧ left.same left' = true ∧
            (strategy = .interval → ∀ label, left.namedNotes? label = left'.namedNotes? label))
        (strategy.analyze g) (strategy.analyze h)) ∧
    Agree (fun found found' =>
        found.map (Interval.named g) = found'.map (Interval.named h)) g.intervals h.intervals ∧
    Agree (List.Forall₂ Level.Same) g.derivedSequence h.derivedSequence := by
  obtain ⟨ren, renumbers, -⟩ := exists_renumbers wf wf' same
  refine ⟨?_, ?_, ?_⟩
  · intro strategy
    cases strategy with
    | hammock =>
      exact (Hammock.reduce_same wf wf' same).mono fun _ _ ⟨analysis, left⟩ =>
        ⟨analysis, left, nofun⟩
    | interval =>
      refine renumbers.structureIntervals.bind ?_
      rintro ⟨regions, left⟩ ⟨_, left'⟩ ⟨rfl, annotated⟩
      exact ⟨rfl, annotated.renumbers.same_eq, fun _ label => (annotated.namedNotes? label).symm⟩
  · refine renumbers.intervals.mono ?_
    rintro found _ rfl
    exact (renumbers.named_intervals found).symm
  · exact renumbers.derivedSequence.mono fun _ _ alike => alike.imp fun _ _ => Level.Alike.same

/-- The graph of a loop with a block in front of it under another name. Its nodes were added in
another order, between nodes that are gone, and one of them notes a follow from an earlier run. -/
def scattered : FlowGraph where
  name := "scattered"
  attrs := .ofList [("rankdir", "LR")]
  nodes := [⟨5, "A", .ofList [("entry", "true")], .ofAttrs .empty⟩,
    ⟨2, "B", .empty, { Notes.ofAttrs .empty with follow := some 7 }⟩,
    ⟨0, "C", .empty, .ofAttrs .empty⟩, ⟨7, "D", .empty, .ofAttrs .empty⟩]
  edges := [⟨5, 2, .empty⟩, ⟨2, 0, .ofList [("cond", "true")]⟩,
    ⟨2, 7, .ofList [("cond", "false")]⟩, ⟨0, 2, .empty⟩]
  nextNode := 9
  nextEdge := 12

theorem scattered_results : Hammock.repeating.WellFormed ∧ scattered.WellFormed ∧
    Hammock.repeating.same scattered = true ∧
    (∃ left, Strategy.hammock.analyze scattered =
      .ok (⟨[.preLoop "B" "C" "D", .seq "A" "B"], none⟩, left)) ∧
    (∃ left left', Strategy.interval.analyze Hammock.repeating =
        .ok (⟨[.loop .pre "B" "C" (some "D")], none⟩, left) ∧
      Strategy.interval.analyze scattered =
        .ok (⟨[.loop .pre "B" "C" (some "D")], none⟩, left') ∧ left.same left' = true ∧
      ∀ label, left.namedNotes? label = left'.namedNotes? label) ∧
    (∃ found, scattered.intervals = .ok found ∧
      found.map (Interval.named scattered) = [("A", ["A"]), ("B", ["B", "D", "C"])]) ∧
    Agree (List.Forall₂ Level.Same) Hammock.repeating.derivedSequence
      scattered.derivedSequence := by
  have wf : Hammock.repeating.WellFormed := by decide
  have wf' : scattered.WellFormed := by decide
  have same : Hammock.repeating.same scattered = true := by rfl
  obtain ⟨structured, divided, derived⟩ := results_of_same wf wf' same
  refine ⟨wf, wf', same, ?_, ?_, ?_, derived⟩
  · have outcome : (Strategy.hammock.analyze Hammock.repeating).map Prod.fst =
        .ok ⟨[.preLoop "B" "C" "D", .seq "A" "B"], none⟩ := by rfl
    obtain ⟨⟨analysis, _⟩, ran, rfl⟩ := map_eq_ok_iff.mp outcome
    have reduced := structured .hammock
    rw [ran] at reduced
    obtain ⟨⟨_, left⟩, ran', rfl, -⟩ := reduced.exists_ok
    exact ⟨left, ran'⟩
  · have outcome : (Strategy.interval.analyze Hammock.repeating).map Prod.fst =
        .ok ⟨[.loop .pre "B" "C" (some "D")], none⟩ := by rfl
    obtain ⟨⟨analysis, left⟩, ran, rfl⟩ := map_eq_ok_iff.mp outcome
    have annotated := structured .interval
    rw [ran] at annotated
    obtain ⟨⟨_, left'⟩, ran', rfl, same, notes⟩ := annotated.exists_ok
    exact ⟨left, left', ran, ran', same, notes rfl⟩
  · have found : Hammock.repeating.intervals = .ok [⟨0, [0]⟩, ⟨1, [1, 3, 2]⟩] := by rfl
    rw [found] at divided
    obtain ⟨found', ran, named⟩ := divided.exists_ok
    exact ⟨found', ran, named.symm⟩

end FlowGraph

end ControlFlow
