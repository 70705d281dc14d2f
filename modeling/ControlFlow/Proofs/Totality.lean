import ControlFlow.Proofs.Hammock.Reducibility
import ControlFlow.Proofs.InPlace
import ControlFlow.Proofs.Interval.StructuredLoops

/-! Structuring is total on valid graphs and does nothing to the others. The only check that a graph
can fail is the first one, before anything is changed: from then on every merge takes different live
nodes, every edge that is added leads between nodes that have none yet, and control still enters a
graph whose nodes it all reaches. The graph that is left behind is valid again, and is entered at a
node of the same label. -/
namespace ControlFlow.Strategy

variable {g h : FlowGraph} {entry : NodeId}

/-- Structuring gives back what the check of the graph does not let pass. -/
theorem analyze_of_invalid (strategy : Strategy) {error : GraphError}
    (invalid : g.validate = .error error) : strategy.analyze g = .error error := by
  cases strategy with
  | hammock =>
    show Hammock.reduce g = .error error
    rw [Hammock.reduce, Hammock.reduceObserved, invalid]
    rfl
  | interval =>
    show (g.structureIntervals >>= _) = .error error
    rw [FlowGraph.structureIntervals, invalid]
    rfl

theorem inPlace_of_invalid (strategy : Strategy) {error : GraphError}
    (invalid : g.validate = .error error) : strategy.inPlace.runOn g = (.error error, g) := by
  have checked := Procedure.runOn_check FlowGraph.validate g
  rw [invalid] at checked
  cases strategy with
  | hammock =>
    show InPlace.reduce.runOn g = _
    rw [InPlace.reduce, Procedure.runOn_bind, checked]
  | interval =>
    show (InPlace.structureIntervals >>= _).runOn g = _
    rw [InPlace.structureIntervals, Procedure.runOn_bind, Procedure.runOn_bind, checked]

/-- A valid graph is structured, and what is left of it is valid. -/
theorem analyze_of_valid (strategy : Strategy) (wf : g.WellFormed) (valid : g.validate = .ok ()) :
    ∃ analysis h start entry, strategy.analyze g = .ok (analysis, h) ∧ g.entry? = some start ∧
      h.WellFormed ∧ h.validate = .ok () ∧ h.entry? = some entry ∧
      h.label entry = g.label start := by
  obtain ⟨start, entered, all⟩ := (FlowGraph.validate_eq_ok_iff wf).mp valid
  cases strategy with
  | hammock =>
    obtain ⟨analysis, h, entry, ran, reduced, -⟩ := Hammock.reduce_reduced wf entered all
    have left := (FlowGraph.validate_eq_ok_iff reduced.wf).mpr
      ⟨entry, reduced.entered, reduced.all⟩
    exact ⟨analysis, h, start, entry, ran, entered, reduced.wf, left, reduced.entered,
      reduced.label_entry⟩
  | interval =>
    obtain ⟨regions, h, entry, loops, ran, entered', structured⟩ :=
      FlowGraph.structureIntervals_reported wf valid
    obtain rfl : entry = start := Option.some.inj (entered'.symm.trans entered)
    have left := (FlowGraph.validate_eq_ok_iff structured.wf).mpr
      ⟨entry, structured.entered, structured.all⟩
    refine ⟨⟨regions, none⟩, h, entry, entry, ?_, entered, structured.wf, left,
      structured.entered, structured.label⟩
    show (g.structureIntervals >>= _) = _
    rw [ran]
    rfl

/-- Structuring in place fails only where the graph is not valid, with the error of the check and the
graph as it was. -/
theorem inPlace_total_or_untouched (strategy : Strategy) (wf : g.WellFormed) :
    (∀ error, g.validate = .error error →
      strategy.analyze g = .error error ∧ strategy.inPlace.runOn g = (.error error, g)) ∧
    (g.validate = .ok () → ∃ analysis h start entry,
      strategy.analyze g = .ok (analysis, h) ∧ strategy.inPlace.runOn g = (.ok analysis, h) ∧
      h.WellFormed ∧ h.validate = .ok () ∧ g.entry? = some start ∧ h.entry? = some entry ∧
      h.label entry = g.label start) := by
  constructor
  · intro error invalid
    exact ⟨strategy.analyze_of_invalid invalid, strategy.inPlace_of_invalid invalid⟩
  · intro valid
    obtain ⟨analysis, h, start, entry, ran, entered, left⟩ := strategy.analyze_of_valid wf valid
    have performs := strategy.performs g
    rw [ran] at performs
    obtain ⟨wf', valid', entered', label⟩ := left
    exact ⟨analysis, h, start, entry, ran, performs, wf', valid', entered, entered', label⟩

/-- A block that notes a follow from an earlier run, and one that control does not reach. -/
def stranded : FlowGraph where
  name := "stranded"
  attrs := .empty
  nodes := [⟨0, "A", .ofList [("entry", "true")], { Notes.ofAttrs .empty with follow := some 1 }⟩,
    ⟨1, "B", .empty, .ofAttrs .empty⟩, ⟨2, "C", .empty, .ofAttrs .empty⟩]
  edges := [⟨0, 1, .empty⟩, ⟨2, 1, .empty⟩]
  nextNode := 3
  nextEdge := 2

theorem stranded_untouched_repeating_structured :
    stranded.WellFormed ∧ stranded.validate = .error (.unreachable "C" "A") ∧
    interval.inPlace.runOn stranded = (.error (.unreachable "C" "A"), stranded) ∧
    Hammock.repeating.WellFormed ∧ Hammock.repeating.validate = .ok () ∧
    ∃ analysis h start entry, hammock.analyze Hammock.repeating = .ok (analysis, h) ∧
      hammock.inPlace.runOn Hammock.repeating = (.ok analysis, h) ∧ h.validate = .ok () ∧
      Hammock.repeating.entry? = some start ∧ h.entry? = some entry ∧
      h.label entry = Hammock.repeating.label start := by
  have wfStranded : stranded.WellFormed := by decide
  have invalid : stranded.validate = .error (.unreachable "C" "A") := by rfl
  have wf : Hammock.repeating.WellFormed := by decide
  have valid : Hammock.repeating.validate = .ok () := by rfl
  obtain ⟨untouched, -⟩ := interval.inPlace_total_or_untouched wfStranded
  obtain ⟨-, structured⟩ := hammock.inPlace_total_or_untouched wf
  obtain ⟨analysis, h, start, entry, ran, ranInPlace, -, left⟩ := structured valid
  exact ⟨wfStranded, invalid, (untouched _ invalid).2, wf, valid, analysis, h, start, entry, ran,
    ranInPlace, left⟩

end ControlFlow.Strategy
