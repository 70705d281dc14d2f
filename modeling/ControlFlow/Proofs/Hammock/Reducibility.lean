import ControlFlow.Proofs.Hammock.Executions
import ControlFlow.Proofs.Interval.Reducibility

/-! A reduction leads from a graph to quotients of it. Merging a region makes its blocks one part with
the head on top, so all of the merged graph can be reached, control enters it where it did before, and
it is reducible exactly when the graph was. A graph that is reduced to a single block is therefore
reducible. The region merged first has a block that is entered from one block only, so the intervals
of the graph make a smaller one, and its derived sequence ends in a single node too. -/
namespace ControlFlow.Hammock

open FlowGraph

variable {g h k : FlowGraph} {start entry merged a b n : NodeId} {region : Region} {layout : Layout}

namespace Layout

/-- The node that stands for a node when the blocks of a region are merged. -/
def rep (layout : Layout) (merged n : NodeId) : NodeId :=
  if n ∈ layout.members then merged else n

/-- The node at which control enters what a node stands for. -/
def top (layout : Layout) (merged a : NodeId) : NodeId := if a = merged then layout.head else a

theorem rep_inside (inside : n ∈ layout.members) : layout.rep merged n = merged := if_pos inside

theorem rep_outside (outside : n ∉ layout.members) : layout.rep merged n = n := if_neg outside

theorem top_merged : layout.top merged merged = layout.head := if_pos rfl

theorem top_other (other : a ≠ merged) : layout.top merged a = a := if_neg other

end Layout

/-! ## One merge -/

namespace Shaped

variable (wf : g.WellFormed) (shaped : Shaped g region layout)
  (done : g.Merged layout.head layout.members (g.loopEdge? region) merged h)

include done in
theorem rep_live (old : n ∈ g.nodeIds) : layout.rep merged n ∈ h.nodeIds := by
  by_cases inside : n ∈ layout.members
  · rw [Layout.rep_inside inside]
    exact done.nodeIds.mpr (.inr rfl)
  · rw [Layout.rep_outside inside]
    exact done.nodeIds.mpr (.inl ⟨old, inside⟩)

include shaped done in
theorem rep_top (stays : a ∈ h.nodeIds) : layout.rep merged (layout.top merged a) = a := by
  rcases done.nodeIds.mp stays with ⟨old, outside⟩ | rfl
  · rw [Layout.top_other (done.ne_merged old), Layout.rep_outside outside]
  · rw [Layout.top_merged, Layout.rep_inside shaped.head_mem]

include done in
theorem label_top (stays : a ∈ h.nodeIds) : g.label (layout.top merged a) = h.label a := by
  rcases done.nodeIds.mp stays with ⟨old, outside⟩ | rfl
  · rw [Layout.top_other (done.ne_merged old), done.labelOutside old outside]
  · rw [Layout.top_merged, done.labelMerged]

include shaped done in
/-- The head leads to every block of a region without leaving it. -/
theorem exists_walk_rep (old : n ∈ g.nodeIds) :
    ∃ passed, g.Walk (layout.top merged (layout.rep merged n)) n passed ∧
      ∀ m ∈ passed, layout.rep merged m = layout.rep merged n := by
  by_cases inside : n ∈ layout.members
  · obtain ⟨passed, walk, within⟩ := shaped.exists_walk inside
    rw [Layout.rep_inside inside, Layout.top_merged]
    exact ⟨passed, walk, fun m member => Layout.rep_inside (within m member)⟩
  · rw [Layout.rep_outside inside, Layout.top_other (done.ne_merged old)]
    refine ⟨[n], .here, fun m member => ?_⟩
    rw [List.mem_singleton.mp member, Layout.rep_outside inside]

include wf shaped done

/-- An edge inside a region leads on in the order of its blocks, or back to its head. -/
theorem ascends {m : NodeId} (edge : g.Step m n)
    (same : layout.rep merged m = layout.rep merged n) :
    layout.members.idxOf m < layout.members.idxOf n ∨
      layout.top merged (layout.rep merged n) = n := by
  by_cases right : n ∈ layout.members
  · rw [Layout.rep_inside right] at same ⊢
    rw [Layout.top_merged]
    have left : m ∈ layout.members := by
      by_contra outside
      rw [Layout.rep_outside outside] at same
      exact done.ne_merged (wf.source_live edge) same
    rcases shaped.within edge left right with inner | ⟨-, back⟩
    · exact (shaped.inner_ascends inner).imp_right Eq.symm
    · exact .inr back.symm
  · right
    rw [Layout.rep_outside right, Layout.top_other (done.ne_merged (wf.target_live edge))]

variable (live : ∀ id ∈ layout.members, id ∈ g.nodeIds)
include live

/-- An edge stays in a region or is an edge of the merged graph. -/
theorem step_rep {m : NodeId} (edge : g.Step m n) :
    layout.rep merged m = layout.rep merged n ∨
      h.Step (layout.rep merged m) (layout.rep merged n) ∧
        layout.top merged (layout.rep merged n) = n := by
  have collapse := shaped.collapse wf done live
  have target := done.ne_merged (wf.target_live edge)
  by_cases left : m ∈ layout.members <;> by_cases right : n ∈ layout.members
  · left
    rw [Layout.rep_inside left, Layout.rep_inside right]
  · right
    rw [Layout.rep_inside left, Layout.rep_outside right, Layout.top_other target]
    refine ⟨collapse.step'_iff.mpr (.inr (.inr (.inl ⟨rfl, right, ?_⟩))), rfl⟩
    exact shaped.leaving edge left right ▸ edge
  · right
    have entering := shaped.entering edge left right
    rw [Layout.rep_outside left, Layout.rep_inside right, Layout.top_merged]
    exact ⟨collapse.step'_iff.mpr (.inr (.inl ⟨rfl, left, entering ▸ edge⟩)), entering.symm⟩
  · right
    rw [Layout.rep_outside left, Layout.rep_outside right, Layout.top_other target]
    exact ⟨collapse.step'_iff.mpr (.inl ⟨edge, left, right⟩), rfl⟩

/-- An edge of the merged graph is an edge from the part that its source stands for. -/
theorem step_lifts (crossing : h.Step a b) :
    ∃ m ∈ g.nodeIds, layout.rep merged m = a ∧ g.Step m (layout.top merged b) := by
  rcases (shaped.collapse wf done live).step'_iff.mp crossing with
    ⟨edge, left, right⟩ | ⟨rfl, left, edge⟩ | ⟨rfl, right, edge⟩ | ⟨rfl, rfl, edge⟩
  · refine ⟨a, wf.source_live edge, Layout.rep_outside left, ?_⟩
    rwa [Layout.top_other (done.ne_merged (wf.target_live edge))]
  · refine ⟨a, wf.source_live edge, Layout.rep_outside left, ?_⟩
    rwa [Layout.top_merged]
  · refine ⟨layout.exit, wf.source_live edge, Layout.rep_inside shaped.exit_mem, ?_⟩
    rwa [Layout.top_other (done.ne_merged (wf.target_live edge))]
  · refine ⟨layout.exit, wf.source_live edge, Layout.rep_inside shaped.exit_mem, ?_⟩
    rwa [Layout.top_merged]

/-- A merge of a region makes it one part and leaves every other node a part of its own. -/
theorem isQuotient (startLive : start ∈ g.nodeIds) (all : ∀ n ∈ g.nodeIds, g.Reaches start n)
    (startInside : start ∈ layout.members → start = layout.head) :
    g.IsQuotient start h (layout.rep merged start) (layout.rep merged) (layout.top merged) where
  wf := done.wf
  live := rep_live done startLive
  top_start := by
    by_cases inside : start ∈ layout.members
    · rw [Layout.rep_inside inside, Layout.top_merged, startInside inside]
    · rw [Layout.rep_outside inside, Layout.top_other (done.ne_merged startLive)]
  top_reached a stays := by
    rcases done.nodeIds.mp stays with ⟨old, -⟩ | rfl
    · rw [Layout.top_other (done.ne_merged old)]
      exact all a old
    · rw [Layout.top_merged]
      exact all _ (live _ shaped.head_mem)
  rep_top a stays := shaped.rep_top done stays
  label_top a stays := label_top done stays
  rep_live n reached := rep_live done (reached.live wf startLive)
  step m n _ edge := shaped.step_rep wf done live edge
  step_lifts a b crossing := by
    obtain ⟨m, old, same, edge⟩ := shaped.step_lifts wf done live crossing
    exact ⟨m, all m old, same, edge⟩
  within n reached := shaped.exists_walk_rep done (reached.live wf startLive)

end Shaped

/-- What merges make of a graph that control enters at `start`: a quotient that control enters, and
that is reducible only if the graph is. -/
structure Reduced (g : FlowGraph) (start : NodeId) (h : FlowGraph) (entry : NodeId) : Prop where
  entered : h.entry? = some entry
  quotient : ∃ rep top, g.IsQuotient start h entry rep top
  reducible : h.Reducible entry → g.Reducible start

namespace Reduced

theorem refl (wf : g.WellFormed) (entered : g.entry? = some start)
    (all : ∀ n ∈ g.nodeIds, g.Reaches start n) : Reduced g start g start where
  entered := entered
  quotient := ⟨id, id, .refl wf (entry_live entered) all⟩
  reducible := id

theorem trans {last : NodeId} (first : Reduced g start h entry) (second : Reduced h entry k last) :
    Reduced g start k last where
  entered := second.entered
  quotient := by
    obtain ⟨rep, top, quotient⟩ := first.quotient
    obtain ⟨rep', top', quotient'⟩ := second.quotient
    exact ⟨rep' ∘ rep, top ∘ top', quotient.trans quotient'⟩
  reducible := first.reducible ∘ second.reducible

variable (reduced : Reduced g start h entry)
include reduced

theorem wf : h.WellFormed := by
  obtain ⟨rep, top, quotient⟩ := reduced.quotient
  exact quotient.wf

/-- All of the reduced graph can be reached. -/
theorem all : ∀ n ∈ h.nodeIds, h.Reaches entry n := by
  obtain ⟨rep, top, quotient⟩ := reduced.quotient
  intro n live
  exact quotient.reaches live

/-- The entry keeps its label. -/
theorem label_entry : h.label entry = g.label start := by
  obtain ⟨rep, top, quotient⟩ := reduced.quotient
  rw [← quotient.label_top entry quotient.live, quotient.top_start]

end Reduced

/-- A merge of a match makes a graph smaller and reduces it. A graph with a match has a block that is
entered from one block only. -/
theorem mergeRegion_reduced (wf : g.WellFormed) (entered : g.entry? = some start)
    (all : ∀ n ∈ g.nodeIds, g.Reaches start n)
    (found : firstMatch? g (g.dominatorsFrom start) = some region) :
    ∃ merged h entry, g.mergeRegion region = .ok (merged, h) ∧ Reduced g start h entry ∧
      h.size < g.size ∧ g.Contracts start := by
  obtain ⟨layout, head, fits⟩ := matched_of_firstMatch found
  obtain ⟨live, startInside⟩ := fits.live wf entered head
  have shaped := fits.shaped
  have startLive := entry_live entered
  obtain ⟨merged, h, ran, done⟩ := shaped.mergeRegion_merged wf live
  have quotient := shaped.isQuotient wf done live startLive all startInside
  obtain ⟨b, inside, different, p, single⟩ := shaped.exists_single_pred
  refine ⟨merged, h, layout.rep merged start, ran, ?_, ?_, b, live b inside, ?_, ?_⟩
  · refine ⟨done.entry entered, ⟨_, _, quotient⟩, ?_⟩
    refine quotient.reducible_of layout.members.idxOf (layout.members.length + 1) wf startLive ?_ ?_
    · intro n reached
      exact Nat.lt_succ_of_le List.idxOf_le_length
    · intro m n reached edge same
      exact shaped.ascends wf done edge same
  · refine quotient.size_lt wf startLive (live b inside) ?_
    intro a stays same
    rcases done.nodeIds.mp stays with ⟨old, outside⟩ | rfl
    · rw [Layout.top_other (done.ne_merged old)] at same
      exact outside (same ▸ inside)
    · exact different (Layout.top_merged.symm.trans same).symm
  · rintro rfl
    exact different (startInside inside)
  · have listed : (g.preds b).Perm [p] := by
      refine (List.perm_ext_iff_of_nodup (wf.preds_nodup b) (List.nodup_singleton p)).mpr ?_
      intro a
      rw [mem_preds_iff_mem_succs, List.mem_singleton]
      exact single a
    exact listed.length_eq

/-! ## Whole runs -/

/-- A run reduces a graph as far as it gets. It is complete when one node is left, and has nothing to
merge in a graph in which every block besides the entry is entered from two blocks or more. -/
theorem runWithin_reduced {bound : Nat} (found : List Region) (wf : g.WellFormed)
    (entered : g.entry? = some start) (all : ∀ n ∈ g.nodeIds, g.Reaches start n)
    (enough : g.size ≤ bound) :
    ∃ analysis h entry, Id.run (runWithin .silent bound g found) = .ok (analysis, h) ∧
      Reduced g start h entry ∧ (analysis.isComplete = true ↔ h.size = 1) ∧
      (h = g ∨ g.Contracts start) := by
  have inhabited := size_pos_of_entry entered
  induction bound generalizing g start found with
  | zero => omega
  | succ bound ih =>
    rcases nextMove_eq entered with ⟨small, next⟩ | ⟨large, next⟩ | ⟨region, next, matched⟩
    · refine ⟨⟨found, none⟩, g, start, ?_, .refl wf entered all, ?_, .inl rfl⟩
      · rw [runWithin_silent, next]
        rfl
      · simp only [Analysis.isComplete, Option.isNone_none, true_iff]
        omega
    · refine ⟨⟨found, some ⟨g.size, false⟩⟩, g, start, ?_, .refl wf entered all, ?_, .inl rfl⟩
      · rw [runWithin_silent, next]
        rfl
      · simp only [Analysis.isComplete, Option.isNone_some, Bool.false_eq_true, false_iff]
        omega
    · obtain ⟨merged, h, entry, ran, reduced, smaller, contracts⟩ :=
        mergeRegion_reduced wf entered all matched
      obtain ⟨analysis, result, last, run, rest, complete, -⟩ := ih (found ++ [region]) reduced.wf
        reduced.entered reduced.all (by omega) (size_pos_of_entry reduced.entered)
      refine ⟨analysis, result, last, ?_, reduced.trans rest, complete, .inr contracts⟩
      rw [runWithin_silent, next]
      exact bind_eq_ok_iff.mpr ⟨_, rfl, bind_eq_ok_iff.mpr ⟨_, ran, run⟩⟩

/-- The reduction of a valid graph. -/
theorem reduce_reduced (wf : g.WellFormed) (entered : g.entry? = some start)
    (all : ∀ n ∈ g.nodeIds, g.Reaches start n) :
    ∃ analysis h entry, reduce g = .ok (analysis, h) ∧ Reduced g start h entry ∧
      (analysis.isComplete = true ↔ h.size = 1) ∧ (h = g ∨ g.Contracts start) := by
  obtain ⟨analysis, h, entry, ran, reduced⟩ :=
    runWithin_reduced [] wf entered all (Nat.le_refl g.size)
  refine ⟨analysis, h, entry, ?_, reduced⟩
  rw [reduce, reduceObserved, (validate_eq_ok_iff wf).mpr ⟨start, entered, all⟩]
  exact ran

/-- A graph that is reduced to a single block, which is when its analysis is complete, is reducible,
and its derived sequence ends in a single node. -/
theorem reduce_complete_reducible (wf : g.WellFormed) (valid : g.validate = .ok ()) :
    ∃ analysis h levels, reduce g = .ok (analysis, h) ∧ g.derivedSequence = .ok levels ∧
      (analysis.isComplete = true ↔ h.size = 1) ∧
      (h.size = 1 → Level.reducible levels = true) := by
  obtain ⟨start, entered, all⟩ := (validate_eq_ok_iff wf).mp valid
  obtain ⟨analysis, h, entry, ran, reduced, complete, moved⟩ := reduce_reduced wf entered all
  obtain ⟨levels, derived, derivation⟩ := derivedSequence_eq_ok wf entered
  refine ⟨analysis, h, levels, ran, derived, complete, ?_⟩
  intro single
  have reducible := reduced.reducible (reducible_of_size_eq_one reduced.wf single)
  rw [Level.reducible, beq_iff_eq,
    derivation.limitSize_eq_one_iff wf (entry_live entered) all]
  refine ⟨reducible, ?_⟩
  rcases moved with rfl | contracts
  · exact .inl single
  · exact .inr contracts

theorem repeating_reducible : repeating.WellFormed ∧ repeating.validate = .ok () ∧
    ∃ analysis h levels, reduce repeating = .ok (analysis, h) ∧
      repeating.derivedSequence = .ok levels ∧ h.size = 1 ∧ analysis.isComplete = true ∧
      Level.reducible levels = true := by
  have wf : repeating.WellFormed := by decide
  have valid : repeating.validate = .ok () := by rfl
  obtain ⟨analysis, h, levels, ran, derived, complete, reducible⟩ :=
    reduce_complete_reducible wf valid
  have reduced : (reduce repeating).map (fun (_, h) => h.size) = .ok 1 := by rfl
  have single : h.size = 1 := by
    rw [ran] at reduced
    exact Except.ok.inj reduced
  exact ⟨wf, valid, analysis, h, levels, ran, derived, single, complete.mpr single,
    reducible single⟩

end ControlFlow.Hammock
