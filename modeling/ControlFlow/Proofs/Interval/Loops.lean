import ControlFlow.Interval.Loops
import ControlFlow.Proofs.Interval.DerivedSequence

/-! The search for loops always comes to an end with a result. It changes annotations only, and
everything that it records is a loop. -/
namespace ControlFlow

/-! ## Greatest elements -/

section

variable {key : α → Nat} {items : List α} {a b : α}

theorem greatest?_concat : greatest? key (items ++ [a]) = match greatest? key items with
    | none => some a
    | some b => if key b ≤ key a then some a else some b := by
  unfold greatest?
  rw [List.foldl_append]
  rfl

theorem greatest?_eq_none_iff : greatest? key items = none ↔ items = [] := by
  induction items using List.reverseRecOn with
  | nil => simp [greatest?]
  | append_singleton items a =>
    rw [greatest?_concat]
    split
    · simp
    · split <;> simp

/-- The greatest element is one of the elements, and none of them is greater. -/
theorem greatest?_spec (found : greatest? key items = some a) :
    a ∈ items ∧ ∀ b ∈ items, key b ≤ key a := by
  induction items using List.reverseRecOn generalizing a with
  | nil => cases found
  | append_singleton items last ih =>
    rw [greatest?_concat] at found
    split at found
    · next empty =>
      obtain rfl := Option.some.inj found
      simp [greatest?_eq_none_iff.mp empty]
    · next best before =>
      obtain ⟨member, greatest⟩ := ih before
      split at found
      · next lower =>
        obtain rfl := Option.some.inj found
        have all (b : α) (present : b ∈ items ++ [last]) : key b ≤ key last := by
          rcases List.mem_append.mp present with old | new
          · exact (greatest b old).trans lower
          · rw [List.mem_singleton.mp new]
        exact ⟨by simp, all⟩
      · next higher =>
        obtain rfl := Option.some.inj found
        have all (b : α) (present : b ∈ items ++ [last]) : key b ≤ key best := by
          rcases List.mem_append.mp present with old | new
          · exact greatest b old
          · rw [List.mem_singleton.mp new]
            omega
        exact ⟨List.mem_append_left _ member, all⟩

/-- The least element is one of the elements. -/
theorem least?_mem (found : least? key items = some a) : a ∈ items := by
  induction items using List.reverseRecOn generalizing a with
  | nil => cases found
  | append_singleton items last ih =>
    unfold least? at found ih
    rw [List.foldl_append, List.foldl_cons, List.foldl_nil] at found
    split at found
    · obtain rfl := Option.some.inj found
      exact List.mem_append_right _ (List.mem_singleton_self last)
    · next best before =>
      split at found
      · obtain rfl := Option.some.inj found
        exact List.mem_append_right _ (List.mem_singleton_self last)
      · obtain rfl := Option.some.inj found
        exact List.mem_append_left _ (ih before)

end

namespace FlowGraph

variable {g h : FlowGraph}

theorem sameCore_annotateLoop (members : List NodeId) (kind : LoopKind) (follow : Option NodeId)
    (head latch : NodeId) : (g.annotateLoop members kind follow head latch).SameCore g :=
  (sameCore_annotate latch _).trans
    ((sameCore_annotate head _).trans (sameCore_foldl_annotate members _))

/-- A record of a loop. -/
def IsLoopRecord (region : Region) : Prop :=
  ∃ kind head latch follow, region = .loop kind head latch follow

/-- What the search for loops has found on the way. -/
structure LoopsFound (g : FlowGraph) (found : List Region × FlowGraph) : Prop where
  loops : ∀ region ∈ found.1, IsLoopRecord region
  core : found.2.SameCore g

theorem LoopsFound.recordLoop {found : List Region × FlowGraph} (before : LoopsFound g found)
    (dom : DominatorTree) (numbering : Numbering) (closing : String × String) :
    LoopsFound g (recordLoop dom numbering found closing) := by
  obtain ⟨regions, k⟩ := found
  unfold FlowGraph.recordLoop
  dsimp only
  split
  · split
    · exact before
    · refine ⟨?_, (sameCore_annotateLoop _ _ _ _ _).trans before.core⟩
      intro region member
      rcases List.mem_append.mp member with old | new
      · exact before.loops region old
      · obtain rfl := List.mem_singleton.mp new
        exact ⟨_, _, _, _, rfl⟩
  · exact before

theorem LoopsFound.foldl_recordLoop {found : List Region × FlowGraph} (before : LoopsFound g found)
    (dom : DominatorTree) (numbering : Numbering) (closings : List (String × String)) :
    LoopsFound g (closings.foldl (FlowGraph.recordLoop dom numbering) found) := by
  induction closings generalizing found with
  | nil => exact before
  | cons closing rest ih => exact ih (before.recordLoop dom numbering closing)

theorem structureLoops_eq {entry : NodeId} {levels : List Level}
    (entered : g.entry? = some entry)
    (derived : FlowGraph.derivedSequence (g.recordNumbers (g.numbering entry)) = .ok levels) :
    g.structureLoops = .ok ((Level.tracedClosings [] levels).foldl
      (FlowGraph.recordLoop (g.dominatorsFrom entry) (g.numbering entry))
      ([], g.recordNumbers (g.numbering entry))) := by
  have same := @sameCore_recordNumbers g (g.numbering entry)
  have dom : FlowGraph.dominators (g.recordNumbers (g.numbering entry)) =
      .ok (g.dominatorsFrom entry) := by
    rw [dominators_eq_ok (same.entry_eq.trans entered), same.dominatorsFrom]
  simp only [structureLoops, number_eq_ok entered, dom, derived, bind, Except.bind]
  rfl

/-- The loops of a graph with an entry are found. -/
theorem structureLoops_eq_ok (wf : g.WellFormed) {entry : NodeId}
    (entered : g.entry? = some entry) :
    ∃ found, g.structureLoops = .ok found ∧ LoopsFound g found := by
  have same := @sameCore_recordNumbers g (g.numbering entry)
  have wfNumbered := wf.of_sameCore same
  have enteredNumbered : FlowGraph.entry? (g.recordNumbers (g.numbering entry)) = some entry :=
    same.entry_eq.trans entered
  obtain ⟨levels, derived, -⟩ := derivedSequence_eq_ok wfNumbered enteredNumbered
  have start : LoopsFound g ([], g.recordNumbers (g.numbering entry)) := ⟨nofun, same⟩
  exact ⟨_, structureLoops_eq entered derived, start.foldl_recordLoop _ _ _⟩

end FlowGraph

end ControlFlow
