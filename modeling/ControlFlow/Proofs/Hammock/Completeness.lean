import ControlFlow.Proofs.Hammock.Resumption

/-! Whether a reduction says truly that it is complete. A run that ends of itself says so exactly if
it leaves one node. A run that its observer stops never says so, not even after the merge that
leaves one node: the answer is read off why the run is over, not off the graph. How many nodes are
left of an incomplete run is always told right. -/
namespace ControlFlow.Hammock

variable {σ : Type} {observer : Observer (StateM σ)} {g h k : FlowGraph} {found : List Region}
variable {count : Nat} {s s' s'' : σ} {remainder : Option Remainder}

/-- A graph in which something is left to do has several nodes. -/
theorem one_lt_size_of_nextMove {move : Move} (next : nextMove h = .ok move) (more : move ≠ .done) :
    1 < h.size := by
  by_contra small
  rw [nextMove, if_pos (Nat.not_lt.mp small)] at next
  cases next
  exact more rfl

namespace Observer

/-- What an observer lets happen is determined by what it remembers at first. -/
theorem LetsPass.unique (left : observer.LetsPass g s count h s')
    (right : observer.LetsPass g s count k s'') : h = k ∧ s' = s'' := by
  induction left generalizing k s'' with
  | none =>
    cases right with
    | none => exact ⟨rfl, rfl⟩
  | next earlier move before ran after ih =>
    cases right with
    | next earlier' move' before' ran' after' =>
      obtain ⟨rfl, rfl⟩ := ih earlier'
      cases move.symm.trans move'
      cases before.symm.trans before'
      cases ran.symm.trans ran'
      cases after.symm.trans after'
      exact ⟨rfl, rfl⟩

/-- An observer that has let a merge happen does not stop the run after it. -/
theorem LetsPass.not_breaksAfter (passes : observer.LetsPass g s count h s') :
    ¬observer.BreaksAfter g s count s'' := by
  intro breaks
  cases breaks with
  | next earlier move before ran after =>
    cases passes with
    | next earlier' move' before' ran' after' =>
      obtain ⟨rfl, rfl⟩ := earlier.unique earlier'
      cases move.symm.trans move'
      cases before.symm.trans before'
      cases ran.symm.trans ran'
      cases after.symm.trans after'

/-- Where no merge is ahead, an observer cannot stop the run before one. -/
theorem LetsPass.not_breaksBefore (passes : observer.LetsPass g s count h s')
    (stuck : nextMove h = .ok .stuck) : ¬observer.BreaksBefore g s (count + 1) s'' := by
  intro breaks
  cases breaks with
  | next earlier move before =>
    obtain ⟨rfl, rfl⟩ := earlier.unique passes
    cases move.symm.trans stuck

/-- How an observed run is over after a number of merges: one node is left, no shape matches, or the
observer has stopped the run before the next merge or after the last one. -/
inductive Ends (observer : Observer (StateM σ)) (g : FlowGraph) (s : σ) :
    Nat → Option Remainder → FlowGraph → σ → Prop where
  | complete {count : Nat} {h : FlowGraph} {s' : σ} (passes : observer.LetsPass g s count h s')
      (single : h.size = 1) : Ends observer g s count none h s'
  | stuck {count : Nat} {h : FlowGraph} {s' : σ} (passes : observer.LetsPass g s count h s')
      (next : nextMove h = .ok .stuck) : Ends observer g s count (some ⟨h.size, false⟩) h s'
  | before {count : Nat} {h : FlowGraph} {s' : σ} (several : 1 < h.size)
      (breaks : observer.BreaksBefore g s (count + 1) s') :
      Ends observer g s count (some ⟨h.size, true⟩) h s'
  | after {count : Nat} {h : FlowGraph} {s' : σ} (breaks : observer.BreaksAfter g s count s') :
      Ends observer g s count (some ⟨h.size, true⟩) h s'

/-- A run is reported as complete if one node is left and the observer has not stopped it there. -/
theorem Ends.isNone_iff (ends : observer.Ends g s count remainder h s') :
    remainder.isNone = true ↔ h.size = 1 ∧ ¬observer.BreaksAfter g s count s' := by
  cases ends with
  | complete passes single => simp [single, passes.not_breaksAfter]
  | stuck passes next => simp [(one_lt_size_of_nextMove next nofun).ne']
  | before several breaks => simp [several.ne']
  | after breaks => simp [breaks]

/-- An incomplete run tells how many nodes are left, and whether its observer has stopped it. -/
theorem Ends.remainder_spec {left : Remainder} (ends : observer.Ends g s count (some left) h s') :
    left.size = h.size ∧ (left.cancelled = true ↔
      observer.BreaksBefore g s (count + 1) s' ∨ observer.BreaksAfter g s count s') := by
  cases ends with
  | stuck passes next => simp [passes.not_breaksBefore next, passes.not_breaksAfter]
  | before several breaks => simp [breaks]
  | after breaks => simp [breaks]

end Observer

/-- A run from a point that an observer has let be reached goes on until it is over. -/
theorem runWithin_ends {entry : NodeId} (wf : g.WellFormed) (entered : g.entry? = some entry)
    (passes : observer.LetsPass g s found.length h s') (reached : Reached g found h) (bound : Nat)
    (enough : g.size ≤ found.length + bound) :
    ∃ analysis k s'', watch (runWithin observer bound h found) s' = (.ok (analysis, k), s'') ∧
      observer.Ends g s analysis.regions.length analysis.remainder k s'' := by
  induction bound generalizing h found s' with
  -- Each merge has taken a block out, so there are not as many of them as blocks.
  | zero => exact absurd (reached.balanced wf entered).length_lt (Nat.not_lt.mpr enough)
  | succ bound ih =>
    have balanced := reached.balanced wf entered
    obtain ⟨entry', entered', -⟩ := balanced.entered
    rcases nextMove_eq entered' with ⟨small, next⟩ | ⟨-, next⟩ | ⟨region, next, -⟩
    · have single : h.size = 1 := Nat.le_antisymm small (FlowGraph.size_pos_of_entry entered')
      refine ⟨⟨found, none⟩, h, s', ?_, .complete passes single⟩
      rw [runWithin, next]
      rfl
    · refine ⟨⟨found, some ⟨h.size, false⟩⟩, h, s', ?_, .stuck passes next⟩
      rw [runWithin, next]
      rfl
    · obtain ⟨merged, k, ran, -⟩ := balanced.merge wf next
      have length : (found ++ [region]).length = found.length + 1 := List.length_append
      rw [watch_merge observer bound s' next ran]
      rcases asked : watch (observer.before h region) s' with ⟨_ | _, s₁⟩
      · have several := one_lt_size_of_nextMove next (by simp)
        exact ⟨⟨found, some ⟨h.size, true⟩⟩, h, s₁, rfl, .before several (.next passes next asked)⟩
      · dsimp only
        rcases told : watch (observer.after k region) s₁ with ⟨_ | _, s₂⟩
        · refine ⟨⟨found ++ [region], some ⟨k.size, true⟩⟩, k, s₂, rfl, .after ?_⟩
          rw [length]
          exact .next passes next asked ran told
        · have further : observer.LetsPass g s (found ++ [region]).length k s₂ := by
            rw [length]
            exact .next passes next asked ran told
          refine ih further (reached.merge next ran) ?_
          rw [length]
          omega

/-- A reduction of a valid graph, whoever looks on, is reported as complete exactly if it leaves one
node and its observer has not stopped it after the merge that left it. Otherwise it tells the number
of nodes that are left, and truly whether it was stopped. -/
theorem reduceObserved_complete_iff (wf : g.WellFormed) (valid : g.validate = .ok ())
    (observer : Observer (StateM σ)) (s : σ) :
    ∃ analysis h s', watch (reduceObserved observer g) s = (.ok (analysis, h), s') ∧
      (analysis.isComplete = true ↔
        h.size = 1 ∧ ¬observer.BreaksAfter g s analysis.regions.length s') ∧
      ∀ remainder, analysis.remainder = some remainder → remainder.size = h.size ∧
        (remainder.cancelled = true ↔
          observer.BreaksBefore g s (analysis.regions.length + 1) s' ∨
            observer.BreaksAfter g s analysis.regions.length s') := by
  obtain ⟨entry, entered, -⟩ := (FlowGraph.validate_eq_ok_iff wf).mp valid
  have start : observer.LetsPass g s ([] : List Region).length g s := .none
  obtain ⟨analysis, h, s', ran, ends⟩ :=
    runWithin_ends wf entered start .start g.size (Nat.le_add_left _ _)
  refine ⟨analysis, h, s', ?_, ends.isNone_iff, fun remainder some => ?_⟩
  · rw [reduceObserved, valid]
    exact ran
  · rw [some] at ends
    exact ends.remainder_spec

/-- Lets a run make as many merges as it remembers, and stops it right after the last of them. -/
def counting : Observer (StateM Nat) where
  before _ _ := return true
  after _ _ := do
    modify (· - 1)
    return (← get) != 0

/-- The run is stopped after the first merge, which leaves two nodes. -/
theorem repeating_stopped_incomplete : repeating.WellFormed ∧ repeating.validate = .ok () ∧
    ∃ analysis h s', watch (reduceObserved counting repeating) 1 = (.ok (analysis, h), s') ∧
      analysis.isComplete = false ∧ h.size = 2 ∧ analysis.remainder = some ⟨2, true⟩ := by
  have wf : repeating.WellFormed := by decide
  have valid : repeating.validate = .ok () := by rfl
  obtain ⟨analysis, h, s', ran, complete, told⟩ := reduceObserved_complete_iff wf valid counting 1
  obtain ⟨analysis', h', s₁, ran', two, left⟩ : ∃ analysis h s',
      watch (reduceObserved counting repeating) 1 = (.ok (analysis, h), s') ∧ h.size = 2 ∧
        analysis.remainder = some ⟨2, true⟩ := ⟨_, _, _, rfl, rfl, rfl⟩
  cases ran.symm.trans ran'
  refine ⟨wf, valid, analysis, h, s', ran, ?_, two, left⟩
  rw [← Bool.not_eq_true, complete, two]
  rintro ⟨single, -⟩
  cases single

/-- Stopped after the second merge, the run has left one node and is not reported as complete. -/
theorem repeating_single_incomplete : repeating.WellFormed ∧ repeating.validate = .ok () ∧
    ∃ analysis h s', watch (reduceObserved counting repeating) 2 = (.ok (analysis, h), s') ∧
      h.size = 1 ∧ analysis.isComplete = false := by
  refine ⟨by decide, by rfl, _, _, _, rfl, ?_, ?_⟩
  · rfl
  · rfl

end ControlFlow.Hammock
