import ControlFlow.Proofs.Hammock.Accounting
import ControlFlow.Proofs.Hammock.Reducibility

/-! A reduction that its observer stops is the beginning of the one that nobody stops. The next move
depends on the graph alone, so a run makes the merges of the whole one up to the point where it is
stopped, and a run on the graph that it leaves makes the others. One merge is followed at a time; the
graph after every number of merges is valid, so that a run can start there. -/
namespace ControlFlow.Hammock

open FlowGraph

variable {σ : Type} {g h k : FlowGraph} {found rest : List Region} {count : Nat} {s s' : σ}

/-- An observer has let the first merges of a reduction happen, `count` of them. The graph has become
`h`, and the observer remembers `s'`. -/
inductive Observer.LetsPass (observer : Observer (StateM σ)) (g : FlowGraph) (s : σ) :
    Nat → FlowGraph → σ → Prop where
  | none : LetsPass observer g s 0 g s
  | next {count : Nat} {h k : FlowGraph} {s₁ s₂ s₃ : σ} {region : Region} {merged : NodeId}
      (earlier : LetsPass observer g s count h s₁) (move : nextMove h = .ok (.merge region))
      (before : watch (observer.before h region) s₁ = (true, s₂))
      (ran : h.mergeRegion region = .ok (merged, k))
      (after : watch (observer.after k region) s₂ = (true, s₃)) :
      LetsPass observer g s (count + 1) k s₃

/-- An observer stops a reduction before the merge of that number. -/
inductive Observer.BreaksBefore (observer : Observer (StateM σ)) (g : FlowGraph) (s : σ) :
    Nat → σ → Prop where
  | next {count : Nat} {h : FlowGraph} {s₁ s' : σ} {region : Region}
      (earlier : observer.LetsPass g s count h s₁) (move : nextMove h = .ok (.merge region))
      (before : watch (observer.before h region) s₁ = (false, s')) :
      BreaksBefore observer g s (count + 1) s'

/-- An observer stops a reduction after the merge of that number. -/
inductive Observer.BreaksAfter (observer : Observer (StateM σ)) (g : FlowGraph) (s : σ) :
    Nat → σ → Prop where
  | next {count : Nat} {h k : FlowGraph} {s₁ s₂ s' : σ} {region : Region} {merged : NodeId}
      (earlier : observer.LetsPass g s count h s₁) (move : nextMove h = .ok (.merge region))
      (before : watch (observer.before h region) s₁ = (true, s₂))
      (ran : h.mergeRegion region = .ok (merged, k))
      (after : watch (observer.after k region) s₂ = (false, s')) :
      BreaksAfter observer g s (count + 1) s'

/-! ## The merges of a graph -/

/-- A number of merges can be made in one way only. -/
theorem Reached.unique {other : List Region} (reached : Reached g found h)
    (again : Reached g other k) (length : found.length = other.length) : found = other ∧ h = k := by
  induction reached generalizing other k with
  | start =>
    cases again with
    | start => exact ⟨rfl, rfl⟩
    | merge _ _ _ => simp at length
  | merge _ next ran ih =>
    cases again with
    | start => simp at length
    | merge before next' ran' =>
      obtain ⟨rfl, rfl⟩ := ih before (by simpa using length)
      rw [next] at next'
      cases next'
      rw [ran] at ran'
      cases ran'
      exact ⟨rfl, rfl⟩

/-- After every number of merges all of the graph can be reached. -/
theorem Reached.reduced {start : NodeId} (reached : Reached g found h) (wf : g.WellFormed)
    (entered : g.entry? = some start) (all : ∀ n ∈ g.nodeIds, g.Reaches start n) :
    ∃ entry, Reduced g start h entry := by
  induction reached with
  | start => exact ⟨start, .refl wf entered all⟩
  | merge _ next ran ih =>
    obtain ⟨entry, reduced⟩ := ih
    obtain ⟨merged, k, last, ran', further, -⟩ := mergeRegion_reduced reduced.wf reduced.entered
      reduced.all (firstMatch?_of_nextMove reduced.entered next)
    rw [ran] at ran'
    cases ran'
    exact ⟨last, reduced.trans further⟩

/-! ## The run that nobody stops -/

/-- How a run that nobody stops can end. -/
def Finishes (h : FlowGraph) (remainder : Option Remainder) : Prop :=
  nextMove h = .ok .done ∧ remainder = none ∨
    nextMove h = .ok .stuck ∧ remainder = some ⟨h.size, false⟩

/-- A run makes the merges that lead to a graph, and then what is left for it to do there. -/
theorem Reached.runWithin_silent (reached : Reached g found h) (bound : Nat)
    (earlier : List Region) :
    Id.run (runWithin .silent (found.length + bound) g earlier) =
      Id.run (runWithin .silent bound h (earlier ++ found)) := by
  induction reached generalizing bound with
  | start => rw [List.length_nil, Nat.zero_add, List.append_nil]
  | @merge found h k region merged before next ran ih =>
    have length : (found ++ [region]).length + bound = found.length + (bound + 1) := by
      rw [List.length_append, List.length_singleton]
      omega
    rw [length, ih, Hammock.runWithin_silent, next, ← List.append_assoc]
    show h.mergeRegion region >>= _ = _
    rw [ran]
    rfl

theorem Finishes.runWithin_silent {remainder : Option Remainder} (finishes : Finishes h remainder)
    (bound : Nat) :
    Id.run (runWithin .silent (bound + 1) h found) = .ok (⟨found, remainder⟩, h) := by
  rcases finishes with ⟨next, rfl⟩ | ⟨next, rfl⟩
  · rw [Hammock.runWithin_silent, next]
    rfl
  · rw [Hammock.runWithin_silent, next]
    rfl

/-- The merges of a graph and how they end are the outcome of its reduction. -/
theorem reduce_eq {start : NodeId} {remainder : Option Remainder} (wf : g.WellFormed)
    (entered : g.entry? = some start) (valid : g.validate = .ok ()) (reached : Reached g found h)
    (finishes : Finishes h remainder) : reduce g = .ok (⟨found, remainder⟩, h) := by
  have few := (reached.balanced wf entered).length_lt
  obtain ⟨bound, size⟩ : ∃ bound, g.size = found.length + (bound + 1) :=
    ⟨g.size - found.length - 1, by omega⟩
  rw [reduce, reduceObserved, valid]
  show Id.run (runWithin .silent g.size g []) = _
  rw [size, reached.runWithin_silent, List.nil_append, finishes.runWithin_silent]

/-- Merges can be made until the run ends of itself: there are fewer of them than blocks. -/
theorem exists_finishes {start : NodeId} (wf : g.WellFormed) (entered : g.entry? = some start)
    (bound : Nat) (reached : Reached g found h) (enough : g.size ≤ found.length + bound) :
    ∃ all k remainder, Reached g all k ∧ Finishes k remainder := by
  induction bound generalizing h found with
  | zero => exact absurd (reached.balanced wf entered).length_lt (Nat.not_lt.mpr enough)
  | succ bound ih =>
    have balanced := reached.balanced wf entered
    obtain ⟨entry, entered', -⟩ := balanced.entered
    rcases nextMove_eq entered' with ⟨-, next⟩ | ⟨-, next⟩ | ⟨region, next, -⟩
    · exact ⟨found, h, none, reached, .inl ⟨next, rfl⟩⟩
    · exact ⟨found, h, _, reached, .inr ⟨next, rfl⟩⟩
    · obtain ⟨merged, k, ran, -⟩ := balanced.merge wf next
      refine ih (reached.merge next ran) ?_
      rw [List.length_append, List.length_singleton]
      omega

/-! ## The run that is stopped -/

/-- As long as an observer lets merges happen, they are those of the graph. -/
theorem Observer.LetsPass.reached {observer : Observer (StateM σ)}
    (passes : observer.LetsPass g s count h s') :
    ∃ found, Reached g found h ∧ found.length = count ∧
      ∀ bound, watch (runWithin observer (count + bound) g []) s =
        watch (runWithin observer bound h found) s' := by
  induction passes with
  | none => exact ⟨[], .start, rfl, fun bound => by rw [Nat.zero_add]⟩
  | @next count h k s₁ s₂ s₃ region merged earlier move before ran after ih =>
    obtain ⟨found, reached, length, runs⟩ := ih
    refine ⟨found ++ [region], reached.merge move ran, by simp [length], fun bound => ?_⟩
    rw [Nat.add_right_comm, Nat.add_assoc, runs, watch_merge observer bound s₁ move ran, before]
    dsimp only
    rw [after]

theorem Observer.BreaksBefore.ended {observer : Observer (StateM σ)}
    (breaks : observer.BreaksBefore g s (count + 1) s') :
    ∃ found h, Reached g found h ∧ found.length = count ∧
      ∀ bound, count < bound →
        watch (runWithin observer bound g []) s = (ended found h true, s') := by
  cases breaks with
  | @next _ h s₁ _ region earlier move before =>
    obtain ⟨found, reached, length, runs⟩ := earlier.reached
    refine ⟨found, h, reached, length, fun bound enough => ?_⟩
    obtain ⟨more, rfl⟩ := Nat.exists_eq_add_of_lt enough
    rw [Nat.add_assoc, runs, runWithin, move]
    show watch (observer.before h region >>= _) s₁ = _
    rw [watch_bind, before]
    rfl

theorem Observer.BreaksAfter.ended {observer : Observer (StateM σ)}
    (breaks : observer.BreaksAfter g s count s') :
    ∃ found h, Reached g found h ∧ found.length = count ∧
      ∀ bound, count ≤ bound →
        watch (runWithin observer bound g []) s = (ended found h true, s') := by
  cases breaks with
  | @next count h k s₁ s₂ _ region merged earlier move before ran after =>
    obtain ⟨found, reached, length, runs⟩ := earlier.reached
    refine ⟨found ++ [region], k, reached.merge move ran, by simp [length], fun bound enough => ?_⟩
    obtain ⟨more, rfl⟩ := Nat.exists_eq_add_of_le enough
    rw [Nat.add_right_comm, Nat.add_assoc, runs, watch_merge observer more s₁ move ran, before]
    dsimp only
    rw [after]

/-- A run that is stopped after some merge, or before the next one, has made the first merges of the
whole run and leaves the graph of that point behind. That graph is valid, and a run on it makes the
other merges, ends in the same graph and leaves the same over. -/
theorem reduceObserved_resumable (wf : g.WellFormed) (valid : g.validate = .ok ()) :
    ∃ analysis h, reduce g = .ok (analysis, h) ∧
      ∀ count ≤ analysis.regions.length, ∃ between,
        Reached g (analysis.regions.take count) between ∧
        between.validate = .ok () ∧
        reduce between = .ok (⟨analysis.regions.drop count, analysis.remainder⟩, h) ∧
        ∀ {σ : Type} (observer : Observer (StateM σ)) (s s' : σ),
          observer.BreaksAfter g s count s' ∨ observer.BreaksBefore g s (count + 1) s' →
            watch (reduceObserved observer g) s =
              (ended (analysis.regions.take count) between true, s') := by
  obtain ⟨start, entered, all⟩ := (validate_eq_ok_iff wf).mp valid
  obtain ⟨found, h, remainder, reached, finishes⟩ :=
    exists_finishes wf entered g.size .start (Nat.le_add_left _ _)
  refine ⟨⟨found, remainder⟩, h, reduce_eq wf entered valid reached finishes, fun count few => ?_⟩
  obtain ⟨between, first, others⟩ := reached.split count few
  obtain ⟨entry, reduced⟩ := first.reduced wf entered all
  have valid' : between.validate = .ok () :=
    (validate_eq_ok_iff reduced.wf).mpr ⟨entry, reduced.entered, reduced.all⟩
  refine ⟨between, first, valid', ?_, fun observer s s' breaks => ?_⟩
  · exact reduce_eq reduced.wf reduced.entered valid' others finishes
  -- The merges that the observer has seen are the first ones of the run that nobody stops.
  · have length : (found.take count).length = count := List.length_take_of_le few
    have inside := (first.balanced wf entered).length_lt
    rw [length] at inside
    have run : watch (reduceObserved observer g) s = watch (runWithin observer g.size g []) s := by
      rw [reduceObserved, valid]
    rw [run]
    rcases breaks with breaks | breaks
    · obtain ⟨found', k, again, length', ended⟩ := breaks.ended
      obtain ⟨rfl, rfl⟩ := first.unique again (length.trans length'.symm)
      exact ended _ inside.le
    · obtain ⟨found', k, again, length', ended⟩ := breaks.ended
      obtain ⟨rfl, rfl⟩ := first.unique again (length.trans length'.symm)
      exact ended _ inside

/-- The observer lets the loop be merged and stops the run before the sequence; a second run merges
the sequence. -/
theorem repeating_resumable : repeating.WellFormed ∧ repeating.validate = .ok () ∧
    allowing.BreaksBefore repeating 1 2 0 ∧
    ∃ between h, Reached repeating [.preLoop "B" "C" "D"] between ∧
      watch (reduceObserved allowing repeating) 1 =
        (ended [.preLoop "B" "C" "D"] between true, 0) ∧
      reduce between = .ok (⟨[.seq "A" "B"], none⟩, h) ∧
      reduce repeating = .ok (⟨[.preLoop "B" "C" "D", .seq "A" "B"], none⟩, h) := by
  have wf : repeating.WellFormed := by decide
  have valid : repeating.validate = .ok () := by rfl
  have loop : nextMove repeating = .ok (.merge (.preLoop "B" "C" "D")) := by rfl
  obtain ⟨left, passes, sequence⟩ : ∃ left, allowing.LetsPass repeating 1 1 left 0 ∧
      nextMove left = .ok (.merge (.seq "A" "B")) := ⟨_, .next .none loop rfl rfl rfl, by rfl⟩
  have breaks : allowing.BreaksBefore repeating 1 2 0 := .next passes sequence rfl
  obtain ⟨⟨regions, remainder⟩, h, ran, stopped⟩ := reduceObserved_resumable wf valid
  have outcome : (reduce repeating).map Prod.fst =
      .ok ⟨[.preLoop "B" "C" "D", .seq "A" "B"], none⟩ := by rfl
  rw [ran] at outcome
  cases Except.ok.inj outcome
  obtain ⟨between, reached, -, resumed, ends⟩ := stopped 1 (by decide)
  exact ⟨wf, valid, breaks, between, h, reached, ends allowing 1 0 (.inr breaks), resumed, ran⟩

end ControlFlow.Hammock
