import ControlFlow.Proofs.Hammock.Resumption
import ControlFlow.Proofs.Renumbering.Merge
import ControlFlow.Proofs.Renumbering.Search

/-! Reductions of renumbered graphs. A shape compares blocks only for equality and names them by
their labels, so it matches at corresponding nodes with the same region. The same moves are made in
both graphs, and the graphs that they lead to differ only in numbers again. -/
namespace ControlFlow.Hammock

open FlowGraph

variable {ren : NodeId → NodeId} {g h : FlowGraph} (same : Renumbers ren g h)

section

include same

theorem comesOnlyFrom_renumber (id source : NodeId) :
    comesOnlyFrom h (ren id) (ren source) = comesOnlyFrom g id source := by
  rw [comesOnlyFrom, comesOnlyFrom, same.preds, ← List.map_singleton]
  exact (List.map_injective_iff.mpr same.injective).beq_eq

theorem goesOnlyTo_renumber (id target : NodeId) :
    goesOnlyTo h (ren id) (ren target) = goesOnlyTo g id target := by
  rw [goesOnlyTo, goesOnlyTo, same.succs, ← List.map_singleton]
  exact (List.map_injective_iff.mpr same.injective).beq_eq

theorem comesFromBoth_renumber (id a b : NodeId) :
    comesFromBoth h (ren id) (ren a) (ren b) = comesFromBoth g id a b := by
  have pair (a b : NodeId) : (h.preds (ren id) == [ren a, ren b]) = (g.preds id == [a, b]) := by
    rw [same.preds]
    exact (List.map_injective_iff.mpr same.injective).beq_eq (b := [a, b])
  rw [comesFromBoth, comesFromBoth, pair, pair]

theorem sides_renumber (id : NodeId) :
    sides h (ren id) = (sides g id).map (Prod.map ren ren) := by
  rw [sides, sides, same.succs]
  rcases g.succs id with _ | ⟨a, _ | ⟨b, _ | ⟨c, rest⟩⟩⟩ <;> rfl

theorem distinct_renumber (ids : List NodeId) : distinct (ids.map ren) = distinct ids := by
  induction ids with
  | nil => rfl
  | cons id ids ih => rw [List.map_cons, distinct, distinct, same.contains_map, ih]

/-- A shape matches at corresponding nodes, with the same region. -/
theorem shape_renumber {kind : RegionKind} {shape : Shape} (listed : (kind, shape) ∈ shapes)
    (dom : DominatorTree) (id : NodeId) : shape h (dom.renumber ren) (ren id) = shape g dom id := by
  have dominates := DominatorTree.dominates_renumber same.injective dom
  have three (a b c : NodeId) : distinct [ren a, ren b, ren c] = distinct [a, b, c] :=
    distinct_renumber same [a, b, c]
  have four (a b c d : NodeId) : distinct [ren a, ren b, ren c, ren d] = distinct [a, b, c, d] :=
    distinct_renumber same [a, b, c, d]
  simp only [shapes, List.mem_cons, Prod.mk.injEq, List.not_mem_nil, or_false] at listed
  rcases listed with ⟨-, rfl⟩ | ⟨-, rfl⟩ | ⟨-, rfl⟩ | ⟨-, rfl⟩ | ⟨-, rfl⟩ | ⟨-, rfl⟩
  · rw [seq?, seq?, same.succs]
    rcases g.succs id with _ | ⟨exit, _ | ⟨other, rest⟩⟩
    · rfl
    · simp only [List.map_cons, List.map_nil, same.bne, comesOnlyFrom_renumber same, dominates,
        same.label]
    · rfl
  · simp only [preLoop?, sides_renumber same, List.findSome?_map, Function.comp_def, Prod.map, three,
      comesOnlyFrom_renumber same, goesOnlyTo_renumber same, dominates, same.label]
  · simp only [postLoop?, sides_renumber same, List.findSome?_map, Function.comp_def, Prod.map,
      same.beq, same.bne, comesOnlyFrom_renumber same, dominates, same.label]
  · simp only [ifThen?, sides_renumber same, List.findSome?_map, Function.comp_def, Prod.map, three,
      comesOnlyFrom_renumber same, goesOnlyTo_renumber same, comesFromBoth_renumber same, dominates,
      same.label]
  · simp only [ifReturn?, sides_renumber same, List.findSome?_map, Function.comp_def, Prod.map,
      three, comesOnlyFrom_renumber same, same.preds, same.succs, List.any_map, List.isEmpty_map,
      dominates, same.label]
  · simp only [ifElse?, sides_renumber same, List.findSome?_map, Function.comp_def, Prod.map]
    congr 1
    funext pair
    obtain ⟨bodyTrue, bodyFalse⟩ := pair
    rw [same.succs]
    rcases g.succs bodyTrue with _ | ⟨exit, _ | ⟨other, rest⟩⟩
    · rfl
    · simp only [List.map_cons, List.map_nil, four, comesOnlyFrom_renumber same,
        goesOnlyTo_renumber same, comesFromBoth_renumber same, dominates, same.label]
    · rfl

theorem firstMatch?_renumber (dom : DominatorTree) :
    firstMatch? h (dom.renumber ren) = firstMatch? g dom := by
  rw [firstMatch?, firstMatch?, ← List.head?_filterMap, ← List.head?_filterMap]
  refine congrArg List.head? (List.filterMap_congr ?_)
  rintro ⟨kind, shape⟩ listed
  simp only [same.nodeIds, List.findSome?_map, Function.comp_def, shape_renumber same listed]

/-- The next move is the same. -/
theorem nextMove_renumber : Agree Eq (nextMove g) (nextMove h) := by
  rw [nextMove, nextMove, same.size]
  split
  · exact rfl
  · refine same.dominators.bind ?_
    rintro dom _ rfl
    rw [firstMatch?_renumber same]
    split <;> exact rfl

theorem nextMove_eq_of_renumbers {move : Move} (next : nextMove g = .ok move) :
    nextMove h = .ok move := by
  have moves := nextMove_renumber same
  rw [next] at moves
  obtain ⟨_, next', rfl⟩ := moves.exists_ok
  exact next'

theorem Finishes.renumber {remainder : Option Remainder} (finishes : Finishes g remainder) :
    Finishes h remainder := by
  rcases finishes with ⟨next, rfl⟩ | ⟨next, rfl⟩
  · exact .inl ⟨nextMove_eq_of_renumbers same next, rfl⟩
  · exact .inr ⟨nextMove_eq_of_renumbers same next, by rw [same.size]⟩

end

section

variable {found : List Region} {k : FlowGraph} {start start' : NodeId} (wf : g.WellFormed)
  (wf' : h.WellFormed) (entered : g.entry? = some start) (entered' : h.entry? = some start')
include wf wf' entered entered'

/-- Graphs with the same contents are reduced by the same merges, and have the same contents after
each of them. -/
theorem Reached.renumber (same : g.same h = true) (reached : Reached g found k) :
    ∃ k', Reached h found k' ∧ k.same k' = true := by
  induction reached with
  | start => exact ⟨h, .start, same⟩
  | @merge found k last region merged before next ran ih =>
    obtain ⟨k', before', same⟩ := ih
    -- The merge needs a renumbering of the next numbers too, which the contents always give.
    obtain ⟨ren, same, numbers⟩ := exists_renumbers (before.balanced wf entered).wf
      (before'.balanced wf' entered').wf same
    have merges := same.mergeRegion numbers region
    rw [ran] at merges
    obtain ⟨⟨merged', last'⟩, ran', -, sameLast⟩ := merges.exists_ok
    exact ⟨last', before'.merge (nextMove_eq_of_renumbers same next) ran', sameLast.same_eq⟩

end

/-- Reductions of graphs with the same contents have the same outcome. -/
theorem reduce_same (wf : g.WellFormed) (wf' : h.WellFormed) (same : g.same h = true) :
    Agree (fun r r' => r.1 = r'.1 ∧ r.2.same r'.2 = true) (reduce g) (reduce h) := by
  obtain ⟨ren, renumbers, -⟩ := exists_renumbers wf wf' same
  have valid := renumbers.validate
  cases left : g.validate with
  | error error =>
    rw [left] at valid
    obtain ⟨error', right⟩ := valid.exists_error
    rw [reduce, reduce, reduceObserved, reduceObserved, left, right]
    trivial
  | ok accepted =>
    rw [left] at valid
    obtain ⟨accepted', right, -⟩ := valid.exists_ok
    obtain ⟨start, entered, -⟩ := (validate_eq_ok_iff wf).mp left
    obtain ⟨start', entered', -⟩ := (validate_eq_ok_iff wf').mp right
    obtain ⟨found, k, remainder, reached, finishes⟩ :=
      exists_finishes wf entered g.size .start (Nat.le_add_left _ _)
    obtain ⟨k', reached', sameLeft⟩ := reached.renumber wf wf' entered entered' same
    obtain ⟨ren, renumbers, -⟩ := exists_renumbers (reached.balanced wf entered).wf
      (reached'.balanced wf' entered').wf sameLeft
    rw [reduce_eq wf entered left reached finishes,
      reduce_eq wf' entered' right reached' (finishes.renumber renumbers)]
    exact ⟨rfl, sameLeft⟩

end ControlFlow.Hammock
