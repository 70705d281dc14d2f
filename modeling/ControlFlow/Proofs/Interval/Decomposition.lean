import ControlFlow.Proofs.Interval.Collapse

/-! Intervals decompose a graph. Every node of a valid graph is in one of its intervals and in no
other, the first interval is that of the entry, and each is as large as it can be: all that keeps a
node out is a way in from elsewhere. Since a node other than the header is entered from nodes before
it only, an interval is entered at its header, which dominates the interval, and what goes round in
it comes past the header. -/
namespace ControlFlow

namespace Interval

variable {g : FlowGraph} {entry n : NodeId}

/-- The intervals of a graph that control enters at `entry`. -/
structure Decomposes (g : FlowGraph) (entry : NodeId) (found : List Interval) : Prop where
  /-- Every node has one place in one of the intervals. -/
  parts : (found.flatMap Interval.nodes).Perm g.nodeIds
  first : found.head?.map Interval.header = some entry
  headed : ∀ i ∈ found, i.nodes.head? = some i.header
  /-- A node behind others is entered, and only from those. -/
  entered : ∀ i ∈ found, ∀ before n after, i.nodes = before ++ n :: after → before ≠ [] →
    g.preds n ≠ [] ∧ ∀ p ∈ g.preds n, p ∈ before
  onlyWay : ∀ i ∈ found, ∀ p n, g.Step p n → p ∉ i.nodes → n ∈ i.nodes → n = i.header
  dominates : ∀ i ∈ found, ∀ n ∈ i.nodes, g.Dominates entry i.header n
  /-- A way from a node that an edge closes to a cycle passes the header. -/
  cycles : ∀ i ∈ found, ∀ n ∈ i.nodes, ∀ m passed, g.Walk n m passed → g.Step m n →
    i.header ∈ passed
  maximal : ∀ i ∈ found, ∀ n ∈ g.nodeIds, n ≠ entry → n ∉ i.nodes → ∃ p ∈ g.preds n, p ∉ i.nodes

namespace SingleEntry

variable {i : Interval} (single : i.SingleEntry g)
include single

/-- What a node behind others is entered from is among them. -/
theorem mem_before {before after : List NodeId} (split : i.nodes = before ++ n :: after)
    (behind : before ≠ []) : n ≠ i.header ∧ ∀ p, g.Step p n → p ∈ before := by
  have nodup := single.nodup
  rw [split, List.nodup_middle, List.nodup_cons, List.mem_append, not_or] at nodup
  have place : i.nodes.idxOf n = before.length := by
    rw [split, List.idxOf_append_of_notMem nodup.1.1, List.idxOf_cons_self, Nat.add_zero]
  have different : n ≠ i.header := by
    rintro rfl
    obtain ⟨rest, listed⟩ := List.head?_eq_some_iff.mp single.head
    rw [listed, List.idxOf_cons_self] at place
    exact behind (List.length_eq_zero_iff.mp place.symm)
  refine ⟨different, ?_⟩
  intro p edge
  have member : n ∈ i.nodes := by simp [split]
  have earlier := (single.pred member different edge).2
  by_contra outside
  rw [place, split, List.idxOf_append_of_notMem outside] at earlier
  omega

/-- On a way that does not come past the header the places do not go down. -/
theorem place_le_of_walk {a : NodeId} {passed : List NodeId} (walk : g.Walk a n passed)
    (member : n ∈ i.nodes) (around : i.header ∉ passed) :
    i.nodes.idxOf a ≤ i.nodes.idxOf n := by
  induction walk with
  | here => exact Nat.le_refl _
  | step walk edge ih =>
    rw [List.mem_append, not_or, List.mem_singleton] at around
    obtain ⟨inside, earlier⟩ := single.pred member (Ne.symm around.2) edge
    exact Nat.le_trans (ih inside around.1) (Nat.le_of_lt earlier)

/-- What goes round comes past the header. -/
theorem header_mem_of_cycle {m : NodeId} {passed : List NodeId} (member : n ∈ i.nodes)
    (walk : g.Walk n m passed) (back : g.Step m n) : i.header ∈ passed := by
  by_contra around
  have different : n ≠ i.header := by
    rintro rfl
    exact around walk.start_mem
  obtain ⟨inside, earlier⟩ := single.pred member different back
  have later := single.place_le_of_walk walk inside around
  omega

end SingleEntry

/-- Intervals that divide all nodes of a graph decompose it. -/
theorem Divides.decomposes {found : List Interval} (divides : Divides g entry [] found)
    (wf : g.WellFormed) (live : entry ∈ g.nodeIds) (all : ∀ n ∈ g.nodeIds, g.Reaches entry n)
    (first : found.head?.map Interval.header = some entry) : Decomposes g entry found where
  parts := by
    have nodup : (found.flatMap Interval.nodes).Nodup := by
      rw [List.nodup_flatMap]
      exact ⟨fun i member => (divides.single i member).nodup, divides.disjoint⟩
    refine (List.perm_ext_iff_of_nodup nodup wf.idsNodup).mpr ?_
    intro n
    rw [List.mem_flatMap]
    constructor
    · rintro ⟨i, member, inside⟩
      exact (divides.reached i member n inside).live wf live
    · intro inside
      exact divides.exists_interval (all n inside)
  first := first
  headed i member := (divides.single i member).head
  entered i member before n after split behind := by
    have single := divides.single i member
    obtain ⟨different, preds⟩ := single.mem_before split behind
    obtain ⟨p, edge⟩ := single.entered n (by simp [split]) different
    refine ⟨List.ne_nil_of_mem (FlowGraph.mem_preds_iff_mem_succs.mpr edge), ?_⟩
    intro q pred
    exact preds q (FlowGraph.mem_preds_iff_mem_succs.mp pred)
  onlyWay i member p n edge outside inside := by
    by_contra inner
    exact outside ((divides.single i member).pred inside inner edge).1
  dominates i member n inside := divides.header_dominates member inside
  cycles i member n inside m passed walk back :=
    (divides.single i member).header_mem_of_cycle inside walk back
  maximal i member n inside different outside := by
    by_contra none
    refine outside (divides.maximal i member n (all n inside) different ?_)
    intro p edge
    by_contra elsewhere
    exact none ⟨p, FlowGraph.mem_preds_iff_mem_succs.mpr edge, elsewhere⟩

end Interval

namespace FlowGraph

variable {g : FlowGraph}

/-- The search for intervals begins with that of the start. -/
theorem intervalsFrom_head {start : NodeId} (live : start ∈ g.nodeIds) :
    (g.intervalsFrom start).head?.map Interval.header = some start := by
  have some : g.size ≠ 0 := by
    intro none
    rw [nodeIds, List.length_eq_zero_iff.mp none] at live
    cases live
  obtain ⟨bound, enough⟩ := Nat.exists_eq_succ_of_ne_zero some
  rw [intervalsFrom, enough]
  rfl

/-- The intervals of a valid graph decompose it. -/
theorem intervals_decompose (wf : g.WellFormed) (valid : g.validate = .ok ()) :
    ∃ entry found, g.entry? = some entry ∧ g.intervals = .ok found ∧
      Interval.Decomposes g entry found := by
  obtain ⟨entry, entered, all⟩ := (validate_eq_ok_iff wf).mp valid
  have live := entry_live entered
  refine ⟨entry, _, entered, intervals_eq_ok entered, ?_⟩
  exact (intervalsFrom_divides wf live).decomposes wf live all (intervalsFrom_head live)

/-- A cycle of two blocks that is entered at both, and behind it a block that repeats itself. -/
def interlocked : FlowGraph where
  name := "interlocked"
  attrs := .empty
  nodes := [⟨0, "A", .ofList [("entry", "true")], .ofAttrs .empty⟩,
    ⟨1, "B", .empty, .ofAttrs .empty⟩, ⟨2, "C", .empty, .ofAttrs .empty⟩,
    ⟨3, "D", .empty, .ofAttrs .empty⟩, ⟨4, "E", .empty, .ofAttrs .empty⟩]
  edges := [⟨0, 1, .empty⟩, ⟨0, 2, .empty⟩, ⟨1, 2, .empty⟩, ⟨2, 1, .empty⟩, ⟨2, 3, .empty⟩,
    ⟨3, 3, .empty⟩, ⟨3, 4, .empty⟩]
  nextNode := 5
  nextEdge := 7

theorem interlocked_decompose : interlocked.WellFormed ∧ interlocked.validate = .ok () ∧
    interlocked.intervals = .ok [⟨0, [0]⟩, ⟨1, [1]⟩, ⟨2, [2]⟩, ⟨3, [3, 4]⟩] ∧
    Interval.Decomposes interlocked 0 [⟨0, [0]⟩, ⟨1, [1]⟩, ⟨2, [2]⟩, ⟨3, [3, 4]⟩] := by
  have wf : interlocked.WellFormed := by decide
  have valid : interlocked.validate = .ok () := by rfl
  have found : interlocked.intervals = .ok [⟨0, [0]⟩, ⟨1, [1]⟩, ⟨2, [2]⟩, ⟨3, [3, 4]⟩] := by rfl
  obtain ⟨entry, intervals, entered, computed, decomposes⟩ := intervals_decompose wf valid
  obtain rfl : entry = 0 := (Option.some.inj entered).symm
  obtain rfl := Except.ok.inj (found.symm.trans computed)
  exact ⟨wf, valid, found, decomposes⟩

end FlowGraph

end ControlFlow
