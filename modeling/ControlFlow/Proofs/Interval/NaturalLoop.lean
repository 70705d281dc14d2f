import ControlFlow.Interval.Loops
import ControlFlow.Proofs.Graph.Dominators

/-! Natural loops. An edge back to a node that dominates its source closes a loop: the nodes that
reach its source without passing its target, and the target. A second loop that overlaps it has its
head inside it or around it. The members written down for a loop are the nodes of the natural loop
that the head dominates and that lie between head and latch in reverse postorder; the latch is
always one of them. -/
namespace ControlFlow.FlowGraph

variable {g h : FlowGraph} {start head latch n a b c : NodeId} {passed : List NodeId}

/-- An edge leads back to a node that dominates its source. -/
structure ClosesLoop (g : FlowGraph) (start head latch : NodeId) : Prop where
  edge : g.Step latch head
  dominates : g.Dominates start head latch

/-- A node is in the natural loop of an edge: it is the head or has a way to the latch that does not
pass the head. -/
def InLoop (g : FlowGraph) (head latch n : NodeId) : Prop :=
  n = head ∨ ∃ passed, g.Walk n latch passed ∧ head ∉ passed

/-- A node is written down as a member of a loop. -/
structure LoopMember (g : FlowGraph) (start head latch n : NodeId) : Prop where
  inside : g.InLoop head latch n
  dominated : g.Dominates start head n
  after : (g.numbering start).rank head ≤ (g.numbering start).rank n
  before : (g.numbering start).rank n ≤ (g.numbering start).rank latch

/-- A step in front of a walk makes a walk. -/
theorem Walk.cons (edge : g.Step a b) (walk : g.Walk b c passed) : g.Walk a c (a :: passed) := by
  induction walk with
  | here => exact .step .here edge
  | step _ further ih => exact ih.step further

namespace InLoop

theorem of_latch : g.InLoop head latch latch := by
  by_cases same : latch = head
  · exact .inl same
  · exact .inr ⟨[latch], .here, fun member => same (List.mem_singleton.mp member).symm⟩

/-- What leads into a loop, but not to its head, is in the loop. -/
theorem of_step (inside : g.InLoop head latch b) (edge : g.Step a b) (inner : b ≠ head) :
    g.InLoop head latch a := by
  obtain ⟨passed, walk, around⟩ := inside.resolve_left inner
  by_cases same : a = head
  · exact .inl same
  · refine .inr ⟨_, walk.cons edge, fun member => ?_⟩
    rcases List.mem_cons.mp member with first | later
    · exact same first.symm
    · exact around later

/-- A node that dominates a node of a loop, below the head of the loop, is in the loop. -/
theorem of_dominates {rank : NodeId → Nat} (ranking : g.Ranking start rank)
    (strict : g.StrictlyDominates start head a) (dominates : g.Dominates start a b)
    (inside : g.InLoop head latch b) : g.InLoop head latch a := by
  obtain ⟨passed, walk, around⟩ := ranking.exists_walk_around strict dominates
  have inner : b ≠ head := by
    rintro rfl
    exact around walk.end_mem
  obtain ⟨further, rest, outside⟩ := inside.resolve_left inner
  refine .inr ⟨_, walk.append rest, fun member => ?_⟩
  rcases List.mem_append.mp member with before | after
  · exact around before
  · exact outside (List.mem_of_mem_tail after)

end InLoop

/-- Backwards from a latch, and never to the head, the search comes to the other nodes of the
loop. -/
theorem mem_naturalLoop (wf : g.WellFormed) (live : latch ∈ g.nodeIds) :
    n ∈ g.naturalLoop head latch ↔ g.InLoop head latch n := by
  have allowed {id : NodeId} : id ∈ g.nodeIds.filter (· != head) ↔ id ∈ g.nodeIds ∧ id ≠ head := by
    rw [List.mem_filter, bne_iff_ne]
  rw [naturalLoop, List.mem_cons, mem_searchFrom (wf.idsNodup.filter _)]
  refine or_congr_right ?_
  constructor
  · rintro ⟨root, isLatch, available, path⟩
    obtain rfl := List.mem_singleton.mp isLatch
    induction path with
    | refl =>
      refine ⟨[root], .here, fun member => ?_⟩
      exact (allowed.mp available).2 (List.mem_singleton.mp member).symm
    | tail _ hop ih =>
      obtain ⟨passed, walk, around⟩ := ih
      refine ⟨_, walk.cons (mem_preds_iff_mem_succs.mp hop.1), fun member => ?_⟩
      rcases List.mem_cons.mp member with first | later
      · exact (allowed.mp hop.2).2 first.symm
      · exact around later
  · rintro ⟨passed, walk, around⟩
    refine ⟨latch, List.mem_singleton_self latch, ?_, ?_⟩
    · refine allowed.mpr ⟨live, ?_⟩
      rintro rfl
      exact around walk.end_mem
    · clear live
      induction walk with
      | here => exact .refl
      | step walk edge ih =>
        rw [List.mem_append, not_or] at around
        refine (ih around.1).head ⟨mem_preds_iff_mem_succs.mpr edge,
          allowed.mpr ⟨wf.source_live edge, ?_⟩⟩
        rintro rfl
        exact around.1 walk.end_mem

section

variable (wf : g.WellFormed) (live : start ∈ g.nodeIds)
include wf live

theorem revPostNum?_eq_some_rank (reached : g.Reaches start n) :
    (g.numbering start).revPostNum? n = some ((g.numbering start).rank n) := by
  have left := (mem_numbering_left wf live).mpr reached
  have found : ((g.numbering start).postNum? n).isSome = true := by
    rw [Numbering.postNum?, List.isSome_idxOf?]
    exact left
  obtain ⟨post, found⟩ := Option.isSome_iff_exists.mp found
  simp [Numbering.rank, Numbering.revPostNum?, found]

/-- Closing edges can be read off the dominator tree. -/
theorem closesLoop_iff : g.ClosesLoop start head latch ↔
    head ∈ g.succs latch ∧ (g.dominatorsFrom start).dominates head latch = true := by
  have dominates : (g.dominatorsFrom start).dominates head latch = true ↔
      g.Dominates start head latch := (exact_dominatorsFrom wf live).dominates_iff head latch
  rw [dominates]
  exact ⟨fun closes => ⟨closes.edge, closes.dominates⟩, fun both => ⟨both.1, both.2⟩⟩

theorem mem_loopMembers (closes : g.ClosesLoop start head latch) :
    n ∈ g.loopMembers (g.dominatorsFrom start) (g.numbering start) head latch ↔
      g.LoopMember start head latch n := by
  have latchLive := closes.dominates.1.live wf live
  have headReached := closes.dominates.1.step closes.edge
  have exact := exact_dominatorsFrom wf live
  have dominates : (g.dominatorsFrom start).dominates head n = true ↔ g.Dominates start head n :=
    exact.dominates_iff head n
  simp only [loopMembers, revPostNum?_eq_some_rank wf live headReached,
    revPostNum?_eq_some_rank wf live closes.dominates.1, List.mem_filter, Bool.and_eq_true,
    List.contains_iff_mem, mem_naturalLoop wf latchLive, dominates]
  constructor
  · rintro ⟨-, ⟨inside, dominated⟩, between⟩
    rw [revPostNum?_eq_some_rank wf live dominated.1] at between
    simp only [Option.any_some, Bool.and_eq_true, decide_eq_true_eq] at between
    exact ⟨inside, dominated, between.1, between.2⟩
  · rintro ⟨inside, dominated, after, before⟩
    refine ⟨dominated.1.live wf live, ⟨inside, dominated⟩, ?_⟩
    rw [revPostNum?_eq_some_rank wf live dominated.1]
    simp [after, before]

/-- The latch is a member of its loop. -/
theorem ClosesLoop.latch_member (closes : g.ClosesLoop start head latch) :
    g.LoopMember start head latch latch where
  inside := .of_latch
  dominated := closes.dominates
  after := ((ranking wf live).climbs_of_dominates closes.dominates).rank_le
  before := Nat.le_refl _

end

end ControlFlow.FlowGraph
