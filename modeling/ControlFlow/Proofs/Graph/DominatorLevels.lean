import ControlFlow.Proofs.Graph.DominatorChains

/-! The depths in a dominator tree. They are written down in reverse postorder, in which a node comes
behind its nearest dominator, so that each is one more than a depth that has been written down before.
So the depth of a node is the number of its strict dominators; and going up from a node to a given
depth passes no dominator of that depth, which is how a tree tells whether one node dominates another.
-/
namespace ControlFlow

namespace Ascent

variable {ascent : Ascent} {depths : List (NodeId × Nat)} {ids before later order : List NodeId}
  {id up : NodeId}

/-- The depth of a node is written down when its turn comes. -/
theorem lookup_foldl_addDepth (missing : id ∉ ids) :
    (ids.foldl ascent.addDepth depths).lookup id = depths.lookup id := by
  induction ids generalizing depths with
  | nil => rfl
  | cons other ids ih =>
    obtain ⟨different, missing⟩ := not_or.mp (List.mem_cons.not.mp missing)
    rw [List.foldl_cons, ih missing, addDepth]
    split
    · rw [List.lookup_cons, beq_eq_false_iff_ne.mpr different]
    · rfl

/-- A node is one step deeper than the node above it, if that comes before it. -/
theorem lookup_depths (split : order.tail = before ++ id :: later) (link : ascent.above? id = some up)
    (once : id ∉ later) (different : up ≠ id) (early : up ∉ later) :
    (ascent.depths order).lookup id = some (((ascent.depths order).lookup up).getD 0 + 1) := by
  have other : (up == id) = false := beq_eq_false_iff_ne.mpr different
  rw [depths, split, List.foldl_append, List.foldl_cons, lookup_foldl_addDepth once,
    lookup_foldl_addDepth early, addDepth, link]
  simp [List.lookup_cons, other]

theorem lookup_depths_root (missing : id ∉ order.tail) :
    (ascent.depths order).lookup id = none := by
  rw [depths, lookup_foldl_addDepth missing]
  rfl

end Ascent

namespace FlowGraph

variable {g : FlowGraph} {root a b c n up : NodeId}

section

variable (wf : g.WellFormed) (live : root ∈ g.nodeIds)
include wf live

theorem level_root : (g.dominatorsFrom root).level root = 0 := by
  have missing : root ∉ (g.numbering root).reversePostorder.tail := fun listed =>
    ((mem_reversePostorder_tail wf live).mp listed).2 rfl
  simp only [DominatorTree.level, dominatorsFrom, Ascent.lookup_depths_root missing,
    Option.getD_none]

theorem level_of_immediate? (link : (g.dominatorsFrom root).immediate? n = some up) :
    (g.dominatorsFrom root).level n = (g.dominatorsFrom root).level up + 1 := by
  have strict := ((immediate?_eq_some_iff wf live).mp link).1
  have notRoot : n ≠ root := by
    rintro rfl
    exact strict.1 strict.2.eq_root
  rw [immediate?_eq wf live, if_neg notRoot] at link
  have lower := (ascentFrom_exact wf live).sound.lower link notRoot
  obtain ⟨before, later, split⟩ :=
    List.append_of_mem ((mem_reversePostorder_tail wf live).mpr ⟨strict.2.1, notRoot⟩)
  have order := (Numbering.pairwise_rank (numbering_left_nodup wf root)).sublist
    (List.tail_sublist _)
  rw [split, List.pairwise_append, List.pairwise_cons] at order
  have behind : ∀ m ∈ later, (g.numbering root).rank n < (g.numbering root).rank m := order.2.1.1
  have depth := Ascent.lookup_depths split link
    (fun again => Nat.lt_irrefl _ (behind n again)) (fun same => Nat.lt_irrefl _ (same ▸ lower))
    (fun after => Nat.lt_asymm lower (behind up after))
  simp only [DominatorTree.level, dominatorsFrom, depth, Option.getD_some]

/-- The depth of a node is the number of steps up its chain. -/
theorem length_chain_eq (reached : g.Reaches root n) :
    ((g.dominatorsFrom root).chain n).length = (g.dominatorsFrom root).level n + 1 := by
  refine chain_induction wf live (motive := fun id chain =>
    chain.length = (g.dominatorsFrom root).level id + 1) ?_ ?_ reached
  · rw [level_root wf live, List.length_singleton]
  · intro id above rest _ notRoot link length
    have step : (g.dominatorsFrom root).immediate? id = some above := by
      rw [immediate?_eq wf live, if_neg notRoot, link]
    rw [List.length_cons, length, level_of_immediate? wf live step]

theorem level_eq_ncard (reached : g.Reaches root n) :
    (g.dominatorsFrom root).level n = {a | g.StrictlyDominates root a n}.ncard :=
  Nat.succ.inj ((length_chain_eq wf live reached).symm.trans (length_chain wf live reached))

theorem level_lt_size (reached : g.Reaches root n) :
    (g.dominatorsFrom root).level n < (g.dominatorsFrom root).size := by
  have short := (g.dominatorsFrom root).length_climb_le (g.dominatorsFrom root).size n
  have length := length_chain_eq wf live reached
  rw [DominatorTree.chain, if_pos ((isReachable_iff wf live).mpr reached)] at length
  omega

/-- A node is deeper than those that strictly dominate it. -/
theorem level_lt (strict : g.StrictlyDominates root a b) :
    (g.dominatorsFrom root).level a < (g.dominatorsFrom root).level b := by
  induction order : (g.dominatorsFrom root).level b using Nat.strong_induction_on generalizing b with
  | _ level ih =>
    have notRoot : b ≠ root := by
      rintro rfl
      exact strict.1 strict.2.eq_root
    obtain ⟨up, link, -⟩ := exists_immediate? wf live strict.2.1 notRoot
    have deeper := level_of_immediate? wf live link
    rcases (dominates_iff_of_immediate? wf live link).mp strict.2 with same | dominates
    · exact absurd same strict.1
    · by_cases same : a = up
      · subst same
        omega
      · have := ih _ (by omega) ⟨same, dominates⟩ rfl
        omega

theorem level_le (dominates : g.Dominates root a b) :
    (g.dominatorsFrom root).level a ≤ (g.dominatorsFrom root).level b := by
  by_cases same : a = b
  · rw [same]
  · exact (level_lt wf live ⟨same, dominates⟩).le

/-! ## Going up -/

/-- A node brought to a level keeps its dominators up to that level. -/
theorem lift_spec {level bound : Nat} (reached : g.Reaches root n)
    (deep : level ≤ (g.dominatorsFrom root).level n)
    (enough : (g.dominatorsFrom root).level n < level + bound) :
    ∃ a, (g.dominatorsFrom root).lift level bound n = some a ∧ g.Reaches root a ∧
      (g.dominatorsFrom root).level a = level ∧
      ∀ c, (g.dominatorsFrom root).level c ≤ level →
        (g.Dominates root c n ↔ g.Dominates root c a) := by
  induction bound generalizing n with
  | zero => omega
  | succ bound ih =>
    rw [DominatorTree.lift]
    by_cases deeper : level < (g.dominatorsFrom root).level n
    · have notRoot : n ≠ root := by
        rintro rfl
        rw [level_root wf live] at deeper
        exact absurd deeper (Nat.not_lt_zero _)
      obtain ⟨up, link, reachedUp⟩ := exists_immediate? wf live reached notRoot
      have above := level_of_immediate? wf live link
      obtain ⟨a, lifted, reachedA, levelA, same⟩ := ih reachedUp (by omega) (by omega)
      refine ⟨a, by rw [if_pos deeper, link, Option.bind_some, lifted], reachedA, levelA, ?_⟩
      intro c low
      have other : c ≠ n := by
        rintro rfl
        exact absurd deeper (Nat.not_lt.mpr low)
      rw [dominates_iff_of_immediate? wf live link, same c low, or_iff_right other]
    · exact ⟨n, if_neg deeper, reached, by omega, fun _ _ => .rfl⟩

/-- Going up to the depth of a node leads to the node if it dominates. -/
theorem dominates_iff :
    (g.dominatorsFrom root).dominates a b = true ↔ g.Dominates root a b := by
  simp only [DominatorTree.dominates, Bool.and_eq_true, isReachable_iff wf live, beq_iff_eq]
  have enough (reached : g.Reaches root b) : (g.dominatorsFrom root).level b <
      (g.dominatorsFrom root).level a + (g.dominatorsFrom root).size :=
    Nat.lt_add_left _ (level_lt_size wf live reached)
  constructor
  · rintro ⟨⟨reachedA, reachedB⟩, lifted⟩
    by_cases deep : (g.dominatorsFrom root).level a ≤ (g.dominatorsFrom root).level b
    · obtain ⟨top, found, -, -, same⟩ := lift_spec wf live reachedB deep (enough reachedB)
      obtain rfl := Option.some.inj (found.symm.trans lifted)
      exact (same top le_rfl).mpr (.refl reachedA)
    · -- Nothing goes up from a node that is not deep enough, so the two are one.
      obtain ⟨bound, size⟩ := Nat.exists_eq_succ_of_ne_zero
        (Nat.ne_zero_of_lt (level_lt_size wf live reachedB))
      rw [size, DominatorTree.lift, if_neg (by omega)] at lifted
      exact absurd (Option.some.inj lifted ▸ le_rfl) deep
  · intro dominates
    obtain ⟨top, found, -, even, same⟩ := lift_spec wf live dominates.1 (level_le wf live dominates)
      (enough dominates.1)
    refine ⟨⟨dominates.reached, dominates.1⟩, found.trans (congrArg some ?_)⟩
    by_contra different
    have deeper := level_lt wf live ⟨Ne.symm different, (same a le_rfl).mp dominates⟩
    exact Nat.lt_irrefl _ (even ▸ deeper)

end

end FlowGraph

end ControlFlow
