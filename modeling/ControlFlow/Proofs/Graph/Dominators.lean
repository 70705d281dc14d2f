import ControlFlow.Proofs.Graph.DominatorLevels

/-! Dominator trees are exact: every question that is asked of a tree is answered as the walks of
the graph answer it. -/
namespace ControlFlow

/-! ## Exactness -/

/-- A tree answers every question about dominance as the walks from its root do. -/
structure DominatorTree.Exact (tree : DominatorTree) (g : FlowGraph) : Prop where
  dominates_iff : ∀ a b, tree.dominates a b = true ↔ g.Dominates tree.root a b
  immediate?_eq_some_iff :
    ∀ a n, tree.immediate? n = some a ↔ g.ImmediatelyDominates tree.root a n
  immediate?_isSome :
    ∀ n, g.Reaches tree.root n → n ≠ tree.root → (tree.immediate? n).isSome = true
  /-- The depth of a node is the number of its strict dominators. -/
  depth?_eq_some_iff : ∀ n depth, tree.depth? n = some depth ↔
    g.Reaches tree.root n ∧ {a | g.StrictlyDominates tree.root a n}.ncard = depth
  /-- The children of a node are listed in the order of the graph's nodes. -/
  children_eq : ∀ n, tree.children n = g.nodeIds.filter fun m => tree.immediate? m == some n
  mem_chain_iff : ∀ a n, a ∈ tree.chain n ↔ g.Dominates tree.root a n
  chain_nodup : ∀ n, (tree.chain n).Nodup
  /-- The dominators of a node begin with the node, end with the root, and each is followed by its
  nearest one. -/
  chain_links : ∀ n, g.Reaches tree.root n →
    (tree.chain n).head? = some n ∧ (tree.chain n).getLast? = some tree.root ∧
      (tree.chain n).IsChain fun low high => tree.immediate? low = some high

namespace FlowGraph

theorem exact_dominatorsFrom {g : FlowGraph} {root : NodeId} (wf : g.WellFormed)
    (live : root ∈ g.nodeIds) : (g.dominatorsFrom root).Exact g where
  dominates_iff a b := dominates_iff wf live
  immediate?_eq_some_iff a n := immediate?_eq_some_iff wf live
  immediate?_isSome n := immediate?_isSome wf live
  depth?_eq_some_iff n depth := by
    rw [DominatorTree.depth?]
    by_cases reached : g.Reaches root n
    · rw [if_pos ((isReachable_iff wf live).mpr reached), level_eq_ncard wf live reached]
      simp [dominatorsFrom, reached]
    · rw [if_neg ((isReachable_iff wf live).not.mpr reached)]
      exact iff_of_false (Option.some_ne_none depth).symm fun both => reached both.1
  children_eq n := by
    rw [FlowGraph.children_eq]
    refine List.filter_congr fun m _ => ?_
    rw [immediate?_eq wf live]
    by_cases isRoot : m = root <;> simp [isRoot]
  mem_chain_iff a n := mem_chain_iff wf live
  chain_nodup := chain_nodup wf live
  chain_links n := chain_links wf live

/-- The computation of dominators ends: after some number of sweeps the table no longer changes,
and this is the table that the tree is read off. The tree is exact, whatever nodes are out of reach
and however the loops of the graph are entered. -/
theorem dominatorsFrom_settled_exact {g : FlowGraph} {root : NodeId} (wf : g.WellFormed)
    (live : root ∈ g.nodeIds) :
    (∃ sweeps, (Ascent.sweep g (g.numbering root))^[sweeps]
        (.start (g.numbering root).reversePostorder) = g.ascentFrom root) ∧
      (g.ascentFrom root).sweep g (g.numbering root) = g.ascentFrom root ∧
      (g.dominatorsFrom root).root = root ∧ (g.dominatorsFrom root).Exact g :=
  ⟨Ascent.exists_iterate_eq_settle _ _, sweep_of_exact wf live (ascentFrom_exact wf live), rfl,
    exact_dominatorsFrom wf live⟩

/-- Two nodes that control enters separately and that lead to each other, one of them also to
itself. Node 3 has been removed, and node 4 leads to them but is out of reach. -/
def crossing : FlowGraph where
  name := "crossing"
  attrs := .empty
  nodes := [⟨0, "A", .ofList [("entry", "true")], .ofAttrs .empty⟩,
    ⟨1, "B", .empty, .ofAttrs .empty⟩, ⟨2, "C", .empty, .ofAttrs .empty⟩,
    ⟨4, "D", .empty, .ofAttrs .empty⟩]
  edges := [⟨0, 1, .empty⟩, ⟨0, 2, .empty⟩, ⟨1, 2, .empty⟩, ⟨2, 1, .empty⟩, ⟨2, 2, .empty⟩,
    ⟨4, 1, .empty⟩]
  nextNode := 5
  nextEdge := 6

theorem crossing_dominators : crossing.WellFormed ∧ 0 ∈ crossing.nodeIds ∧
    (crossing.dominatorsFrom 0).Exact crossing ∧
    (crossing.dominatorsFrom 0).immediate? 2 = some 0 ∧
    (crossing.dominatorsFrom 0).immediate? 4 = none :=
  ⟨by decide, by decide, (dominatorsFrom_settled_exact (by decide) (by decide)).2.2.2,
    by decide, by decide⟩

end FlowGraph

end ControlFlow
