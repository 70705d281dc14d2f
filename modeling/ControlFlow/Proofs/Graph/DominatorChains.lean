import ControlFlow.Proofs.Graph.Settling

/-! Going up a dominator tree. A tree looks up what the settled table of its graph holds, so that one
step up leads to the nearest strict dominator, and the chain of all steps up from a node holds the
dominators of the node. -/
namespace ControlFlow

theorem DominatorTree.length_climb_le (tree : DominatorTree) (bound : Nat) (id : NodeId) :
    (tree.climb bound id).length ≤ bound := by
  induction bound generalizing id with
  | zero => exact Nat.le_refl 0
  | succ bound ih =>
    rw [climb, List.length_cons]
    refine Nat.succ_le_succ ?_
    cases tree.immediate? id with
    | none => exact Nat.zero_le _
    | some above => exact ih above

namespace FlowGraph

/-- One node is the nearest of the strict dominators of another: the others dominate it. -/
def ImmediatelyDominates (g : FlowGraph) (root a b : NodeId) : Prop :=
  g.StrictlyDominates root a b ∧
    ∀ c, g.StrictlyDominates root c b → c ≠ a → g.Dominates root c a

/-! ## The table behind a tree -/

private theorem lookup_filterMap (link : NodeId → Option NodeId) (ids : List NodeId) (n : NodeId) :
    (ids.filterMap fun id => (link id).map fun up => (id, up)).lookup n =
      if n ∈ ids then link n else none := by
  induction ids with
  | nil => rfl
  | cons id ids ih =>
    cases linked : link id with
    | none =>
      simp only [List.filterMap_cons, linked, Option.map_none, ih]
      by_cases same : n = id
      · simp only [same, linked, ite_self]
      · simp only [List.mem_cons, same, false_or]
    | some up =>
      by_cases same : n = id
      · simp [linked, same]
      · have passed : (n == id) = false := by simpa using same
        simp [linked, List.lookup_cons, passed, ih, same]

private theorem filter_filterMap (link : NodeId → Option NodeId) (root n : NodeId)
    (ids : List NodeId) :
    ((ids.filterMap fun id => (link id).map fun up => (id, up)).filter
        fun (m, up) => m != root && up == n).map Prod.fst =
      ids.filter fun m => m != root && link m == some n := by
  induction ids with
  | nil => rfl
  | cons id ids ih =>
    cases linked : link id with
    | none => simp [linked, ih]
    | some up =>
      by_cases chosen : id ≠ root ∧ up = n
      · simp [linked, chosen, ih]
      · have skipped : (id != root && up == n) = false := by simpa using chosen
        simp [linked, skipped, ih]

section

variable {g : FlowGraph} {root a b n up : NodeId}
variable (wf : g.WellFormed) (live : root ∈ g.nodeIds)
include wf live

theorem above?_eq_none (missed : ¬g.Reaches root n) : (g.ascentFrom root).above? n = none := by
  by_contra placed
  exact missed ((ascentFrom_exact wf live).sound.reached (Option.isSome_iff_ne_none.mpr placed))

theorem exists_above? (reached : g.Reaches root n) : ∃ up, (g.ascentFrom root).above? n = some up :=
  Ascent.placed_iff.mp ((ascentFrom_exact wf live).placed reached)

/-- A tree looks up what the table holds. -/
theorem lookup_parents :
    (g.dominatorsFrom root).parents.lookup n = (g.ascentFrom root).above? n := by
  simp only [dominatorsFrom, lookup_filterMap]
  by_cases member : n ∈ g.nodeIds
  · rw [if_pos member]
  · rw [if_neg member]
    exact (above?_eq_none wf live fun reached => member (reached.live wf live)).symm

theorem isReachable_iff : (g.dominatorsFrom root).isReachable n = true ↔ g.Reaches root n := by
  rw [DominatorTree.isReachable, lookup_parents wf live]
  exact ⟨(ascentFrom_exact wf live).sound.reached, (ascentFrom_exact wf live).placed⟩

theorem immediate?_eq :
    (g.dominatorsFrom root).immediate? n =
      if n = root then none else (g.ascentFrom root).above? n := by
  rw [DominatorTree.immediate?, lookup_parents wf live]
  simp [dominatorsFrom]

/-- The next node up from a node other than the root is its nearest strict dominator. -/
theorem immediate?_eq_some_iff :
    (g.dominatorsFrom root).immediate? n = some a ↔ g.ImmediatelyDominates root a n := by
  have exact := ascentFrom_exact wf live
  rw [immediate?_eq wf live]
  by_cases isRoot : n = root
  · rw [if_pos isRoot]
    refine ⟨nofun, fun immediate => ?_⟩
    obtain ⟨different, dominates⟩ := immediate.1
    exact absurd ((isRoot ▸ dominates).eq_root.trans isRoot.symm) different
  rw [if_neg isRoot]
  -- The node linked to is the only candidate, and it is one.
  have nearest {up : NodeId} (link : (g.ascentFrom root).above? n = some up)
      (reached : g.Reaches root n) : g.ImmediatelyDominates root up n := by
    have lower := exact.sound.lower link isRoot
    refine ⟨⟨fun same => Nat.lt_irrefl _ (same ▸ lower), ?_⟩, fun c strict _ => ?_⟩
    · exact (exact.above_iff reached).mp (.of_above link)
    · obtain ⟨next, found, rest⟩ := ((exact.above_iff reached).mpr strict.2).of_ne strict.1
      obtain rfl := Option.some.inj (link.symm.trans found)
      exact (exact.above_iff (exact.sound.reached (exact.sound.placed link))).mp rest
  constructor
  · intro link
    exact nearest link (exact.sound.reached (Ascent.placed_iff.mpr ⟨a, link⟩))
  · intro immediate
    have reached := immediate.1.2.1
    obtain ⟨up, link⟩ := exists_above? wf live reached
    by_cases same : up = a
    · exact same ▸ link
    have other := nearest link reached
    have ranking := ranking wf live
    have left := ranking.lt_of_strictlyDominates ⟨same, immediate.2 up other.1 same⟩
    have right := ranking.lt_of_strictlyDominates
      ⟨Ne.symm same, other.2 a immediate.1 (Ne.symm same)⟩
    exact absurd left (Nat.lt_asymm right)

theorem immediate?_isSome (reached : g.Reaches root n) (notRoot : n ≠ root) :
    ((g.dominatorsFrom root).immediate? n).isSome = true := by
  obtain ⟨up, link⟩ := exists_above? wf live reached
  simp [immediate?_eq wf live, notRoot, link]

omit wf live in
theorem children_eq :
    (g.dominatorsFrom root).children n =
      g.nodeIds.filter fun m => m != root && (g.ascentFrom root).above? m == some n :=
  filter_filterMap _ root n g.nodeIds

/-! ## Going up -/

/-- No rank is as high as the number of nodes in the tree. -/
theorem rank_lt_size (reached : g.Reaches root n) :
    (g.numbering root).rank n < (g.dominatorsFrom root).size := by
  have nodup := numbering_left_nodup wf root
  refine Nat.lt_of_lt_of_le
    (Numbering.rank_lt_count nodup ((mem_numbering_left wf live).mpr reached)) ?_
  have inTree : (g.numbering root).left ⊆ (g.dominatorsFrom root).parents.map Prod.fst := by
    intro id member
    have reached := (mem_numbering_left wf live).mp member
    obtain ⟨up, link⟩ := exists_above? wf live reached
    simp only [dominatorsFrom, List.mem_map, List.mem_filterMap]
    exact ⟨(id, up), ⟨id, reached.live wf live, by simp [link]⟩, rfl⟩
  have shorter := (nodup.subperm inTree).length_le
  rwa [List.length_map] at shorter

/-- The chain of a node ends with the root or goes on with that of its nearest dominator. -/
theorem climb_induction {motive : NodeId → List NodeId → Prop} (top : motive root [root])
    (up : ∀ id above rest, g.Reaches root id → id ≠ root →
      (g.ascentFrom root).above? id = some above → motive above rest → motive id (id :: rest))
    {bound : Nat} (reached : g.Reaches root n) (enough : (g.numbering root).rank n < bound) :
    motive n ((g.dominatorsFrom root).climb bound n) := by
  have exact := ascentFrom_exact wf live
  induction bound generalizing n with
  | zero => exact absurd enough (Nat.not_lt_zero _)
  | succ bound ih =>
    rw [DominatorTree.climb, immediate?_eq wf live]
    by_cases isRoot : n = root
    · simpa [isRoot] using top
    · obtain ⟨above, link⟩ := exists_above? wf live reached
      have lower := exact.sound.lower link isRoot
      have next := ih (exact.sound.reached (exact.sound.placed link)) (by omega)
      simpa [isRoot, link] using up n above _ reached isRoot link next

theorem chain_induction {motive : NodeId → List NodeId → Prop} (top : motive root [root])
    (up : ∀ id above rest, g.Reaches root id → id ≠ root →
      (g.ascentFrom root).above? id = some above → motive above rest → motive id (id :: rest))
    (reached : g.Reaches root n) : motive n ((g.dominatorsFrom root).chain n) := by
  rw [DominatorTree.chain, if_pos ((isReachable_iff wf live).mpr reached)]
  exact climb_induction wf live top up reached (rank_lt_size wf live reached)

theorem chain_eq_nil (missed : ¬g.Reaches root n) : (g.dominatorsFrom root).chain n = [] := by
  rw [DominatorTree.chain, if_neg ((isReachable_iff wf live).not.mpr missed)]

/-- The chain of a node holds its dominators. -/
theorem mem_chain_iff : a ∈ (g.dominatorsFrom root).chain n ↔ g.Dominates root a n := by
  have exact := ascentFrom_exact wf live
  by_cases reached : g.Reaches root n
  · rw [← exact.above_iff reached]
    refine chain_induction wf live (motive := fun id chain =>
      a ∈ chain ↔ (g.ascentFrom root).AtOrAbove a id) ?_ ?_ reached
    · rw [List.mem_singleton]
      exact ⟨fun same => by rw [same]; exact .refl _, exact.sound.eq_root⟩
    · intro id above rest _ _ link ih
      rw [List.mem_cons, ih]
      constructor
      · rintro (rfl | higher)
        · exact .refl a
        · exact higher.trans (.of_above link)
      · intro higher
        by_cases same : a = id
        · exact .inl same
        · obtain ⟨next, found, rest⟩ := higher.of_ne same
          obtain rfl := Option.some.inj (link.symm.trans found)
          exact .inr rest
  · rw [chain_eq_nil wf live reached]
    exact ⟨nofun, fun dominates => absurd dominates.1 reached⟩

theorem chain_nodup (n : NodeId) : ((g.dominatorsFrom root).chain n).Nodup := by
  have exact := ascentFrom_exact wf live
  by_cases reached : g.Reaches root n
  · suffices strong : ((g.dominatorsFrom root).chain n).Nodup ∧
        ∀ a ∈ (g.dominatorsFrom root).chain n, (g.numbering root).rank a ≤ (g.numbering root).rank n
      from strong.1
    refine chain_induction wf live (motive := fun id chain =>
      chain.Nodup ∧ ∀ a ∈ chain, (g.numbering root).rank a ≤ (g.numbering root).rank id) ?_ ?_ reached
    · simp
    · rintro id above rest - notRoot link ⟨nodup, bound⟩
      have lower := exact.sound.lower link notRoot
      refine ⟨List.nodup_cons.mpr ⟨fun member => ?_, nodup⟩, List.forall_mem_cons.mpr ⟨le_rfl, ?_⟩⟩
      · exact Nat.not_le.mpr lower (bound id member)
      · exact fun a member => (bound a member).trans lower.le
  · rw [chain_eq_nil wf live reached]
    exact List.nodup_nil

/-- The chain of a node goes from the node to the root, each time to the nearest dominator. -/
theorem chain_links (reached : g.Reaches root n) :
    ((g.dominatorsFrom root).chain n).head? = some n ∧
      ((g.dominatorsFrom root).chain n).getLast? = some root ∧
      ((g.dominatorsFrom root).chain n).IsChain fun low high =>
        (g.dominatorsFrom root).immediate? low = some high := by
  refine chain_induction wf live (motive := fun id chain => chain.head? = some id ∧
    chain.getLast? = some root ∧ chain.IsChain fun low high =>
      (g.dominatorsFrom root).immediate? low = some high) ?_ ?_ reached
  · simp
  · rintro id above rest - notRoot link ⟨head, last, linked⟩
    obtain ⟨rest, rfl⟩ := List.head?_eq_some_iff.mp head
    refine ⟨rfl, by simpa using last, .cons_cons ?_ linked⟩
    rw [immediate?_eq wf live, if_neg notRoot, link]

/-- Above a node in its chain are its strict dominators. -/
theorem length_chain (reached : g.Reaches root n) :
    ((g.dominatorsFrom root).chain n).length = {a | g.StrictlyDominates root a n}.ncard + 1 := by
  obtain ⟨rest, chain⟩ := List.head?_eq_some_iff.mp (chain_links wf live reached).1
  have nodup := chain_nodup wf live n
  rw [chain, List.nodup_cons] at nodup
  have strict : {a | g.StrictlyDominates root a n} = (rest.toFinset : Set NodeId) := by
    ext a
    have member := mem_chain_iff wf live (a := a) (n := n)
    rw [chain, List.mem_cons] at member
    rw [Set.mem_ofPred_eq, StrictlyDominates, ← member, List.coe_toFinset, Set.mem_ofPred_eq]
    constructor
    · rintro ⟨different, same | above⟩
      · exact absurd same different
      · exact above
    · intro above
      exact ⟨fun same => nodup.1 (same ▸ above), .inr above⟩
  rw [chain, List.length_cons, strict, Set.ncard_coe_finset, List.toFinset_card_of_nodup nodup.2]

/-- Bounds that are not reached do not matter. -/
theorem climb_eq_chain (reached : g.Reaches root n) {bound : Nat}
    (enough : (g.numbering root).rank n < bound) :
    (g.dominatorsFrom root).climb bound n = (g.dominatorsFrom root).chain n := by
  refine chain_induction wf live (motive := fun id chain => ∀ bound,
    (g.numbering root).rank id < bound → (g.dominatorsFrom root).climb bound id = chain) ?_ ?_
    reached bound enough
  · intro bound enough
    obtain ⟨bound, rfl⟩ := Nat.exists_eq_succ_of_ne_zero (Nat.ne_zero_of_lt enough)
    simp [DominatorTree.climb, immediate?_eq wf live]
  · intro id above rest _ notRoot link ih bound enough
    obtain ⟨bound, rfl⟩ := Nat.exists_eq_succ_of_ne_zero (Nat.ne_zero_of_lt enough)
    have lower := (ascentFrom_exact wf live).sound.lower link notRoot
    have rest := ih bound (by omega)
    simp [DominatorTree.climb, immediate?_eq wf live, notRoot, link, rest]

/-- The chain of a node goes on with that of its nearest dominator. -/
theorem chain_eq_cons (link : (g.dominatorsFrom root).immediate? n = some up) :
    (g.dominatorsFrom root).chain n = n :: (g.dominatorsFrom root).chain up := by
  have strict := ((immediate?_eq_some_iff wf live).mp link).1
  have lower := (ranking wf live).lt_of_strictlyDominates strict
  have enough := rank_lt_size wf live strict.2.1
  obtain ⟨bound, size⟩ := Nat.exists_eq_succ_of_ne_zero (Nat.ne_zero_of_lt enough)
  have rest : (g.dominatorsFrom root).climb bound up = (g.dominatorsFrom root).chain up :=
    climb_eq_chain wf live strict.2.reached (by omega)
  simp only [← climb_eq_chain wf live strict.2.1 enough, size, DominatorTree.climb, link, rest]

/-- One step up leads to what else dominates a node. -/
theorem dominates_iff_of_immediate? (link : (g.dominatorsFrom root).immediate? n = some up) :
    g.Dominates root c n ↔ c = n ∨ g.Dominates root c up := by
  rw [← mem_chain_iff wf live, ← mem_chain_iff wf live, chain_eq_cons wf live link,
    List.mem_cons]

/-- Where there is nothing above a reachable node, it is the root. -/
theorem exists_immediate? (reached : g.Reaches root n) (notRoot : n ≠ root) :
    ∃ up, (g.dominatorsFrom root).immediate? n = some up ∧ g.Reaches root up := by
  obtain ⟨up, link⟩ := Option.isSome_iff_exists.mp (immediate?_isSome wf live reached notRoot)
  exact ⟨up, link, ((immediate?_eq_some_iff wf live).mp link).1.2.reached⟩

end

end FlowGraph

end ControlFlow
