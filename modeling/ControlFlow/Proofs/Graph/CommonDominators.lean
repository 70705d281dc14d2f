import ControlFlow.Proofs.Graph.Dominators

/-! Nearest common dominators. Going up to the smallest depth among some nodes, and from there going
up together, never passes a node that dominates all of them: one step up loses no common dominator
as long as the nodes differ. So where they coincide they have come to the nearest one, which depends
on which nodes were listed and not on their order or on repetitions. -/
namespace ControlFlow

/-- A partial map succeeds on a list where it succeeds on every element. -/
theorem exists_mapM_eq_some {α β : Type} (f : α → Option β) {P : β → Prop} {R : α → β → Prop}
    {items : List α} (each : ∀ a ∈ items, ∃ b, f a = some b ∧ P b ∧ R a b) :
    ∃ images, items.mapM f = some images ∧ (∀ b ∈ images, P b) ∧ List.Forall₂ R items images := by
  induction items with
  | nil => exact ⟨[], rfl, List.forall_mem_nil _, .nil⟩
  | cons a rest ih =>
    obtain ⟨⟨b, found, holds, related⟩, each⟩ := List.forall_mem_cons.mp each
    obtain ⟨images, mapped, all, relatedAll⟩ := ih each
    exact ⟨b :: images, by simp [List.mapM_cons, found, mapped],
      List.forall_mem_cons.mpr ⟨holds, all⟩, .cons related relatedAll⟩

namespace FlowGraph

variable {g : FlowGraph} {root a b c n up : NodeId} {ids : List NodeId}

/-- A node dominates all nodes of a list. -/
def DominatesAll (g : FlowGraph) (root c : NodeId) (ids : List NodeId) : Prop :=
  ∀ id ∈ ids, g.Dominates root c id

/-- Lists whose nodes have the same dominators in turn have the same common ones. -/
theorem dominatesAll_congr {images : List NodeId}
    (same : List.Forall₂ (fun a b => g.Dominates root c a ↔ g.Dominates root c b) ids images) :
    g.DominatesAll root c ids ↔ g.DominatesAll root c images := by
  induction same with
  | nil => exact .rfl
  | cons first _ ih =>
    exact List.forall_mem_cons.trans ((and_congr first ih).trans List.forall_mem_cons.symm)

section

variable (wf : g.WellFormed) (live : root ∈ g.nodeIds)
include wf live

/-! ## Going up -/

/-- Nodes can be brought to the smallest level among them, and lose no common dominator. -/
theorem exists_lifted {level : Nat} (reached : ∀ id ∈ ids, g.Reaches root id)
    (least : (ids.map (g.dominatorsFrom root).level).min? = some level) :
    ∃ lifted, ids.mapM ((g.dominatorsFrom root).lift level (g.dominatorsFrom root).size) =
        some lifted ∧
      (∀ a ∈ lifted, g.Reaches root a ∧ (g.dominatorsFrom root).level a = level) ∧
      lifted ≠ [] ∧ ∀ c, g.DominatesAll root c ids ↔ g.DominatesAll root c lifted := by
  obtain ⟨listed, low⟩ := List.min?_eq_some_iff.mp least
  obtain ⟨id, member, levelId⟩ := List.mem_map.mp listed
  obtain ⟨lifted, mapped, good, kept⟩ := exists_mapM_eq_some
    ((g.dominatorsFrom root).lift level (g.dominatorsFrom root).size)
    (P := fun a => g.Reaches root a ∧ (g.dominatorsFrom root).level a = level)
    (R := fun id a => ∀ c, (g.dominatorsFrom root).level c ≤ level →
      (g.Dominates root c id ↔ g.Dominates root c a)) fun id member => by
      have small := level_lt_size wf live (reached id member)
      obtain ⟨a, found, reachedA, levelA, same⟩ :=
        lift_spec wf live (reached id member) (low _ (List.mem_map_of_mem member))
          (show _ < level + (g.dominatorsFrom root).size by omega)
      exact ⟨a, found, ⟨reachedA, levelA⟩, same⟩
  have some_lifted : lifted ≠ [] := by
    rintro rfl
    rw [List.forall₂_nil_right_iff.mp kept] at member
    cases member
  -- What dominates all of the nodes is not deeper than any of them.
  have same (c : NodeId) (shallow : (g.dominatorsFrom root).level c ≤ level) :
      g.DominatesAll root c ids ↔ g.DominatesAll root c lifted :=
    dominatesAll_congr (kept.imp fun _ _ same => same c shallow)
  refine ⟨lifted, mapped, good, some_lifted, fun c => ⟨fun all => ?_, fun all => ?_⟩⟩
  · exact (same c (levelId ▸ level_le wf live (all id member))).mp all
  · obtain ⟨a, inside⟩ := List.exists_mem_of_ne_nil lifted some_lifted
    exact (same c ((good a inside).2 ▸ level_le wf live (all a inside))).mpr all

/-- Of nodes of one level of which one dominates all there is only one. -/
theorem eq_of_dominatesAll {level : Nat}
    (even : ∀ id ∈ ids, (g.dominatorsFrom root).level id = level)
    (all : g.DominatesAll root c ids) (listed : c ∈ ids) : ∀ id ∈ ids, id = c := by
  intro id member
  by_contra different
  have deeper := level_lt wf live ⟨Ne.symm different, all id member⟩
  rw [even c listed, even id member] at deeper
  exact Nat.lt_irrefl _ deeper

/-- Different nodes of one level can go up together, and lose no common dominator. -/
theorem exists_above_all {level : Nat} (reached : ∀ id ∈ ids, g.Reaches root id)
    (even : ∀ id ∈ ids, (g.dominatorsFrom root).level id = level)
    (differ : ∃ a ∈ ids, ∃ b ∈ ids, a ≠ b) :
    ∃ ups, ids.mapM (g.dominatorsFrom root).immediate? = some ups ∧
      (∀ up ∈ ups, g.Reaches root up ∧ (g.dominatorsFrom root).level up + 1 = level) ∧
      ups ≠ [] ∧ ∀ c, g.DominatesAll root c ids ↔ g.DominatesAll root c ups := by
  obtain ⟨a, left, b, right, different⟩ := differ
  have apart (c : NodeId) (all : g.DominatesAll root c ids) : c ∉ ids := by
    intro listed
    have single := eq_of_dominatesAll wf live even all listed
    exact different ((single a left).trans (single b right).symm)
  have notRoot : root ∉ ids := by
    intro listed
    exact apart root (fun id member => ⟨reached id member, fun _ walk => walk.start_mem⟩) listed
  obtain ⟨ups, mapped, good, links⟩ := exists_mapM_eq_some (g.dominatorsFrom root).immediate?
    (P := fun up => g.Reaches root up ∧ (g.dominatorsFrom root).level up + 1 = level)
    (R := fun id up => id ∈ ids ∧ (g.dominatorsFrom root).immediate? id = some up)
    fun id listed => by
      obtain ⟨up, link, reachedUp⟩ := exists_immediate? wf live (reached id listed)
        fun same => notRoot (same ▸ listed)
      have deeper := level_of_immediate? wf live link
      exact ⟨up, link, ⟨reachedUp, deeper.symm.trans (even id listed)⟩, listed, link⟩
  have some_ups : ups ≠ [] := by
    rintro rfl
    rw [List.forall₂_nil_right_iff.mp links] at left
    cases left
  have below (c : NodeId) (all : g.DominatesAll root c ups) : c ∉ ids := by
    intro listed
    obtain ⟨up, member⟩ := List.exists_mem_of_ne_nil ups some_ups
    have high := level_le wf live (all up member)
    have := (good up member).2
    have := even c listed
    omega
  have same (c : NodeId) (outside : c ∉ ids) :
      g.DominatesAll root c ids ↔ g.DominatesAll root c ups := by
    refine dominatesAll_congr (links.imp fun id up ⟨listed, link⟩ => ?_)
    rw [dominates_iff_of_immediate? wf live link]
    exact or_iff_right fun equal => outside (equal ▸ listed)
  exact ⟨ups, mapped, good, some_ups, fun c =>
    ⟨fun all => (same c (apart c all)).mp all, fun all => (same c (below c all)).mpr all⟩⟩

/-- Nodes of one level that go up together come to a node that has exactly their common
dominators. -/
theorem gather_spec {level bound : Nat} (some_ids : ids ≠ [])
    (reached : ∀ id ∈ ids, g.Reaches root id)
    (even : ∀ id ∈ ids, (g.dominatorsFrom root).level id = level) (enough : level < bound) :
    ∃ top, (g.dominatorsFrom root).gather bound ids = some top ∧ g.Reaches root top ∧
      ∀ c, g.DominatesAll root c ids ↔ g.Dominates root c top := by
  induction bound generalizing ids level with
  | zero => omega
  | succ bound ih =>
    obtain ⟨first, rest, rfl⟩ := List.exists_cons_of_ne_nil some_ids
    rw [DominatorTree.gather]
    by_cases together : ∀ id ∈ rest, id = first
    · refine ⟨first, if_pos (by simpa using together), reached first List.mem_cons_self, ?_⟩
      intro c
      constructor
      · intro all
        exact all first List.mem_cons_self
      · intro dominates id member
        rcases List.mem_cons.mp member with rfl | member
        · exact dominates
        · exact together id member ▸ dominates
    · rw [if_neg (by simpa using together)]
      push Not at together
      obtain ⟨other, member, different⟩ := together
      obtain ⟨ups, mapped, good, some_ups, same⟩ := exists_above_all wf live reached even
        ⟨other, List.mem_cons_of_mem first member, first, List.mem_cons_self, different⟩
      obtain ⟨up, listed⟩ := List.exists_mem_of_ne_nil ups some_ups
      have deeper := (good up listed).2
      obtain ⟨top, found, reachedTop, common⟩ := ih some_ups
        (fun up listed => (good up listed).1)
        (fun up listed => Nat.eq_sub_of_add_eq (good up listed).2) (by omega)
      exact ⟨top, by rw [mapped, Option.bind_some, found], reachedTop,
        fun c => (same c).trans (common c)⟩

/-- The search for a common dominator comes to the node whose dominators are the common ones. -/
theorem common?_spec (some_ids : ids ≠ []) (reached : ∀ id ∈ ids, g.Reaches root id) :
    ∃ top, (g.dominatorsFrom root).common? ids = some top ∧ g.Reaches root top ∧
      ∀ c, g.DominatesAll root c ids ↔ g.Dominates root c top := by
  have all : ids.all (g.dominatorsFrom root).isReachable = true :=
    List.all_eq_true.mpr fun id member => (isReachable_iff wf live).mpr (reached id member)
  obtain ⟨level, least⟩ : ∃ level, (ids.map (g.dominatorsFrom root).level).min? = some level :=
    Option.isSome_iff_exists.mp (by simpa [List.isSome_min?_iff] using some_ids)
  obtain ⟨lifted, mapped, good, some_lifted, kept⟩ := exists_lifted wf live reached least
  obtain ⟨a, inside⟩ := List.exists_mem_of_ne_nil lifted some_lifted
  have bounded := level_lt_size wf live (good a inside).1
  obtain ⟨top, found, reachedTop, common⟩ := gather_spec wf live some_lifted
    (fun a member => (good a member).1) (fun a member => (good a member).2)
    ((good a inside).2 ▸ bounded)
  refine ⟨top, ?_, reachedTop, fun c => (kept c).trans (common c)⟩
  simp only [DominatorTree.common?, all, if_true, least, Option.getD_some, mapped,
    Option.bind_some, found]

end

/-! ## A root that is not in the graph -/

theorem isReachable_of_dead (dead : root ∉ g.nodeIds) :
    (g.dominatorsFrom root).isReachable n = false := by
  have order : (g.numbering root).reversePostorder = [] := by
    simp [numbering, search_of_dead dead, Numbering.ofForest, Numbering.reversePostorder,
      Forest.postorder]
  have table : g.ascentFrom root = ⟨[]⟩ := by
    simp [ascentFrom, Ascent.start, Ascent.settle, Ascent.sweep, order]
  simp [DominatorTree.isReachable, dominatorsFrom, table, Ascent.above?]

/-- A tree reaches what its root reaches, and nothing if the root is not in the graph. -/
theorem isReachable_iff_live (wf : g.WellFormed) :
    (g.dominatorsFrom root).isReachable n = true ↔ root ∈ g.nodeIds ∧ g.Reaches root n := by
  by_cases live : root ∈ g.nodeIds
  · rw [isReachable_iff wf live, and_iff_right live]
  · simp [isReachable_of_dead live, live]

/-! ## Common dominators -/

theorem common?_eq_none_iff (wf : g.WellFormed) :
    (g.dominatorsFrom root).common? ids = none ↔
      ids = [] ∨ ∃ id ∈ ids, ¬(root ∈ g.nodeIds ∧ g.Reaches root id) := by
  constructor
  · intro none
    by_contra! found
    obtain ⟨some_ids, met⟩ := found
    obtain ⟨id, member⟩ := List.exists_mem_of_ne_nil ids some_ids
    obtain ⟨top, found, -⟩ := common?_spec wf (met id member).1 some_ids fun id member =>
      (met id member).2
    rw [none] at found
    cases found
  · rintro (rfl | ⟨id, member, missed⟩)
    · cases size : (g.dominatorsFrom root).size <;>
        simp [DominatorTree.common?, DominatorTree.gather, size]
    · refine if_neg fun all => missed ?_
      exact (isReachable_iff_live wf).mp (List.all_eq_true.mp all id member)

/-- What is found is the one node whose dominators are the common ones. -/
theorem common?_eq_some_iff (wf : g.WellFormed) {top : NodeId} :
    (g.dominatorsFrom root).common? ids = some top ↔
      ids ≠ [] ∧ (∀ id ∈ ids, root ∈ g.nodeIds ∧ g.Reaches root id) ∧
        ∀ c, g.DominatesAll root c ids ↔ g.Dominates root c top := by
  constructor
  · intro found
    have some_found : (g.dominatorsFrom root).common? ids ≠ none := by simp [found]
    rw [Ne, common?_eq_none_iff wf] at some_found
    push Not at some_found
    obtain ⟨some_ids, met⟩ := some_found
    obtain ⟨id, member⟩ := List.exists_mem_of_ne_nil ids some_ids
    obtain ⟨top', found', -, common⟩ := common?_spec wf (met id member).1 some_ids fun id member =>
      (met id member).2
    cases found'.symm.trans found
    exact ⟨some_ids, met, common⟩
  · rintro ⟨some_ids, met, common⟩
    obtain ⟨id, member⟩ := List.exists_mem_of_ne_nil ids some_ids
    have live := (met id member).1
    obtain ⟨top', found, reached', common'⟩ := common?_spec wf live some_ids fun id member =>
      (met id member).2
    have same (c : NodeId) : g.Dominates root c top' ↔ g.Dominates root c top :=
      (common' c).symm.trans (common c)
    have reached : g.Reaches root top := ((same top').mp (.refl reached')).1
    rw [found, (ranking wf live).antisymm ((same top').mp (.refl reached'))
      ((same top).mpr (.refl reached))]

/-- What is found dominates all of the nodes. -/
theorem dominatesAll_of_common? (wf : g.WellFormed) {top : NodeId}
    (found : (g.dominatorsFrom root).common? ids = some top) : g.DominatesAll root top ids := by
  obtain ⟨-, met, common⟩ := (common?_eq_some_iff wf).mp found
  have rootAll : g.DominatesAll root root ids := fun id member =>
    ⟨(met id member).2, fun _ walk => walk.start_mem⟩
  exact (common top).mpr (.refl ((common root).mp rootAll).1)

/-- There is no common dominator of no nodes, nor of nodes of which one is out of reach. Of all
other nodes one is found, so that the way up never ends for want of steps: it dominates them all, and
is dominated by every node that does. Which one it is depends on which nodes are listed, not on
their order or on repetitions. -/
theorem common?_nearest (wf : g.WellFormed) (root : NodeId) (ids : List NodeId) :
    ((g.dominatorsFrom root).common? ids = none ↔
      ids = [] ∨ ∃ id ∈ ids, ¬(root ∈ g.nodeIds ∧ g.Reaches root id)) ∧
    (∀ top, (g.dominatorsFrom root).common? ids = some top →
      g.DominatesAll root top ids ∧ ∀ c, g.DominatesAll root c ids → g.Dominates root c top) ∧
    ∀ others : List NodeId, (∀ id, id ∈ others ↔ id ∈ ids) →
      (g.dominatorsFrom root).common? others = (g.dominatorsFrom root).common? ids := by
  refine ⟨common?_eq_none_iff wf, fun top found => ?_, fun others same => ?_⟩
  · obtain ⟨-, -, common⟩ := (common?_eq_some_iff wf).mp found
    exact ⟨dominatesAll_of_common? wf found, fun c => (common c).mp⟩
  · refine Option.ext fun top => ?_
    rw [common?_eq_some_iff wf, common?_eq_some_iff wf]
    simp only [DominatesAll, same, List.eq_nil_iff_forall_not_mem, ne_eq]

/-- A block behind the first one from which a long way and a short way go on. The short way leads
back to it, and another block that is out of reach leads there as well. -/
def uneven : FlowGraph where
  name := "uneven"
  attrs := .empty
  nodes := [⟨0, "A", .ofList [("entry", "true")], .ofAttrs .empty⟩,
    ⟨1, "B", .empty, .ofAttrs .empty⟩, ⟨2, "C", .empty, .ofAttrs .empty⟩,
    ⟨3, "D", .empty, .ofAttrs .empty⟩, ⟨4, "E", .empty, .ofAttrs .empty⟩,
    ⟨5, "F", .empty, .ofAttrs .empty⟩]
  edges := [⟨0, 1, .empty⟩, ⟨1, 2, .ofList [("cond", "true")]⟩,
    ⟨1, 3, .ofList [("cond", "false")]⟩, ⟨2, 4, .empty⟩, ⟨3, 1, .empty⟩, ⟨5, 3, .empty⟩]
  nextNode := 6
  nextEdge := 6

theorem uneven_common : uneven.WellFormed ∧
    (uneven.dominatorsFrom 0).common? [4, 3, 4] = some 1 ∧
    (uneven.DominatesAll 0 1 [4, 3, 4] ∧
      ∀ c, uneven.DominatesAll 0 c [4, 3, 4] → uneven.Dominates 0 c 1) ∧
    (uneven.dominatorsFrom 0).common? [3, 4] = some 1 ∧
    (uneven.dominatorsFrom 0).common? [3, 5] = none ∧
    ∃ id ∈ [3, 5], ¬(0 ∈ uneven.nodeIds ∧ uneven.Reaches 0 id) := by
  have wf : uneven.WellFormed := by decide
  have found : (uneven.dominatorsFrom 0).common? [4, 3, 4] = some 1 := by decide
  have missed : (uneven.dominatorsFrom 0).common? [3, 5] = none := by decide
  have nearest := common?_nearest wf 0 [4, 3, 4]
  refine ⟨wf, found, nearest.2.1 1 found, ?_, missed, ?_⟩
  · exact (nearest.2.2 [3, 4] (by simp [or_comm])).trans found
  · exact ((common?_nearest wf 0 [3, 5]).1.mp missed).resolve_left (List.cons_ne_nil _ _)

end FlowGraph

end ControlFlow
