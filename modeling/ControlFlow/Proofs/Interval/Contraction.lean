import ControlFlow.Proofs.Except
import ControlFlow.Proofs.Graph.Reducible
import ControlFlow.Proofs.Interval.ShortCircuit

/-! What joining tests does to walks. The block that goes can be entered from the block before it
only, which afterwards leads where that block led. So walks between blocks that stay can be followed
in the new graph, and back through the block that went: what was reached still is, dominators stay
dominators, and a reducible graph stays reducible. -/
namespace ControlFlow.ShortCircuit

open FlowGraph

variable {g h : FlowGraph} {c : Contraction} {entry a b n : NodeId} {passed : List NodeId}

theorem step_joined : (joined g c).Step a b ↔
    (a = c.outer ∧ b = c.target) ∨ g.Step a b ∧ a ≠ c.inner ∧ b ≠ c.inner := by
  rw [joined, (sameCore_annotate _ _).step, Step, mem_insertEdge_succs, mem_removeNode_succs]
  rfl

section

variable (wf : g.WellFormed) (fits : Fits g c)
include wf fits

omit wf in
/-- What the inner block leads to, the outer one leads to in the end. -/
theorem Fits.step_outer (edge : g.Step c.inner b) : (joined g c).Step c.outer b := by
  have other : b ≠ c.inner := by
    rintro rfl
    exact fits.different (fits.alone _ edge)
  have first : b = c.target ∨ g.Step c.outer b := by
    obtain ⟨shape, -, -, -⟩ := fits
    cases shape with
    | and outer inner => exact (inner.mem_succs.mp edge).imp_right (outer.mem_succs.mpr ∘ .inr)
    | andNot outer inner =>
      exact (inner.mem_succs.mp edge).symm.imp_right (outer.mem_succs.mpr ∘ .inr)
    | or outer inner =>
      exact (inner.mem_succs.mp edge).symm.imp_right (outer.mem_succs.mpr ∘ .inl)
    | orNot outer inner => exact (inner.mem_succs.mp edge).imp_right (outer.mem_succs.mpr ∘ .inl)
  rcases first with rfl | edge
  · exact step_joined.mpr (.inl ⟨rfl, rfl⟩)
  · exact step_joined.mpr (.inr ⟨edge, fits.different.symm, other⟩)

/-- A walk of the new graph can be followed through the block that went. -/
theorem walk_of_joined (walk : (joined g c).Walk a b passed) :
    ∃ further, g.Walk a b further ∧ ∀ n ∈ further, n = c.inner ∨ n ∈ passed := by
  induction walk with
  | here => exact ⟨[a], .here, fun n member => .inr member⟩
  | @step m passed b walk edge ih =>
    obtain ⟨further, way, inside⟩ := ih
    have before (n : NodeId) (member : n ∈ further) : n = c.inner ∨ n ∈ passed ++ [b] :=
      (inside n member).imp_right (List.mem_append_left [b])
    have last : b ∈ passed ++ [b] := List.mem_append_right passed (List.mem_singleton_self b)
    rcases step_joined.mp edge with ⟨rfl, rfl⟩ | ⟨edge, -, -⟩
    · obtain ⟨kept, -, target, -⟩ := fits.targets wf
      refine ⟨_, (way.step (fits.edge wf)).step target, fun n member => ?_⟩
      simp only [List.mem_append, List.mem_singleton] at member
      rcases member with (old | rfl) | rfl
      · exact before n old
      · exact .inl rfl
      · exact .inr last
    · refine ⟨_, way.step edge, fun n member => ?_⟩
      rcases List.mem_append.mp member with old | new
      · exact before n old
      · rw [List.mem_singleton.mp new]
        exact .inr last

omit wf in
/-- A walk between blocks that stay leads on in the new graph; one to the block that went has come
as far as the block before it. -/
theorem joined_of_walk (start : a ≠ c.inner) (walk : g.Walk a b passed) :
    ∃ further, (joined g c).Walk a (if b = c.inner then c.outer else b) further := by
  induction walk with
  | here => exact ⟨[a], by rw [if_neg start]; exact .here⟩
  | @step m passed b walk edge ih =>
    obtain ⟨further, way⟩ := ih
    by_cases gone : b = c.inner
    · have source : m = c.outer := fits.alone m (gone ▸ edge)
      rw [if_neg (source ▸ fits.different.symm), source] at way
      exact ⟨further, by rwa [if_pos gone]⟩
    · rw [if_neg gone]
      by_cases through : m = c.inner
      · rw [if_pos through] at way
        exact ⟨_, way.step (fits.step_outer (through ▸ edge))⟩
      · rw [if_neg through] at way
        exact ⟨_, way.step (step_joined.mpr (.inr ⟨edge, through, gone⟩))⟩

omit wf in
theorem reaches_joined (start : a ≠ c.inner) (stays : b ≠ c.inner) (reached : g.Reaches a b) :
    (joined g c).Reaches a b := by
  obtain ⟨passed, walk⟩ := reached
  obtain ⟨further, way⟩ := joined_of_walk fits start walk
  rw [if_neg stays] at way
  exact ⟨further, way⟩

theorem reaches_of_joined (reached : (joined g c).Reaches a b) : g.Reaches a b := by
  obtain ⟨passed, walk⟩ := reached
  obtain ⟨further, way, -⟩ := walk_of_joined wf fits walk
  exact ⟨further, way⟩

theorem dominates_joined (start : entry ≠ c.inner) (above : a ≠ c.inner) (stays : b ≠ c.inner)
    (dominates : g.Dominates entry a b) : (joined g c).Dominates entry a b := by
  refine ⟨reaches_joined fits start stays dominates.1, fun passed walk => ?_⟩
  obtain ⟨further, way, inside⟩ := walk_of_joined wf fits walk
  exact (inside a (dominates.2 further way)).resolve_left above

/-- A reducible graph stays reducible: the new edge leads up like the two edges that it stands
for. -/
theorem reducible_joined (entered : g.entry? = some entry) (reducible : g.Reducible entry) :
    (joined g c).Reducible entry := by
  have live := entry_live entered
  have start : entry ≠ c.inner := fun same => fits.notEntry (same ▸ entered)
  obtain ⟨height, stratifies⟩ := (reducible_iff wf live).mp reducible
  refine (reducible_iff (wellFormed_joined wf fits) (entry_live (entry_joined wf fits entered))).mpr
    ⟨height, fun m n reached edge => ?_⟩
  have reached := reaches_of_joined wf fits reached
  rcases step_joined.mp edge with ⟨rfl, rfl⟩ | ⟨edge, source, target⟩
  · obtain ⟨kept, -, exit, -⟩ := fits.targets wf
    have through : g.Reaches entry c.inner := reached.step (fits.edge wf)
    rcases stratifies _ _ reached (fits.edge wf) with higher | dominates
    · rcases stratifies _ _ through exit with higher' | dominates
      · exact .inl (Nat.lt_trans higher higher')
      · have above := dominates.of_step (fits.target_ne_inner wf) reached (fits.edge wf)
        exact .inr (dominates_joined wf fits start (fits.target_ne_inner wf) fits.different.symm
          above)
    · -- The inner block cannot dominate the only block that leads to it.
      have below : g.Dominates entry c.outer c.inner := by
        refine .of_preds through start.symm fun p reached' edge => ?_
        rw [fits.alone p edge]
        exact .refl reached
      exact absurd ((ranking wf live).antisymm dominates below) fits.different
  · rcases stratifies m n reached edge with higher | dominates
    · exact .inl higher
    · exact .inr (dominates_joined wf fits start target source dominates)

end

end ControlFlow.ShortCircuit
