import ControlFlow.Proofs.Graph.Update

/-! Walks and dominance. A walk lists the nodes that control passes, from its start to its end. One
node dominates another with respect to a root if the other can be reached from the root and every
walk to it passes the first. -/
namespace ControlFlow.FlowGraph

/-- Control can pass from one node to another along an edge. -/
def Step (g : FlowGraph) (a b : NodeId) : Prop := b ∈ g.succs a

/-- The nodes passed on a way from a start to an end, both included. -/
inductive Walk (g : FlowGraph) (start : NodeId) : NodeId → List NodeId → Prop where
  | here : Walk g start start [start]
  | step (walk : Walk g start a passed) (edge : g.Step a b) : Walk g start b (passed ++ [b])

/-- Some walk leads from one node to another. -/
def Reaches (g : FlowGraph) (a b : NodeId) : Prop := ∃ passed, g.Walk a b passed

/-- The second node can be reached from the root, but only through the first. -/
def Dominates (g : FlowGraph) (root a b : NodeId) : Prop :=
  g.Reaches root b ∧ ∀ passed, g.Walk root b passed → a ∈ passed

def StrictlyDominates (g : FlowGraph) (root a b : NodeId) : Prop :=
  a ≠ b ∧ g.Dominates root a b

variable {g : FlowGraph} {root a b c : NodeId} {passed : List NodeId}

namespace Walk

theorem end_mem (walk : g.Walk a b passed) : b ∈ passed := by
  cases walk <;> simp

theorem start_mem (walk : g.Walk a b passed) : a ∈ passed := by
  induction walk with
  | here => simp
  | step _ _ ih => exact List.mem_append_left _ ih

theorem append {further : List NodeId} (first : g.Walk a b passed) (second : g.Walk b c further) :
    g.Walk a c (passed ++ further.tail) := by
  induction second with
  | here => simpa using first
  | @step d further c second edge ih =>
    have nonempty : further ≠ [] := List.ne_nil_of_mem second.end_mem
    rw [List.tail_append_of_ne_nil nonempty, ← List.append_assoc]
    exact ih.step edge

/-- Every node on a walk is the end of a part of it that begins at the start. -/
theorem upTo (walk : g.Walk a b passed) (member : c ∈ passed) :
    ∃ before, g.Walk a c before ∧ before <+: passed := by
  induction walk with
  | here =>
    obtain rfl := List.mem_singleton.mp member
    exact ⟨[c], .here, List.prefix_rfl⟩
  | @step d passed b walk edge ih =>
    rcases List.mem_append.mp member with member | member
    · obtain ⟨before, part, isPart⟩ := ih member
      exact ⟨before, part, isPart.trans (List.prefix_append _ _)⟩
    · obtain rfl := List.mem_singleton.mp member
      exact ⟨passed ++ [c], walk.step edge, List.prefix_rfl⟩

/-- A way to a node can be made one that passes no node twice, and nothing new. -/
theorem simple (walk : g.Walk a b passed) :
    ∃ short, g.Walk a b short ∧ short.Nodup ∧ short ⊆ passed := by
  induction walk with
  | here => exact ⟨[a], .here, List.nodup_singleton a, List.Subset.refl _⟩
  | @step d passed b walk edge ih =>
    obtain ⟨short, shortWalk, nodup, subset⟩ := ih
    by_cases again : b ∈ short
    · obtain ⟨before, part, isPart⟩ := shortWalk.upTo again
      exact ⟨before, part, nodup.sublist isPart.sublist,
        List.Subset.trans (List.Subset.trans isPart.subset subset) (List.subset_append_left _ _)⟩
    · refine ⟨short ++ [b], shortWalk.step edge, ?_, ?_⟩
      · exact List.nodup_append.mpr ⟨nodup, List.nodup_singleton b, fun x member y single same =>
          again (List.mem_singleton.mp single ▸ same ▸ member)⟩
      · exact List.append_subset.mpr
          ⟨List.Subset.trans subset (List.subset_append_left _ _), List.subset_append_right _ _⟩

end Walk

namespace Reaches

theorem refl (a : NodeId) : g.Reaches a a := ⟨[a], .here⟩

theorem step (reaches : g.Reaches a b) (edge : g.Step b c) : g.Reaches a c := by
  obtain ⟨passed, walk⟩ := reaches
  exact ⟨_, walk.step edge⟩

theorem trans (first : g.Reaches a b) (second : g.Reaches b c) : g.Reaches a c := by
  obtain ⟨passed, walk⟩ := first
  obtain ⟨further, rest⟩ := second
  exact ⟨_, walk.append rest⟩

theorem of_mem (walk : g.Walk a b passed) (member : c ∈ passed) : g.Reaches a c := by
  obtain ⟨before, part, -⟩ := walk.upTo member
  exact ⟨before, part⟩

/-- Every node on a walk reaches its end. -/
theorem from_mem (walk : g.Walk a b passed) (member : c ∈ passed) : g.Reaches c b := by
  induction walk with
  | here =>
    obtain rfl := List.mem_singleton.mp member
    exact refl c
  | step _ edge ih =>
    rcases List.mem_append.mp member with member | last
    · exact (ih member).step edge
    · obtain rfl := List.mem_singleton.mp last
      exact refl c

theorem live (wf : g.WellFormed) (start : a ∈ g.nodeIds) (reaches : g.Reaches a b) :
    b ∈ g.nodeIds := by
  obtain ⟨passed, walk⟩ := reaches
  cases walk with
  | here => exact start
  | step _ edge => exact wf.target_live edge

end Reaches

namespace Dominates

theorem refl (reached : g.Reaches root b) : g.Dominates root b b :=
  ⟨reached, fun _ walk => walk.end_mem⟩

theorem reaches (dominates : g.Dominates root a b) : g.Reaches a b := by
  obtain ⟨⟨passed, walk⟩, through⟩ := dominates
  exact .from_mem walk (through passed walk)

/-- The root reaches the dominators of a node. -/
theorem reached (dominates : g.Dominates root a b) : g.Reaches root a := by
  obtain ⟨⟨passed, walk⟩, through⟩ := dominates
  exact .of_mem walk (through passed walk)

/-- The root has no dominator but itself. -/
theorem eq_root (dominates : g.Dominates root a root) : a = root :=
  List.mem_singleton.mp (dominates.2 [root] .here)

/-- A dominator of a node other than the node itself dominates every predecessor that can be
reached. -/
theorem of_step (dominates : g.Dominates root a c) (different : a ≠ c)
    (reached : g.Reaches root b) (edge : g.Step b c) : g.Dominates root a b := by
  refine ⟨reached, fun passed walk => ?_⟩
  rcases List.mem_append.mp (dominates.2 _ (walk.step edge)) with member | last
  · exact member
  · exact absurd (List.mem_singleton.mp last) different

/-- What dominates every predecessor of a node that can be reached dominates the node. -/
theorem of_preds (reached : g.Reaches root c) (notRoot : c ≠ root)
    (all : ∀ p, g.Reaches root p → g.Step p c → g.Dominates root a p) :
    g.Dominates root a c := by
  refine ⟨reached, fun passed walk => ?_⟩
  cases walk with
  | here => exact absurd rfl notRoot
  | step walk edge => exact List.mem_append_left _ ((all _ ⟨_, walk⟩ edge).2 _ walk)

end Dominates

end ControlFlow.FlowGraph
