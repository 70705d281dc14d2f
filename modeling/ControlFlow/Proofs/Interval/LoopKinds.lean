import ControlFlow.Proofs.Interval.StructuredLoops

/-! What the kind of a loop says of its exit test. The kind is told from the numbers of ways out of
head and latch, so a loop that is left from a two-way head other than its latch is tested at the
head, and an endless loop is left from a two-way head or latch never. But a test may also choose
between two ways through the loop: the kind tells where the exit test is exactly when control can
leave the loop from the block that it names. -/
namespace ControlFlow

/-- The block that tests whether a loop goes on. -/
def LoopKind.test? (head latch : NodeId) : LoopKind → Option NodeId
  | pre => some head
  | post => some latch
  | endless => none

namespace FlowGraph

variable {g h : FlowGraph} {start head latch a b n : NodeId} {members : List NodeId}

/-- A block has two ways out. -/
def Forks (g : FlowGraph) (id : NodeId) : Prop := (g.succs id).length = 2

/-- A block has a way out of a loop. -/
def LeavesLoop (g : FlowGraph) (head latch id : NodeId) : Prop :=
  ∃ s ∈ g.succs id, ¬g.InLoop head latch s

/-- A kind tells where the exit test of a loop is. -/
def TellsTest (g : FlowGraph) (head latch : NodeId) : LoopKind → Prop
  | .pre => g.Forks head ∧ (∃ s ∈ g.succs head, g.InLoop head latch s) ∧
      g.LeavesLoop head latch head
  | .post => g.LeavesLoop head latch latch
  | .endless => ∀ id, id = head ∨ id = latch → ¬(g.Forks id ∧ g.LeavesLoop head latch id)

/-- A head other than the latch leads on into its loop. -/
theorem exists_succ_inLoop (reaches : g.Reaches head latch) (different : head ≠ latch) :
    ∃ s ∈ g.succs head, g.InLoop head latch s := by
  have onward {n : NodeId} {passed : List NodeId} (walk : g.Walk head n passed)
      (inside : g.InLoop head latch n) (inner : n ≠ head) :
      ∃ s ∈ g.succs head, g.InLoop head latch s := by
    induction walk with
    | here => exact absurd rfl inner
    | @step m passed n walk edge ih =>
      by_cases first : m = head
      · exact ⟨n, first ▸ edge, inside⟩
      · exact ih (inside.of_step edge inner) first
  obtain ⟨passed, walk⟩ := reaches
  exact onward walk .of_latch (Ne.symm different)

/-! ## Kinds by the numbers of ways out -/

theorem loopKindOf_eq_pre (kind : g.loopKindOf members head latch = .pre) :
    head ≠ latch ∧ g.Forks head := by
  unfold loopKindOf at kind
  simp only [beq_iff_eq, Bool.and_eq_true] at kind
  split at kind
  · cases kind
  · next different =>
    split at kind
    · next both => exact ⟨different, both.2⟩
    · split at kind
      · cases kind
      · split at kind
        · next forks => exact ⟨different, forks⟩
        · cases kind

theorem loopKindOf_eq_endless (kind : g.loopKindOf members head latch = .endless) :
    ¬g.Forks head ∧ ¬g.Forks latch := by
  unfold loopKindOf at kind
  simp only [beq_iff_eq, Bool.and_eq_true] at kind
  split at kind
  · cases kind
  · split at kind
    · split at kind <;> cases kind
    · split at kind
      · cases kind
      · next latchStraight =>
        split at kind
        · cases kind
        · next headStraight => exact ⟨headStraight, latchStraight⟩

/-- A head with two ways out, one of them not to a member, tests its loop. -/
theorem loopKindOf_of_forks (different : head ≠ latch) (forks : g.Forks head)
    (leaves : ∃ s ∈ g.succs head, s ∉ members) : g.loopKindOf members head latch = .pre := by
  have notAll : (g.succs head).all members.contains = false := by
    obtain ⟨s, edge, outside⟩ := leaves
    exact List.all_eq_false.mpr ⟨s, edge, by simpa using outside⟩
  unfold Forks at forks
  unfold loopKindOf
  simp [different, forks, notAll]

/-- If only the latch has two ways out, it tests its loop. -/
theorem loopKindOf_of_latch_forks (straight : ¬g.Forks head) (forks : g.Forks latch) :
    g.loopKindOf members head latch = .post := by
  unfold Forks at straight forks
  unfold loopKindOf
  simp [straight, forks]

/-- A kind tells where the exit test is exactly when the loop is left from there. -/
theorem tellsTest_iff (closes : g.ClosesLoop start head latch) :
    g.TellsTest head latch (g.loopKindOf members head latch) ↔
      ∀ id ∈ (g.loopKindOf members head latch).test? head latch, g.LeavesLoop head latch id := by
  cases kind : g.loopKindOf members head latch with
  | pre =>
    obtain ⟨different, forks⟩ := loopKindOf_eq_pre kind
    have stays := exists_succ_inLoop closes.dominates.reaches different
    simp [TellsTest, LoopKind.test?, forks, stays]
  | post => simp [TellsTest, LoopKind.test?]
  | endless =>
    obtain ⟨headStraight, latchStraight⟩ := loopKindOf_eq_endless kind
    simp [TellsTest, LoopKind.test?, headStraight, latchStraight]

/-- The kind of every loop that structuring a valid graph returns tells where the exit test is
exactly when control can leave the loop from the block that it names. A loop that is left from a
two-way head other than its latch is tested there, and one of which only the latch has two ways out
is tested at the latch. -/
theorem structureIntervals_kinds_tell_iff (wf : g.WellFormed) (valid : g.validate = .ok ()) :
    ∃ regions h, g.structureIntervals = .ok (regions, h) ∧
      ∀ kind head latch follow, .loop kind head latch follow ∈ regions →
        ∃ a b, h.find? head = some a ∧ h.find? latch = some b ∧
          (h.TellsTest a b kind ↔ ∀ id ∈ kind.test? a b, h.LeavesLoop a b id) ∧
          (a ≠ b → h.Forks a → h.LeavesLoop a b a → kind = .pre) ∧
          (¬h.Forks a → h.Forks b → kind = .post) := by
  obtain ⟨regions, h, entry, loops, ran, -, structured⟩ := structureIntervals_reported wf valid
  refine ⟨regions, h, ran, fun kind head latch follow member => ?_⟩
  obtain ⟨⟨a, b⟩, found, headFound, latchFound, record⟩ := structured.exists_loop member
  have closes := structured.reported.closes (a, b) found
  have live := entry_live structured.entered
  cases record
  refine ⟨a, b, headFound, latchFound, tellsTest_iff closes, ?_, loopKindOf_of_latch_forks⟩
  rintro different forks ⟨s, edge, outside⟩
  refine loopKindOf_of_forks different forks ⟨s, edge, fun inside => outside ?_⟩
  exact ((mem_loopMembers structured.wf live closes).mp inside).inside

/-- A loop that is left from its head, and a loop behind it with two ways through it and none out
of it. -/
def branching : FlowGraph where
  name := "branching"
  attrs := .empty
  nodes := [⟨0, "A", .ofList [("entry", "true")], .ofAttrs .empty⟩,
    ⟨1, "B", .empty, .ofAttrs .empty⟩, ⟨2, "H", .empty, .ofAttrs .empty⟩,
    ⟨3, "X", .empty, .ofAttrs .empty⟩, ⟨4, "Y", .empty, .ofAttrs .empty⟩,
    ⟨5, "L", .empty, .ofAttrs .empty⟩]
  edges := [⟨0, 1, .ofList [("cond", "true")]⟩, ⟨0, 2, .ofList [("cond", "false")]⟩,
    ⟨1, 0, .empty⟩, ⟨2, 3, .ofList [("cond", "true")]⟩, ⟨2, 4, .ofList [("cond", "false")]⟩,
    ⟨3, 5, .empty⟩, ⟨4, 5, .empty⟩, ⟨5, 2, .empty⟩]
  nextNode := 6
  nextEdge := 8

theorem branching_kinds_tell : branching.WellFormed ∧ branching.validate = .ok () ∧
    ∃ regions h, branching.structureIntervals = .ok (regions, h) ∧
      .loop .pre "A" "B" (some "H") ∈ regions ∧
      ∃ a b, h.find? "A" = some a ∧ h.find? "B" = some b ∧ h.TellsTest a b .pre := by
  have wf : branching.WellFormed := by decide
  have valid : branching.validate = .ok () := by rfl
  obtain ⟨regions, h, ran, kinds⟩ := structureIntervals_kinds_tell_iff wf valid
  obtain ⟨regions', h', ran', outer, wfEnd, head, latch, exit, outside⟩ : ∃ regions h,
      branching.structureIntervals = .ok (regions, h) ∧
        .loop .pre "A" "B" (some "H") ∈ regions ∧ h.WellFormed ∧ h.find? "A" = some 0 ∧
        h.find? "B" = some 1 ∧ 2 ∈ h.succs 0 ∧ 2 ∉ h.naturalLoop 0 1 :=
    ⟨_, _, rfl, by decide, by decide, by decide, by decide, by decide, by decide⟩
  cases ran'.symm.trans ran
  obtain ⟨a, b, headFound, latchFound, tells, -⟩ := kinds _ _ _ _ outer
  obtain rfl := Option.some.inj (head.symm.trans headFound)
  obtain rfl := Option.some.inj (latch.symm.trans latchFound)
  have leaves : h.LeavesLoop 0 1 0 :=
    ⟨2, exit, (mem_naturalLoop wfEnd (find?_live latch)).not.mp outside⟩
  refine ⟨wf, valid, _, _, ran, outer, 0, 1, headFound, latchFound, tells.mpr fun id test => ?_⟩
  obtain rfl := Option.some.inj test
  exact leaves

/-- The head of the second loop chooses between two ways through the loop, and is taken for its exit
test. -/
theorem branching_head_tests_nothing : branching.WellFormed ∧ branching.validate = .ok () ∧
    ∃ regions h, branching.structureIntervals = .ok (regions, h) ∧
      .loop .pre "H" "L" none ∈ regions ∧ h.find? "H" = some 2 ∧ h.find? "L" = some 5 ∧
      ¬h.TellsTest 2 5 .pre := by
  obtain ⟨regions, h, ran, inner, wfEnd, head, latch, inside⟩ : ∃ regions h,
      branching.structureIntervals = .ok (regions, h) ∧ .loop .pre "H" "L" none ∈ regions ∧
        h.WellFormed ∧ h.find? "H" = some 2 ∧ h.find? "L" = some 5 ∧
        ∀ s ∈ h.succs 2, s ∈ h.naturalLoop 2 5 :=
    ⟨_, _, rfl, by decide, by decide, by decide, by decide, by decide⟩
  refine ⟨by decide, by rfl, regions, h, ran, inner, head, latch, ?_⟩
  rintro ⟨-, -, s, exit, outside⟩
  exact outside ((mem_naturalLoop wfEnd (find?_live latch)).mp (inside s exit))

end FlowGraph

end ControlFlow
