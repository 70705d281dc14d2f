import ControlFlow.Proofs.Interval.LoopFindings
import ControlFlow.Proofs.Interval.LoopKinds

/-! Tests of loops among the conditionals. The search for conditionals leaves out the heads of loops,
and of the latches those of loops that are tested at their end. It reads at the head of a latch what
kind of loop that is, and finds there what the last loop of this head has left. So no conditional
heads a loop; and one that closes a loop tested at its end closes it as an earlier one of several
loops with one head, the last of which is not tested at its end. -/
namespace ControlFlow

/-- The test of a block belongs to a loop, as far as this can be told in the end: the block heads a
loop, or it closes one and the last loop of its head is tested at the end. -/
def Region.TestsLoop (regions : List Region) (label : String) : Prop :=
  (∃ kind latch follow, .loop kind label latch follow ∈ regions) ∨
    ∃ kind head follow exit, .loop kind head label follow ∈ regions ∧
      Region.lastLoop? regions head = some (.post, exit)

namespace FlowGraph

variable {g h : FlowGraph} {entry id : NodeId} {regions : List Region}
variable {loops : List (NodeId × NodeId)}

/-- The search for conditionals looks at what is noted of loops. -/
theorem isLoopTest_eq : g.isLoopTest id = ((g.notedLoop? id).isSome ||
    (g.notedLatch id && ((g.notedHead? id).bind g.notedLoop?).map Prod.fst == some .post)) := by
  unfold isLoopTest
  rw [Option.map_bind]
  cases present : g.notes? id with
  | none => simp [notedLoop?, notedLatch, present]
  | some notes =>
    simp [notedLoop?, notedLatch, notedHead?, present, Function.comp_def, Option.bind_assoc]

namespace StructuredLoops

variable (structured : StructuredLoops g regions h entry loops)
include structured

/-- The search for conditionals leaves out the blocks that can be told to test loops in the end. -/
theorem isLoopTest_iff (live : id ∈ h.nodeIds) :
    h.isLoopTest id = true ↔ Region.TestsLoop regions (h.label id) := by
  rw [isLoopTest_eq, Bool.or_eq_true, Bool.and_eq_true, beq_iff_eq, structured.notedLatch_iff live,
    structured.notedLoop?_eq live, Region.isSome_lastLoop?_iff, Region.TestsLoop]
  refine or_congr_right ⟨?_, ?_⟩
  · rintro ⟨⟨loop, found, rfl⟩, tested⟩
    rw [structured.notedHead?_latch found, Option.bind_some,
      structured.notedLoop?_eq (structured.closes_live found).1] at tested
    obtain ⟨⟨kind, exit⟩, last, rfl⟩ := Option.map_eq_some_iff.mp tested
    exact ⟨_, _, _, exit, structured.region_mem found, last⟩
  · rintro ⟨kind, first, follow, exit, member, last⟩
    obtain ⟨loop, found, headFound, latchFound, -⟩ := structured.exists_loop member
    obtain rfl : id = loop.2 :=
      Option.some.inj ((structured.wf.find?_label live).symm.trans latchFound)
    refine ⟨⟨loop, found, rfl⟩, ?_⟩
    rw [structured.notedHead?_latch found, Option.bind_some,
      structured.notedLoop?_eq (structured.closes_live found).1,
      structured.wf.label_of_find? headFound, last]
    rfl

theorem isTest_iff (live : id ∈ h.nodeIds) :
    h.isTest id = true ↔ h.Forks id ∧ ¬Region.TestsLoop regions (h.label id) := by
  rw [isTest, Bool.and_eq_true, beq_iff_eq, Bool.not_eq_true', ← Bool.not_eq_true,
    structured.isLoopTest_iff live, Forks]

end StructuredLoops

/-- Structuring a valid graph returns as two-way conditionals those two-way blocks that do not test a
loop, as far as this can be told in the end, and that get a follow. None of them heads a loop that is
returned. If one closes a loop that is tested at its end, the last loop returned for the same head is
of another kind. -/
theorem structureIntervals_tests_spare_loops (wf : g.WellFormed) (valid : g.validate = .ok ()) :
    ∃ regions h entry, g.structureIntervals = .ok (regions, h) ∧ h.entry? = some entry ∧
      (∀ region ∈ regions, ∀ cond, region.test? = some cond →
        (∀ kind latch follow, .loop kind cond latch follow ∉ regions) ∧
        ∀ head follow, .loop .post head cond follow ∈ regions →
          ∃ kind exit, Region.lastLoop? regions head = some (kind, exit) ∧ kind ≠ .post) ∧
      (∀ cond, (∃ region ∈ regions, region.test? = some cond) ↔
        ∃ id f, h.find? cond = some id ∧ FollowSearch.tests.Gets h entry id f) ∧
      ∀ id ∈ h.nodeIds,
        h.isTest id = true ↔ h.Forks id ∧ ¬Region.TestsLoop regions (h.label id) := by
  obtain ⟨regions, h, entry, ran, tested⟩ := structureIntervals_structured wf valid
  obtain ⟨regions', h', entry', loops, ran', -, structured⟩ := structureIntervals_reported wf valid
  cases ran'.symm.trans ran
  have exact (id : NodeId) (live : id ∈ h.nodeIds) := structured.isTest_iff live
  refine ⟨regions, h, entry, ran, tested.entered, ?_, tested.tests, exact⟩
  intro region member cond test
  obtain ⟨id, f, condFound, gets⟩ := (tested.tests cond).mp ⟨region, member, test⟩
  obtain ⟨-, spared⟩ := (exact id (find?_live condFound)).mp gets.covered
  rw [tested.wf.label_of_find? condFound] at spared
  constructor
  · intro kind latch follow loop
    exact spared (.inl ⟨kind, latch, follow, loop⟩)
  · intro head follow loop
    obtain ⟨kind, exit, last⟩ := Region.exists_lastLoop? loop
    refine ⟨kind, exit, last, ?_⟩
    rintro rfl
    exact spared (.inr ⟨_, head, follow, exit, loop, last⟩)

/-- The test in front of the inner loop heads none. -/
theorem continuing_test_heads_no_loop : continuing.WellFormed ∧ continuing.validate = .ok () ∧
    ∃ regions h, continuing.structureIntervals = .ok (regions, h) ∧
      .ifThen "B" "A" "C" ∈ regions ∧
      ∀ kind latch follow, .loop kind "B" latch follow ∉ regions := by
  have wf : continuing.WellFormed := by decide
  have valid : continuing.validate = .ok () := by rfl
  obtain ⟨regions, h, entry, ran, -, spares, -⟩ := structureIntervals_tests_spare_loops wf valid
  obtain ⟨regions', h', ran', test⟩ : ∃ regions h,
      continuing.structureIntervals = .ok (regions, h) ∧ .ifThen "B" "A" "C" ∈ regions :=
    ⟨_, _, rfl, by decide⟩
  cases ran'.symm.trans ran
  exact ⟨wf, valid, _, _, ran, test, (spares _ test "B" rfl).1⟩

/-- It is the test of the first loop around it, though, and is returned as a conditional besides. -/
theorem continuing_latch_tested_twice : continuing.WellFormed ∧ continuing.validate = .ok () ∧
    ∃ regions h, continuing.structureIntervals = .ok (regions, h) ∧
      .loop .post "A" "B" (some "C") ∈ regions ∧ .ifThen "B" "A" "C" ∈ regions := by
  refine ⟨by decide, by rfl, _, _, rfl, ?_, ?_⟩
  · decide
  · decide

end FlowGraph

end ControlFlow
