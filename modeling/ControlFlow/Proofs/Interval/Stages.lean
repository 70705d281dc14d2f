import ControlFlow.Proofs.Interval.FollowNotes
import ControlFlow.Proofs.Interval.StructuredLoops

/-! The stages of a run. Structuring by intervals joins tests, and after that changes annotations
only; what each of the four passes is known to do, it does to what the one before it has left. -/
namespace ControlFlow.FlowGraph

/-- The regions and the graphs that the four passes of a run give, one after the other. -/
structure Stages where
  joined : List Region
  afterJoined : FlowGraph
  switches : List Region
  afterSwitches : FlowGraph
  loops : List Region
  afterLoops : FlowGraph
  tests : List Region
  final : FlowGraph

namespace Stages

/-- All regions of a run. -/
def regions (stages : Stages) : List Region :=
  stages.joined ++ stages.switches ++ stages.loops ++ stages.tests

/-- What is known of the stages of a run on a valid graph. -/
structure Of (stages : Stages) (g : FlowGraph) (entry : NodeId)
    (switched tested : List (NodeId × NodeId)) : Prop where
  started : g.entry? = some entry
  ran : g.structureIntervals = .ok (stages.regions, stages.final)
  ranJoined :
    ShortCircuit.contractAll g.resetAnnotations = .ok (stages.joined, stages.afterJoined)
  ranSwitches : stages.afterJoined.structureSwitches = .ok (stages.switches, stages.afterSwitches)
  ranLoops : stages.afterSwitches.structureLoops = .ok (stages.loops, stages.afterLoops)
  ranTests : stages.afterLoops.structureTests = .ok (stages.tests, stages.final)
  prepared : Prepared g entry stages.afterJoined
  switches : FollowSearch.switches.Finds stages.afterJoined stages.afterSwitches entry
    stages.switches switched
  loops : LoopsFound stages.afterSwitches (stages.loops, stages.afterLoops)
  tests : FollowSearch.tests.Finds stages.afterLoops stages.final entry stages.tests tested

variable {stages : Stages} {g : FlowGraph} {entry : NodeId}
variable {switched tested : List (NodeId × NodeId)}

namespace Of

variable (run : stages.Of g entry switched tested)
include run

/-- The passes that follow the joining of tests change annotations only. -/
theorem core : stages.final.SameCore stages.afterJoined :=
  run.tests.core.trans (run.loops.core.trans run.switches.core)

theorem wf : stages.final.WellFormed := run.prepared.wf.of_sameCore run.core

theorem entered : stages.final.entry? = some entry := run.core.entry_eq.trans run.prepared.entered

/-- The records of switches are those of the switches of the final graph. -/
theorem switchLists :
    FollowSearch.switches.Lists stages.final entry stages.switches switched := by
  have back : stages.afterSwitches.SameCore stages.final :=
    (run.tests.core.trans run.loops.core).symm
  exact run.switches.lists.congr (SameButFollows.isSwitch back) back.switchFollow?
    back.switchRegion? back

theorem testLists : FollowSearch.tests.Lists stages.final entry stages.tests tested :=
  run.tests.lists

/-- What no pass but the joining of tests writes down stays as the latter has left it. -/
theorem notes {read : Notes → α} (numberless : Numberless read)
    (follows : ∀ notes follow, read { notes with follow := follow } = read notes)
    (loops : ∀ notes head kind follow latch, read { notes with
      loopHead := head, loopKind := kind, loopFollow := follow, isLatch := latch } = read notes) :
    SameNotes read stages.final stages.afterJoined :=
  (SameNotes.followSearch numberless follows run.ranTests).trans
    ((SameNotes.structureLoops numberless loops run.ranLoops).trans
      (SameNotes.followSearch numberless follows run.ranSwitches))

end Of

/-- A run on a valid graph goes through all stages. -/
theorem exists_of {g : FlowGraph} (wf : g.WellFormed) (valid : g.validate = .ok ()) :
    ∃ (stages : Stages) (entry : NodeId) (switched tested : List (NodeId × NodeId)),
      stages.Of g entry switched tested := by
  obtain ⟨entry, entered, all⟩ := (validate_eq_ok_iff wf).mp valid
  obtain ⟨regions, h, -, ran, -⟩ := structureIntervals_structured wf valid
  obtain ⟨joined, g₁, switches, g₂, loops, g₃, tests, ranJoined, ranSwitches, ranLoops, ranTests,
    rfl⟩ := structureIntervals_passes ran
  have prepared := (Prepared.start wf entered all).contractAll ranJoined
  obtain ⟨switches', g₂', switched, ranSwitches', switchesFound⟩ :=
    FollowSearch.switches_steady.run_finds prepared.wf prepared.entered
  cases ranSwitches'.symm.trans ranSwitches
  have wf₂ := prepared.wf.of_sameCore switchesFound.core
  have entered₂ := switchesFound.core.entry_eq.trans prepared.entered
  obtain ⟨⟨loops', g₃'⟩, ranLoops', loopsFound⟩ := structureLoops_eq_ok wf₂ entered₂
  cases ranLoops'.symm.trans ranLoops
  obtain ⟨tests', h', tested, ranTests', testsFound⟩ := FollowSearch.tests_steady.run_finds
    (wf₂.of_sameCore loopsFound.core) (loopsFound.core.entry_eq.trans entered₂)
  cases ranTests'.symm.trans ranTests
  exact ⟨⟨joined, g₁, switches, g₂, loops, g₃, tests, h⟩, entry, switched, tested, entered, ran,
    ranJoined, ranSwitches, ranLoops, ranTests, prepared, switchesFound, loopsFound, testsFound⟩

end Stages

end ControlFlow.FlowGraph
