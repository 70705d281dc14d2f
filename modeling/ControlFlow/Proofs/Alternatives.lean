import ControlFlow.Proofs.Interval.Conditionals
import ControlFlow.Proofs.Reachable

/-! Alternatives and their sides. A graph lists what a test leads to with the side where the test is
true first. Both ways to structure a graph name the bodies of an alternative in this order: the
pass for two-way conditionals because it never looks at another one, and hammocks because what they
ask of two bodies they ask of both alike, so that the second order is never the one that matches. So
a body stands on the side that its role names, whatever a test was merged from. -/
namespace ControlFlow

namespace FlowGraph

variable {g h : FlowGraph} {id first second : NodeId} {region : Region}

/-- A test leads to two bodies and no other block; if one way is taken when the test is true and the
other one when it is false, each body is on the side that its role names. -/
structure Branches (g : FlowGraph) (id : NodeId) (bodyTrue bodyFalse : String) : Prop where
  live : id ∈ g.nodeIds
  bodies : (g.outEdges id).map (fun e => g.label e.target) = [bodyTrue, bodyFalse]
  sides : ∀ yes ∈ g.outEdges id, ∀ no ∈ g.outEdges id,
    yes.cond = some "true" → no.cond = some "false" →
      g.label yes.target = bodyTrue ∧ g.label no.target = bodyFalse

/-- If a region is an alternative, its bodies are on the sides that their roles name. -/
def KeepsSides (g : FlowGraph) (region : Region) : Prop :=
  ∀ cond bodyTrue bodyFalse exit, region = .ifElse cond bodyTrue bodyFalse exit →
    ∃ id, g.label id = cond ∧ g.Branches id bodyTrue bodyFalse

/-- Annotations do not matter. -/
theorem KeepsSides.of_sameCore (keeps : g.KeepsSides region) (same : h.SameCore g) :
    h.KeepsSides region := by
  intro cond bodyTrue bodyFalse exit alternative
  obtain ⟨id, named, branches⟩ := keeps cond bodyTrue bodyFalse exit alternative
  refine ⟨id, same.label ▸ named, same.nodeIds ▸ branches.live, ?_, ?_⟩
  · rw [outEdges, same.edges, same.label]
    exact branches.bodies
  · rw [outEdges, same.edges, same.label]
    exact branches.sides

/-- The side where a test is true comes before the one where it is false. -/
theorem Sound.branches (sound : g.Sound) (arms : g.succs id = [first, second]) :
    g.Branches id (g.label first) (g.label second) := by
  have targets : (g.outEdges id).map Edge.target = [first, second] := arms
  obtain ⟨e, f, both, rfl, rfl⟩ : ∃ e f, g.outEdges id = [e, f] ∧ e.target = first ∧
      f.target = second := by
    simpa [List.map_eq_cons_iff] using targets
  refine ⟨sound.wf.source_live (b := e.target) (by simp [arms]), by simp [both], ?_⟩
  have sorted := sound.ordered.outEdges id
  rw [both, List.pairwise_pair] at sorted
  rw [both]
  intro yes listed no listed' onTrue onFalse
  have branches : yes.branch = .whenTrue ∧ no.branch = .whenFalse := by
    rw [Edge.branch, Edge.branch, onTrue, onFalse]
    exact ⟨rfl, rfl⟩
  rcases List.mem_pair.mp listed with rfl | rfl <;> rcases List.mem_pair.mp listed' with rfl | rfl
  · cases branches.1.symm.trans branches.2
  · exact ⟨rfl, rfl⟩
  · rw [branches.1, branches.2] at sorted
    cases sorted
  · cases branches.1.symm.trans branches.2

end FlowGraph

/-! ## Hammocks -/

namespace Hammock

variable {g h : FlowGraph} {dom : DominatorTree} {id cond bodyTrue bodyFalse : NodeId}
  {region : Region} {found : List Region}

/-- The shape of an alternative, for one of the two ways to tell its bodies apart. -/
def alternative? (g : FlowGraph) (dom : DominatorTree) (cond bodyTrue bodyFalse : NodeId) :
    Option Region :=
  match g.succs bodyTrue with
  | [exit] =>
    if distinct [cond, bodyTrue, bodyFalse, exit] && comesOnlyFrom g bodyTrue cond &&
        comesOnlyFrom g bodyFalse cond && goesOnlyTo g bodyFalse exit &&
        comesFromBoth g exit bodyTrue bodyFalse && dom.dominates cond bodyTrue &&
        dom.dominates cond bodyFalse && dom.dominates cond exit then
      some (.ifElse (g.label cond) (g.label bodyTrue) (g.label bodyFalse) (g.label exit))
    else none
  | _ => none

theorem alternative?_eq_some_iff : alternative? g dom cond bodyTrue bodyFalse = some region ↔
    ∃ exit, g.succs bodyTrue = [exit] ∧ g.succs bodyFalse = [exit] ∧
      distinct [cond, bodyTrue, bodyFalse, exit] = true ∧
      comesOnlyFrom g bodyTrue cond = true ∧ comesOnlyFrom g bodyFalse cond = true ∧
      comesFromBoth g exit bodyTrue bodyFalse = true ∧ dom.dominates cond bodyTrue = true ∧
      dom.dominates cond bodyFalse = true ∧ dom.dominates cond exit = true ∧
      region = .ifElse (g.label cond) (g.label bodyTrue) (g.label bodyFalse) (g.label exit) := by
  unfold alternative?
  split
  · next exit only =>
    simp only [goesOnlyTo, Option.ite_none_right_eq_some, Bool.and_eq_true, beq_iff_eq,
      Option.some.injEq, only, List.cons.injEq, and_true, exists_eq_left']
    tauto
  · next other =>
    simp only [reduceCtorEq, false_iff]
    rintro ⟨exit, only, -⟩
    exact other exit only

/-- What is asked of two bodies is asked of both alike. -/
theorem exists_alternative?_swap (found : alternative? g dom cond bodyTrue bodyFalse = some region) :
    ∃ other, alternative? g dom cond bodyFalse bodyTrue = some other := by
  obtain ⟨exit, onlyTrue, onlyFalse, apart, toTrue, toFalse, toExit, domTrue, domFalse, domExit, -⟩ :=
    alternative?_eq_some_iff.mp found
  refine ⟨_, alternative?_eq_some_iff.mpr
    ⟨exit, onlyFalse, onlyTrue, ?_, toFalse, toTrue, ?_, domFalse, domTrue, domExit, rfl⟩⟩
  · simp only [distinct, Bool.and_eq_true, Bool.not_eq_true', List.contains_eq_mem,
      decide_eq_false_iff_not] at apart ⊢
    grind
  · rwa [comesFromBoth, Bool.or_comm]

/-- The bodies of an alternative are found in the order in which the graph lists them. -/
theorem arms_of_ifElse? (found : ifElse? g dom id = some region) :
    ∃ first second exit, g.succs id = [first, second] ∧
      region = .ifElse (g.label id) (g.label first) (g.label second) (g.label exit) := by
  replace found : (sides g id).findSome? (fun pair => alternative? g dom id pair.1 pair.2) =
      some region := found
  unfold sides at found
  split at found
  · next first second arms =>
    -- If the second order matches, so does the first one, which is tried before it.
    obtain ⟨region', matches'⟩ : ∃ region', alternative? g dom id first second = some region' := by
      cases inOrder : alternative? g dom id first second with
      | some region' => exact ⟨region', rfl⟩
      | none =>
        simp only [List.findSome?_cons, inOrder, List.findSome?_nil] at found
        split at found
        · next other swapped =>
          obtain ⟨region', matches'⟩ := exists_alternative?_swap swapped
          cases inOrder.symm.trans matches'
        · cases found
    simp only [List.findSome?_cons, matches'] at found
    cases found
    obtain ⟨exit, -, -, -, -, -, -, -, -, -, rfl⟩ := alternative?_eq_some_iff.mp matches'
    exact ⟨first, second, exit, arms, rfl⟩
  · cases found

theorem keepsSides_of_nextMove (sound : g.Sound) (next : nextMove g = .ok (.merge region)) :
    g.KeepsSides region := by
  unfold nextMove at next
  split at next
  · cases next
  obtain ⟨dom, -, next⟩ := bind_eq_ok_iff.mp next
  split at next
  · next region' first =>
    cases next
    obtain ⟨⟨kind, shape⟩, listed, found⟩ := List.exists_of_findSome?_eq_some first
    obtain ⟨id, -, found⟩ := List.exists_of_findSome?_eq_some found
    rintro cond bodyTrue bodyFalse exit rfl
    -- Of the six shapes, only that of an alternative is listed under its kind.
    obtain ⟨-, -, same, -⟩ := matched_of_shape listed found
    obtain rfl : shape = ifElse? := by
      rw [← same] at listed
      simpa [shapes, Region.kind] using listed
    obtain ⟨first, second, exit', arms, alternative⟩ := arms_of_ifElse? found
    cases alternative
    exact ⟨id, rfl, sound.branches arms⟩
  · cases next

end Hammock

/-! ## Intervals -/

namespace FlowGraph

namespace Stages.Of

variable {g : FlowGraph} {entry : NodeId} {stages : Stages} {switched tested : List (NodeId × NodeId)}
variable (run : stages.Of g entry switched tested)
include run

/-- Only the pass for two-way conditionals records alternatives. -/
theorem mem_tests {cond bodyTrue bodyFalse exit : String}
    (member : .ifElse cond bodyTrue bodyFalse exit ∈ stages.regions) :
    .ifElse cond bodyTrue bodyFalse exit ∈ stages.tests := by
  simp only [regions, List.mem_append] at member
  rcases member with ((joined | switch) | loop) | test
  · cases ShortCircuit.choice?_contractWithin run.ranJoined _ joined
  · rw [run.switches.lists.records] at switch
    obtain ⟨pair, -, recorded⟩ := List.mem_filterMap.mp switch
    cases recorded
  · obtain ⟨kind, head, latch, follow, same⟩ := run.loops.loops _ loop
    cases same
  · exact test

theorem keepsSides (sound : g.Sound) :
    ∀ region ∈ stages.regions, stages.final.KeepsSides region := by
  rintro _ member cond bodyTrue bodyFalse exit rfl
  obtain ⟨id, f, -, recorded⟩ := (run.decided sound.wf).mem_iff_choice.mp ⟨member, rfl⟩
  cases (choice_of_choiceRegion? recorded).1 with
  | ifElse arms apart => exact ⟨id, rfl, (sound.structureIntervals run.ran).branches arms⟩

end Stages.Of

/-- In the graph that an alternative is found in, its test leads to its two bodies, and each of them
is on the side that its role names if one way is taken when the test is true and the other one when
it is false. For a reduction this is the graph that the merges before lead to, at whatever point it
is stopped; for intervals the one that the pass for two-way conditionals is given, and what that
pass leaves. -/
theorem alternatives_keep_sides {g : FlowGraph} (sound : g.Sound) (valid : g.validate = .ok ()) :
    (∀ {σ : Type} (observer : Hammock.Observer (StateM σ)) (s : σ), ∃ analysis h s',
      Hammock.watch (Hammock.reduceObserved observer g) s = (.ok (analysis, h), s') ∧
      ∀ (count : Nat) (inside : count < analysis.regions.length), ∃ between,
        Hammock.Reached g (analysis.regions.take count) between ∧
        Hammock.nextMove between = .ok (.merge analysis.regions[count]) ∧
        between.KeepsSides analysis.regions[count]) ∧
    ∃ stages entry switched tested, Stages.Of stages g entry switched tested ∧
      ∀ region ∈ stages.regions, (region.kind = .ifElse → region ∈ stages.tests) ∧
        stages.afterLoops.KeepsSides region ∧ stages.final.KeepsSides region := by
  constructor
  · intro σ observer s
    obtain ⟨entry, entered, -⟩ := (validate_eq_ok_iff sound.wf).mp valid
    obtain ⟨analysis, h, s', ran, reached, -⟩ :=
      Hammock.runWithin_reached sound.wf entered observer g.size s .start (by simp)
    refine ⟨analysis, h, s', ?_, fun count inside => ?_⟩
    · rw [Hammock.reduceObserved, valid]
      exact ran
    · obtain ⟨between, way, next⟩ := reached.exists_nextMove inside
      exact ⟨between, way, next, Hammock.keepsSides_of_nextMove (sound.reached way) next⟩
  · obtain ⟨stages, entry, switched, tested, run⟩ := Stages.exists_of sound.wf valid
    refine ⟨stages, entry, switched, tested, run, fun region member => ⟨fun alternative => ?_, ?_⟩⟩
    · cases region with
      | ifElse => exact run.mem_tests member
      | loop kind => cases kind <;> cases alternative
      | _ => cases alternative
    · have keeps := run.keepsSides sound region member
      exact ⟨keeps.of_sameCore run.tests.core.symm, keeps⟩

/-- A test behind another block. It is true on the way to the body whose label comes last. -/
def turned : FlowGraph where
  name := "turned"
  attrs := .empty
  nodes := [⟨0, "A", .ofList [("entry", "true")], .ofAttrs .empty⟩,
    ⟨1, "B", .empty, .ofAttrs .empty⟩, ⟨2, "C", .empty, .ofAttrs .empty⟩,
    ⟨3, "D", .empty, .ofAttrs .empty⟩, ⟨4, "E", .empty, .ofAttrs .empty⟩]
  edges := [⟨0, 1, .empty⟩, ⟨1, 3, .ofList [("cond", "true")]⟩,
    ⟨1, 2, .ofList [("cond", "false")]⟩, ⟨2, 4, .empty⟩, ⟨3, 4, .empty⟩]
  nextNode := 5
  nextEdge := 5

theorem turned_keeps_sides : turned.Sound ∧ turned.validate = .ok () ∧
    (∃ between, Hammock.Reached turned [.seq "A" "B"] between ∧
      Hammock.nextMove between = .ok (.merge (.ifElse "A" "D" "C" "E")) ∧
      between.KeepsSides (.ifElse "A" "D" "C" "E")) ∧
    ∃ h, turned.structureIntervals = .ok ([.ifElse "B" "D" "C" "E"], h) ∧
      h.KeepsSides (.ifElse "B" "D" "C" "E") := by
  have sound : turned.Sound := ⟨by decide, by decide, by decide⟩
  have valid : turned.validate = .ok () := by decide
  obtain ⟨reduced, stages, entry, switched, tested, run, keeps⟩ :=
    alternatives_keep_sides sound valid
  refine ⟨sound, valid, ?_, ?_⟩
  · obtain ⟨analysis, h, s', ran, each⟩ := @reduced Unit .silent ()
    have found : (@Hammock.watch Unit _ (Hammock.reduceObserved .silent turned) ()).1.map
        (fun result => result.1.regions) = .ok [.seq "A" "B", .ifElse "A" "D" "C" "E"] := by rfl
    rw [ran] at found
    have regions : analysis.regions = [.seq "A" "B", .ifElse "A" "D" "C" "E"] :=
      Except.ok.inj found
    obtain ⟨between, way, next, sides⟩ := each 1 (by simp [regions])
    simp only [regions] at way next sides
    exact ⟨between, way, next, sides⟩
  · have found : turned.structureIntervals.map Prod.fst = .ok [.ifElse "B" "D" "C" "E"] := by rfl
    rw [run.ran] at found
    have regions : stages.regions = [.ifElse "B" "D" "C" "E"] := Except.ok.inj found
    refine ⟨stages.final, regions ▸ run.ran, ?_⟩
    exact (keeps _ (by simp [regions])).2.2

end FlowGraph

end ControlFlow
