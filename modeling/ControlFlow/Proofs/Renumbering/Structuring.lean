import ControlFlow.Interval.Structuring
import ControlFlow.Proofs.Renumbering.Loops

/-! Structuring of renumbered graphs. Tests are joined where corresponding blocks lead to
corresponding blocks, and follows are chosen by ranks and numbers of ways, which are the same. Every
pass therefore records the same regions and leaves graphs that are annotated alike. -/
namespace ControlFlow

variable {ren : NodeId → NodeId} {g h : FlowGraph}

open FlowGraph

/-! ## Joined tests -/

namespace ShortCircuit

/-- What is done to join two tests that have got new numbers. -/
def Contraction.renumber (ren : NodeId → NodeId) (c : Contraction) : Contraction :=
  ⟨c.junction, ren c.outer, ren c.inner, ren c.target, ren c.bodyTrue, ren c.bodyFalse⟩

theorem sides?_renumber (same : Renumbers ren g h) (id : NodeId) :
    sides? h (ren id) = (sides? g id).map (Prod.map ren ren) := by
  rw [sides?, sides?, same.outEdges]
  rcases g.outEdges id with _ | ⟨first, _ | ⟨second, _ | ⟨third, rest⟩⟩⟩
  · rfl
  · rfl
  · simp only [List.map_cons, List.map_nil, Edge.renumber_branch, Edge.renumber_target,
      apply_ite (Option.map (Prod.map ren ren)), Option.map_some, Option.map_none, Prod.map]
    rfl
  · rfl

variable (same : Annotated ren g h)
include same

theorem isInner_renumber (outer id : NodeId) :
    isInner h (ren outer) (ren id) = isInner g outer id := by
  have entry : ( h.entry? != some (ren id)) = ( g.entry? != some id) := by
    rw [same.renumbers.entry_eq]
    exact congrArg not (same.renumbers.beq_option g.entry? id)
  simp only [isInner, same.renumbers.bne, entry, same.renumbers.preds, List.length_map,
    same.notes?, Option.any_map, Notes.renumber, sides?_renumber same.renumbers, Option.isSome_map]

theorem contractTrue?_renumber (outer onTrue onFalse : NodeId) :
    contractTrue? h (ren outer) (ren onTrue) (ren onFalse) =
      (contractTrue? g outer onTrue onFalse).map (Contraction.renumber ren) := by
  rw [contractTrue?, contractTrue?, isInner_renumber same, sides?_renumber same.renumbers]
  split
  · rcases sides? g onTrue with _ | ⟨innerTrue, innerFalse⟩
    · rfl
    · simp only [Option.map_some, Prod.map, same.renumbers.beq]
      split
      · rfl
      · split <;> rfl
  · rfl

theorem contractFalse?_renumber (outer onTrue onFalse : NodeId) :
    contractFalse? h (ren outer) (ren onTrue) (ren onFalse) =
      (contractFalse? g outer onTrue onFalse).map (Contraction.renumber ren) := by
  rw [contractFalse?, contractFalse?, isInner_renumber same, sides?_renumber same.renumbers]
  split
  · rcases sides? g onFalse with _ | ⟨innerTrue, innerFalse⟩
    · rfl
    · simp only [Option.map_some, Prod.map, same.renumbers.beq]
      split
      · rfl
      · split <;> rfl
  · rfl

theorem contraction?_renumber (outer : NodeId) :
    contraction? h (ren outer) = (contraction? g outer).map (Contraction.renumber ren) := by
  rw [contraction?, contraction?, sides?_renumber same.renumbers]
  rcases sides? g outer with _ | ⟨onTrue, onFalse⟩
  · rfl
  · simp only [Option.map_some, Prod.map, contractTrue?_renumber same,
      contractFalse?_renumber same, Option.map_or]

theorem condition_renumber (id : NodeId) : condition h (ren id) = condition g id := by
  rw [condition, condition, same.notes?, same.renumbers.label, Option.bind_map]
  rfl

theorem region_renumber (c : Contraction) : (c.renumber ren).region h = c.region g := by
  simp only [Contraction.region, Contraction.renumber, same.renumbers.label]

theorem contract_renumber (c : Contraction) :
    Agree (Annotated ren) (contract g c) (contract h (c.renumber ren)) := by
  have attrs : (h.edge? (ren c.outer) (ren c.inner)).map Edge.attrs =
      (g.edge? c.outer c.inner).map Edge.attrs := by
    rw [same.renumbers.edge?, Option.map_map]
    rfl
  simp only [contract, Contraction.renumber, condition_renumber same, attrs]
  refine ((same.removeNode c.inner).renumbers.addEdge c.outer c.target _).bind ?_
  rintro ⟨edge, k⟩ ⟨edge', k'⟩ ⟨rfl, rfl⟩
  exact ((same.removeNode c.inner).insertEdge _).annotate c.outer fun _ => rfl

/-- The same tests are joined. -/
theorem contractWithin_renumber (bound : Nat) :
    Agree (Findings ren) (contractWithin bound g) (contractWithin bound h) := by
  induction bound generalizing g h with
  | zero => exact ⟨rfl, same⟩
  | succ bound ih =>
    refine same.number.bind ?_
    rintro ⟨numbering, k⟩ ⟨_, k'⟩ ⟨rfl, same⟩
    have next : (numbering.renumber ren).reversePostorder.findSome? (contraction? k') =
        (numbering.reversePostorder.findSome? (contraction? k)).map (Contraction.renumber ren) := by
      rw [Numbering.reversePostorder_renumber, List.findSome?_map, List.map_findSome?]
      simp only [Function.comp_def, contraction?_renumber same]
    -- The first block with a contraction is the same one, so the runs go on or end together.
    simp only [next]
    cases numbering.reversePostorder.findSome? (contraction? k) with
    | none => exact ⟨rfl, same⟩
    | some c =>
      refine (contract_renumber same c).bind fun joined joined' sameJoined => ?_
      refine (ih sameJoined).bind ?_
      rintro ⟨_, last⟩ ⟨regions, last'⟩ ⟨rfl, sameLast⟩
      exact ⟨congrArg (· :: regions) (region_renumber same c), sameLast⟩

end ShortCircuit

/-! ## Follows -/

namespace FlowGraph

/-- A search that takes the same course in renumbered graphs. -/
structure FollowSearch.Numberless (search : FollowSearch) : Prop where
  covers {ren : NodeId → NodeId} {g h : FlowGraph} (same : Annotated ren g h) (id : NodeId) :
    search.covers h (ren id) = search.covers g id
  follow {ren : NodeId → NodeId} {g h : FlowGraph} (same : Annotated ren g h)
    (dom : DominatorTree) (numbering : Numbering) (id : NodeId) :
    search.follow? h (dom.renumber ren) (numbering.renumber ren) (ren id) =
      (search.follow? g dom numbering id).map ren
  region {ren : NodeId → NodeId} {g h : FlowGraph} (same : Annotated ren g h)
    (header follow : NodeId) : search.region? h (ren header) (ren follow) =
      search.region? g header follow

/-- Two searches stand at the same place. -/
structure FollowState.Alike (ren : NodeId → NodeId) (state state' : FollowState) : Prop where
  regions : state'.regions = state.regions
  waiting : state'.waiting = state.waiting.map ren
  annotated : Annotated ren state.graph state'.graph

namespace FollowSearch.Numberless

variable {search : FollowSearch} (numberless : search.Numberless)
include numberless

theorem visit {state state' : FollowState} (alike : state.Alike ren state') (dom : DominatorTree)
    (numbering : Numbering) (id : NodeId) :
    (search.visit dom numbering state id).Alike ren
      (search.visit (dom.renumber ren) (numbering.renumber ren) state' (ren id)) := by
  obtain ⟨regions, waiting, same⟩ := alike
  simp only [FollowSearch.visit, numberless.covers same, numberless.follow same]
  split
  · cases search.follow? state.graph dom numbering id with
    | none => exact ⟨regions, congrArg (ren id :: ·) waiting, same⟩
    | some follow =>
      have resolved : ren id :: state'.waiting = (id :: state.waiting).map ren := by
        rw [waiting, List.map_cons]
      simp only [Option.map_some, resolved]
      refine ⟨?_, rfl, same.foldl_annotate _ fun _ => rfl⟩
      simp only [regions, List.filterMap_map, Function.comp_def, numberless.region same]
  · exact ⟨regions, waiting, same⟩

theorem foldl_visit {state state' : FollowState} (alike : state.Alike ren state')
    (dom : DominatorTree) (numbering : Numbering) (ids : List NodeId) :
    (ids.foldl (search.visit dom numbering) state).Alike ren
      ((ids.map ren).foldl (search.visit (dom.renumber ren) (numbering.renumber ren)) state') := by
  induction ids generalizing state state' with
  | nil => exact alike
  | cons id ids ih => exact ih (numberless.visit alike dom numbering id)

/-- The same conditionals get corresponding follows. -/
theorem run (same : Annotated ren g h) : Agree (Findings ren) (search.run g) (search.run h) := by
  refine same.number.bind ?_
  rintro ⟨numbering, k⟩ ⟨_, k'⟩ ⟨rfl, same⟩
  refine same.renumbers.dominators.bind ?_
  rintro dom _ rfl
  have start : FollowState.Alike ren ⟨[], [], k⟩ ⟨[], [], k'⟩ := ⟨rfl, rfl, same⟩
  have visited := numberless.foldl_visit start dom numbering numbering.reversePostorder.reverse
  rw [List.map_reverse, ← Numbering.reversePostorder_renumber] at visited
  exact ⟨visited.regions, visited.annotated⟩

end FollowSearch.Numberless

section

variable (same : Annotated ren g h)
include same

theorem inDegree_renumber (id : NodeId) : h.inDegree (ren id) = g.inDegree id := by
  rw [inDegree, inDegree, same.renumbers.preds, List.length_map]

theorem joins_renumber (dom : DominatorTree) (id : NodeId) :
    h.joins (dom.renumber ren) (ren id) = (g.joins dom id).map ren := by
  simp only [joins, DominatorTree.children_renumber same.injective, List.filter_map,
    Function.comp_def, inDegree_renumber same]

theorem isSwitch_renumber (id : NodeId) : h.isSwitch (ren id) = g.isSwitch id := by
  rw [isSwitch, isSwitch, same.renumbers.succs, List.length_map]

theorem isTest_renumber (id : NodeId) : h.isTest (ren id) = g.isTest id := by
  have loopTest : h.isLoopTest (ren id) = g.isLoopTest id := by
    rw [isLoopTest, isLoopTest, same.notes?]
    cases g.notes? id with
    | none => rfl
    | some notes =>
      simp only [Option.map_some, Notes.renumber]
      cases notes.loopHead with
      | none => rfl
      | some head =>
        simp only [Option.map_some, Option.bind_some, same.notes?, Option.bind_map]
        rfl
  rw [isTest, isTest, loopTest, same.renumbers.succs, List.length_map]

theorem switchFollow?_renumber (dom : DominatorTree) (numbering : Numbering) (id : NodeId) :
    h.switchFollow? (dom.renumber ren) (numbering.renumber ren) (ren id) =
      (g.switchFollow? dom numbering id).map ren := by
  have root : h.switchRoot? (dom.renumber ren) (ren id) = (g.switchRoot? dom id).map ren := by
    simp only [switchRoot?, same.renumbers.succs, List.all_map, Function.comp_def,
      DominatorTree.immediate?_renumber same.injective, same.renumbers.beq_option,
      DominatorTree.common?_renumber same.injective]
    split <;> rfl
  have widest (ids : List NodeId) : h.widestJoin? (numbering.renumber ren) (ids.map ren) =
      (g.widestJoin? numbering ids).map ren := by
    simp only [widestJoin?, List.map_map, List.filter_map, Function.comp_def,
      inDegree_renumber same,
      greatest?_map (Numbering.rank_renumber same.injective numbering)]
  rw [switchFollow?, switchFollow?, root, Option.bind_map, Option.map_bind]
  simp only [Function.comp_def, joins_renumber same, widest]

theorem testFollow?_renumber (dom : DominatorTree) (numbering : Numbering) (id : NodeId) :
    h.testFollow? (dom.renumber ren) (numbering.renumber ren) (ren id) =
      (g.testFollow? dom numbering id).map ren := by
  rw [testFollow?, testFollow?, joins_renumber same,
    greatest?_map (Numbering.rank_renumber same.injective numbering)]

theorem switchRegion?_renumber (header follow : NodeId) :
    h.switchRegion? (ren header) (ren follow) = g.switchRegion? header follow := by
  simp only [switchRegion?, same.renumbers.succs, same.renumbers.label, same.renumbers.labels]

theorem testRegion?_renumber (header follow : NodeId) :
    h.testRegion? (ren header) (ren follow) = g.testRegion? header follow := by
  rw [testRegion?, testRegion?, same.renumbers.succs]
  rcases g.succs header with _ | ⟨first, _ | ⟨second, _ | ⟨third, rest⟩⟩⟩
  · rfl
  · rfl
  · simp only [List.map_cons, List.map_nil, same.renumbers.beq, same.renumbers.label]
    split
    · split <;> simp only [same.renumbers.label]
    · rfl
  · rfl

end

theorem FollowSearch.switches_numberless : FollowSearch.switches.Numberless where
  covers same := isSwitch_renumber same
  follow same := switchFollow?_renumber same
  region same := switchRegion?_renumber same

theorem FollowSearch.tests_numberless : FollowSearch.tests.Numberless where
  covers same := isTest_renumber same
  follow same := testFollow?_renumber same
  region same := testRegion?_renumber same

/-! ## All passes -/

/-- The same regions are found, and what is found out about the nodes is the same. -/
theorem Renumbers.structureIntervals (same : Renumbers ren g h) :
    Agree (Findings ren) g.structureIntervals h.structureIntervals := by
  refine same.validate.bind fun _ _ _ => ?_
  have size : h.resetAnnotations.size = g.resetAnnotations.size :=
    same.resetAnnotations.renumbers.size
  rw [ShortCircuit.contractAll, ShortCircuit.contractAll, size]
  refine (ShortCircuit.contractWithin_renumber same.resetAnnotations _).bind ?_
  rintro ⟨joined, k⟩ ⟨_, k'⟩ ⟨rfl, same⟩
  refine (FollowSearch.switches_numberless.run same).bind ?_
  rintro ⟨switches, k⟩ ⟨_, k'⟩ ⟨rfl, same⟩
  refine same.structureLoops.bind ?_
  rintro ⟨loops, k⟩ ⟨_, k'⟩ ⟨rfl, same⟩
  refine (FollowSearch.tests_numberless.run same).bind ?_
  rintro ⟨tests, k⟩ ⟨_, k'⟩ ⟨rfl, same⟩
  exact ⟨rfl, same⟩

end FlowGraph

end ControlFlow
