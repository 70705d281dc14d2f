import ControlFlow.Interval.Structuring
import ControlFlow.Proofs.Except
import ControlFlow.Proofs.Interval.ShortCircuit
import ControlFlow.Proofs.Interval.Waiting

/-! The follows that structuring by intervals returns. Every conditional that gets a follow is
returned with it. A follow directly below its conditional comes after it; one that is taken over
need not, since it is taken over from the nearest header in front and not from one around. -/
namespace ControlFlow

namespace ShortCircuit

/-- Joining tests returns joined tests only. -/
theorem kind_contractWithin {bound : Nat} {g h : FlowGraph} {regions : List Region}
    (ran : contractWithin bound g = .ok (regions, h)) :
    ∀ region ∈ regions, ∃ junction, region.kind = .shortCircuit junction := by
  induction bound generalizing g regions with
  | zero =>
    cases ran
    exact nofun
  | succ bound ih =>
    obtain ⟨⟨numbering, numbered⟩, -, ran⟩ := bind_eq_ok_iff.mp ran
    dsimp only at ran
    split at ran
    · cases ran
      exact nofun
    · obtain ⟨next, -, ran⟩ := bind_eq_ok_iff.mp ran
      obtain ⟨rest, later, same⟩ := bind_eq_ok_iff.mp ran
      cases same
      exact List.forall_mem_cons.mpr ⟨⟨_, rfl⟩, ih later⟩

theorem choice?_contractWithin {bound : Nat} {g h : FlowGraph} {regions : List Region}
    (ran : contractWithin bound g = .ok (regions, h)) :
    ∀ region ∈ regions, region.choice? = none := by
  intro region member
  obtain ⟨junction, kind⟩ := kind_contractWithin ran region member
  cases region with
  | loop kind' => cases kind' <;> cases kind
  | shortCircuit => rfl
  | _ => first | rfl | cases kind

end ShortCircuit

namespace FlowGraph

variable {g h : FlowGraph} {entry id header f : NodeId}

/-- A conditional has a follow in the end. -/
def GetsFollow (g : FlowGraph) (entry id f : NodeId) : Prop :=
  FollowSearch.switches.Gets g entry id f ∨ FollowSearch.tests.Gets g entry id f

/-- A conditional takes over the follow of a header of its own kind. -/
def TakesOver (g : FlowGraph) (entry id header f : NodeId) : Prop :=
  FollowSearch.switches.WaitsFor g entry id header ∧ FollowSearch.switches.Owns g entry header f ∨
    FollowSearch.tests.WaitsFor g entry id header ∧ FollowSearch.tests.Owns g entry header f

/-- What the follow of a conditional is meant to be: a node behind it where control goes on, taken
over from an enclosing header if from any. -/
structure Follows (g : FlowGraph) (entry id f : NodeId) : Prop where
  after : g.ComesAfter entry id f
  enclosed : ∀ header, g.TakesOver entry id header f → g.StrictlyDominates entry header id

/-- When a follow is what it is meant to be. That of a two-way conditional with a join of its own
and that of a switch directly above all its arms always are. Any other has to lie behind the
conditional where control goes on, and has to come from an enclosing header if it is taken over. -/
inductive Earned (g : FlowGraph) (entry id f : NodeId) : Prop where
  | test (owns : FollowSearch.tests.Owns g entry id f)
  | switch (owns : FollowSearch.switches.Owns g entry id f)
      (direct : ∀ arm ∈ g.succs id, g.ImmediatelyDominates entry id arm)
  | shared (owns : FollowSearch.switches.Owns g entry id f) (reached : g.Reaches id f)
      (later : (g.numbering entry).rank id < (g.numbering entry).rank f)
  | taken {header : NodeId} (takes : g.TakesOver entry id header f)
      (enclosed : g.StrictlyDominates entry header id) (reached : g.Reaches id f)
      (later : (g.numbering entry).rank id < (g.numbering entry).rank f)

theorem not_isTest_of_isSwitch (switch : g.isSwitch id = true) : ¬g.isTest id = true := by
  intro test
  simp only [isSwitch, decide_eq_true_eq] at switch
  simp only [isTest, Bool.and_eq_true, beq_iff_eq] at test
  omega

section

variable (wf : g.WellFormed) (live : entry ∈ g.nodeIds)
include wf live

/-- The follow of a header is a join below a node that dominates it. -/
theorem joins_of_owns
    (owns : FollowSearch.switches.Owns g entry id f ∨ FollowSearch.tests.Owns g entry id f) :
    ∃ root, g.Dominates entry root id ∧ g.Joins entry root f := by
  rcases owns with owns | owns
  · obtain ⟨root, above, joins, -⟩ :=
      switchFollow?_spec wf live owns.covered owns.reached owns.found
    exact ⟨root, above, joins⟩
  · exact ⟨id, .refl owns.reached, (testFollow?_spec wf live owns.found).1⟩

theorem GetsFollow.both_live (gets : g.GetsFollow entry id f) : id ∈ g.nodeIds ∧ f ∈ g.nodeIds := by
  have both {header : NodeId} (reached : g.Reaches entry id)
      (owns : FollowSearch.switches.Owns g entry header f ∨
        FollowSearch.tests.Owns g entry header f) : id ∈ g.nodeIds ∧ f ∈ g.nodeIds := by
    obtain ⟨root, -, joins⟩ := joins_of_owns wf live owns
    exact ⟨reached.live wf live, joins.1.1.2.1.live wf live⟩
  rcases gets with gets | gets
  · have reached := gets.reached
    obtain ⟨header, owns, -⟩ := gets
    exact both reached (.inl owns)
  · have reached := gets.reached
    obtain ⟨header, owns, -⟩ := gets
    exact both reached (.inr owns)

omit wf live in
/-- A conditional with a follow of its own takes over no other. -/
theorem TakesOver.not_owns {f' : NodeId} (takes : g.TakesOver entry id header f) :
    ¬(FollowSearch.switches.Owns g entry id f' ∨ FollowSearch.tests.Owns g entry id f') := by
  intro owns
  rcases takes with ⟨waits, -⟩ | ⟨waits, -⟩ <;> rcases owns with owns | owns
  · exact waits.waits.not_owns owns
  · exact not_isTest_of_isSwitch waits.waits.covered owns.covered
  · exact not_isTest_of_isSwitch owns.covered waits.waits.covered
  · exact waits.waits.not_owns owns

/-- A conditional takes over the follow of one header only. -/
theorem TakesOver.unique {header' f' : NodeId} (left : g.TakesOver entry id header f)
    (right : g.TakesOver entry id header' f') : header = header' := by
  have same {search : FollowSearch} {a b fa fb : NodeId} (forA : search.WaitsFor g entry id a)
      (ownsA : search.Owns g entry a fa) (forB : search.WaitsFor g entry id b)
      (ownsB : search.Owns g entry b fb) : a = b := by
    apply (ranking wf live).inj ownsA.reached ownsB.reached
    exact Nat.le_antisymm (forB.nearest a fa ownsA forA.before)
      (forA.nearest b fb ownsB forB.before)
  rcases left with ⟨waits, owns⟩ | ⟨waits, owns⟩ <;>
    rcases right with ⟨waits', owns'⟩ | ⟨waits', owns'⟩
  · exact same waits owns waits' owns'
  · exact absurd waits'.waits.covered (not_isTest_of_isSwitch waits.waits.covered)
  · exact absurd waits.waits.covered (not_isTest_of_isSwitch waits'.waits.covered)
  · exact same waits owns waits' owns'

theorem follows_iff_earned (gets : g.GetsFollow entry id f) :
    g.Follows entry id f ↔ g.Earned entry id f := by
  constructor
  · intro follows
    have reached := follows.after.reached
    have later := follows.after.later
    rcases gets with ⟨header, owns, rfl | waits⟩ | ⟨header, owns, rfl | waits⟩
    · exact .shared owns reached later
    · have takes : g.TakesOver entry id header f := .inl ⟨waits, owns⟩
      exact .taken takes (follows.enclosed header takes) reached later
    · exact .test owns
    · have takes : g.TakesOver entry id header f := .inr ⟨waits, owns⟩
      exact .taken takes (follows.enclosed header takes) reached later
  · have behind (reached : g.Reaches id f)
        (later : (g.numbering entry).rank id < (g.numbering entry).rank f) :
        g.ComesAfter entry id f := by
      refine ⟨?_, reached, later⟩
      rintro rfl
      exact Nat.lt_irrefl _ later
    intro earned
    cases earned with
    | test owns =>
      have joins := (testFollow?_spec wf live owns.found).1
      exact ⟨comesAfter_of_strictlyDominates wf live joins.1.1,
        fun header takes => absurd (.inr owns) takes.not_owns⟩
    | switch owns direct =>
      obtain ⟨root, -, joins, same⟩ :=
        switchFollow?_spec wf live owns.covered owns.reached owns.found
      obtain rfl := same direct
      exact ⟨comesAfter_of_strictlyDominates wf live joins.1.1,
        fun header takes => absurd (.inl owns) takes.not_owns⟩
    | shared owns reached later =>
      exact ⟨behind reached later, fun header takes => absurd (.inl owns) takes.not_owns⟩
    | taken takes enclosed reached later =>
      refine ⟨behind reached later, ?_⟩
      intro header' takes'
      exact takes.unique wf live takes' ▸ enclosed

end

/-! ## Whole runs -/

/-- The conditionals returned are those that get a follow. -/
structure Structured (regions : List Region) (h : FlowGraph) (entry : NodeId) : Prop where
  wf : h.WellFormed
  entered : h.entry? = some entry
  choices : ∀ cond exit, (∃ region ∈ regions, region.choice? = some (cond, exit)) ↔
    ∃ id f, h.find? cond = some id ∧ h.find? exit = some f ∧ h.GetsFollow entry id f
  tests : ∀ cond, (∃ region ∈ regions, region.test? = some cond) ↔
    ∃ id f, h.find? cond = some id ∧ FollowSearch.tests.Gets h entry id f

/-- The records of a search, by their labels. -/
theorem exists_choice_iff {search : FollowSearch} {regions : List Region} (steady : search.Steady)
    (wf : h.WellFormed)
    (live : ∀ id f, search.Gets h entry id f → id ∈ h.nodeIds ∧ f ∈ h.nodeIds)
    (records : ∀ region, region ∈ regions ↔
      ∃ id f, search.Gets h entry id f ∧ search.region? h id f = some region)
    (cond exit : String) :
    (∃ region ∈ regions, region.choice? = some (cond, exit)) ↔
      ∃ id f, h.find? cond = some id ∧ h.find? exit = some f ∧ search.Gets h entry id f := by
  constructor
  · rintro ⟨region, member, choice⟩
    obtain ⟨id, f, gets, recorded⟩ := (records region).mp member
    obtain ⟨idLive, fLive⟩ := live id f gets
    obtain ⟨region', recorded', choice'⟩ := steady.records f gets.covered
    obtain rfl := Option.some.inj (recorded.symm.trans recorded')
    obtain ⟨rfl, rfl⟩ := Prod.mk.inj (Option.some.inj (choice.symm.trans choice'))
    exact ⟨id, f, wf.find?_label idLive, wf.find?_label fLive, gets⟩
  · rintro ⟨id, f, foundCond, foundExit, gets⟩
    obtain ⟨region, recorded, choice⟩ := steady.records f gets.covered
    rw [wf.label_of_find? foundCond, wf.label_of_find? foundExit] at choice
    exact ⟨region, (records region).mpr ⟨id, f, gets, recorded⟩, choice⟩

/-- Of the passes of a run, the last one alone records two-way conditionals. -/
theorem exists_test_iff {others regions : List Region} (wf : h.WellFormed)
    (live : ∀ id f, FollowSearch.tests.Gets h entry id f → id ∈ h.nodeIds)
    (none : ∀ region ∈ others, region.test? = none)
    (records : ∀ region, region ∈ regions ↔
      ∃ id f, FollowSearch.tests.Gets h entry id f ∧ h.testRegion? id f = some region)
    (cond : String) :
    (∃ region ∈ others ++ regions, region.test? = some cond) ↔
      ∃ id f, h.find? cond = some id ∧ FollowSearch.tests.Gets h entry id f := by
  constructor
  · rintro ⟨region, member, test⟩
    rcases List.mem_append.mp member with other | member
    · cases (none region other).symm.trans test
    · obtain ⟨id, f, gets, recorded⟩ := (records region).mp member
      obtain rfl := Option.some.inj ((test?_testRegion? recorded).symm.trans test)
      exact ⟨id, f, wf.find?_label (live id f gets), gets⟩
  · rintro ⟨id, f, found, gets⟩
    obtain ⟨region, recorded, -⟩ := FollowSearch.tests_steady.records f gets.covered
    have member := (records region).mpr ⟨id, f, gets, recorded⟩
    refine ⟨region, List.mem_append_right _ member, ?_⟩
    rw [test?_testRegion? recorded, wf.label_of_find? found]

/-- Structuring a valid graph succeeds. -/
theorem structureIntervals_structured (wf : g.WellFormed) (valid : g.validate = .ok ()) :
    ∃ regions h entry, g.structureIntervals = .ok (regions, h) ∧ Structured regions h entry := by
  obtain ⟨entry, entered, -⟩ := (validate_eq_ok_iff wf).mp valid
  have wfBare := wf.resetAnnotations
  have enteredBare : g.resetAnnotations.entry? = some entry := resetAnnotations_entry.trans entered
  have bare : ∀ n ∈ g.resetAnnotations.nodes, n.notes.compound = none := by
    intro n member
    obtain ⟨m, -, rfl⟩ := List.mem_map.mp member
    rfl
  obtain ⟨joined, g₁, ranJoined, kept, entered₁, -⟩ :=
    ShortCircuit.contractWithin_kept (ShortCircuit.Kept.start wfBare bare) enteredBare
      (Nat.le_refl _)
  obtain ⟨switches, g₂, ranSwitches, core₂, switchIff⟩ :=
    FollowSearch.switches_steady.run_eq_ok kept.wf entered₁
  have wf₂ := kept.wf.of_sameCore core₂
  have entered₂ := core₂.entry_eq.trans entered₁
  obtain ⟨⟨loops, g₃⟩, ranLoops, onlyLoops, core₃⟩ := structureLoops_eq_ok wf₂ entered₂
  have wf₃ := wf₂.of_sameCore core₃
  have entered₃ := core₃.entry_eq.trans entered₂
  obtain ⟨tests, h, ranTests, core, testIff⟩ :=
    FollowSearch.tests_steady.run_eq_ok wf₃ entered₃
  have wfEnd := wf₃.of_sameCore core
  have enteredEnd := core.entry_eq.trans entered₃
  have live := entry_live enteredEnd
  have sameSwitches : h.SameCore g₂ := core.trans core₃
  refine ⟨joined ++ switches ++ loops ++ tests, h, entry, ?_, wfEnd, enteredEnd, ?_, ?_⟩
  · simp only [structureIntervals, bind, Except.bind, valid, ShortCircuit.contractAll, ranJoined,
      structureSwitches, ranSwitches, ranLoops, structureTests, ranTests]
    rfl
  · intro cond exit
    have covers : h.isSwitch = g₂.isSwitch := SameButFollows.isSwitch sameSwitches
    have switchRecords (region : Region) : region ∈ switches ↔ ∃ id f,
        FollowSearch.switches.Gets h entry id f ∧ h.switchRegion? id f = some region := by
      rw [switchIff, sameSwitches.switchRegion?]
      constructor
      · rintro ⟨id, f, gets, recorded⟩
        exact ⟨id, f, gets.congr covers.symm sameSwitches.symm.switchFollow? sameSwitches.symm,
          recorded⟩
      · rintro ⟨id, f, gets, recorded⟩
        exact ⟨id, f, gets.congr covers sameSwitches.switchFollow? sameSwitches, recorded⟩
    have switchChoice := exists_choice_iff FollowSearch.switches_steady wfEnd
      (fun _ _ gets => GetsFollow.both_live wfEnd live (.inl gets)) switchRecords
      cond exit
    have testChoice := exists_choice_iff FollowSearch.tests_steady wfEnd
      (fun _ _ gets => GetsFollow.both_live wfEnd live (.inr gets)) testIff
      cond exit
    have noJoined : ¬∃ region ∈ joined, region.choice? = some (cond, exit) := by
      rintro ⟨region, member, choice⟩
      cases (ShortCircuit.choice?_contractWithin ranJoined region member).symm.trans choice
    have noLoop : ¬∃ region ∈ loops, region.choice? = some (cond, exit) := by
      rintro ⟨region, member, choice⟩
      obtain ⟨kind, head, latch, follow, rfl⟩ := onlyLoops region member
      cases choice
    simp only [List.mem_append, or_and_right, exists_or, noJoined, noLoop, switchChoice, testChoice,
      GetsFollow, and_or_left, false_or, or_false]
  · refine exists_test_iff wfEnd (fun _ _ gets => gets.reached.live wfEnd live) ?_ testIff
    intro region member
    rcases List.mem_append.mp member with early | loop
    · rcases List.mem_append.mp early with join | switch
      · exact Region.test?_eq_none (ShortCircuit.choice?_contractWithin ranJoined region join)
      · obtain ⟨id, f, -, recorded⟩ := (switchIff region).mp switch
        cases recorded
        rfl
    · obtain ⟨kind, head, latch, follow, rfl⟩ := onlyLoops region loop
      rfl

/-- Structuring a valid graph returns each conditional that gets a follow, and no other, with a
follow that is a block of the final graph. The follow is what it is meant to be exactly when it is
earned. -/
theorem structureIntervals_follows_iff_earned (wf : g.WellFormed) (valid : g.validate = .ok ()) :
    ∃ regions h entry, g.structureIntervals = .ok (regions, h) ∧ h.entry? = some entry ∧
      (∀ cond exit, (∃ region ∈ regions, region.choice? = some (cond, exit)) ↔
        ∃ id f, h.find? cond = some id ∧ h.find? exit = some f ∧ h.GetsFollow entry id f) ∧
      ∀ id f, h.GetsFollow entry id f → (h.Follows entry id f ↔ h.Earned entry id f) := by
  obtain ⟨regions, h, entry, ran, wfEnd, entered, choices⟩ :=
    structureIntervals_structured wf valid
  refine ⟨regions, h, entry, ran, entered, choices, ?_⟩
  intro id f gets
  exact follows_iff_earned wfEnd (entry_live entered) gets

/-- Two conditionals, one after the other. The second has no join of its own. -/
def successive : FlowGraph where
  name := "successive"
  attrs := .empty
  nodes := [⟨0, "A", .ofList [("entry", "true")], .ofAttrs .empty⟩,
    ⟨1, "B", .empty, .ofAttrs .empty⟩, ⟨2, "C", .empty, .ofAttrs .empty⟩,
    ⟨3, "D", .empty, .ofAttrs .empty⟩, ⟨4, "E", .empty, .ofAttrs .empty⟩,
    ⟨5, "F", .empty, .ofAttrs .empty⟩]
  edges := [⟨0, 1, .ofList [("cond", "true")]⟩, ⟨0, 2, .ofList [("cond", "false")]⟩,
    ⟨1, 3, .empty⟩, ⟨2, 3, .empty⟩, ⟨3, 4, .ofList [("cond", "true")]⟩,
    ⟨3, 5, .ofList [("cond", "false")]⟩]
  nextNode := 6
  nextEdge := 6

theorem successive_follows_iff_earned : successive.WellFormed ∧ successive.validate = .ok () ∧
    ∃ regions h entry, successive.structureIntervals = .ok (regions, h) ∧ h.entry? = some entry ∧
      ∀ id f, h.GetsFollow entry id f → (h.Follows entry id f ↔ h.Earned entry id f) := by
  have wf : successive.WellFormed := by decide
  have valid : successive.validate = .ok () := by rfl
  obtain ⟨regions, h, entry, ran, entered, -, exact⟩ :=
    structureIntervals_follows_iff_earned wf valid
  exact ⟨wf, valid, regions, h, entry, ran, entered, exact⟩

/-- The second conditional takes over the join of the first, which is that conditional itself. -/
theorem successive_follows_itself : successive.WellFormed ∧ successive.validate = .ok () ∧
    ∃ regions h, successive.structureIntervals = .ok (regions, h) ∧
      ∃ region ∈ regions, region.choice? = some ("D", "D") := by
  refine ⟨by decide, by rfl, _, _, rfl, .ifElse "D" "E" "F" "D", ?_, rfl⟩
  decide

end FlowGraph

end ControlFlow
