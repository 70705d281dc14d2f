import ControlFlow.Proofs.Interval.Stages

/-! Conditionals and their follows. The passes for switches and for two-way conditionals write their
follows to one place, and no conditional is looked at by both. So what a run returns of conditionals
and what it notes of them are the same findings: a block with a follow is the test of exactly one
region, which names the follow and the arms, and a block without one is the test of none. -/
namespace ControlFlow

/-- The test of a conditional of either kind. -/
def Region.cond? (region : Region) : Option String := region.choice?.map Prod.fst

/-- Of some elements that read differently one alone reads as it does. -/
theorem filter_eq_singleton [BEq β] [LawfulBEq β] {read : α → Option β} {items : List α} {a : α}
    {b : β} (different : (items.filterMap read).Nodup) (member : a ∈ items)
    (reads : read a = some b) : items.filter (read · == some b) = [a] := by
  induction items with
  | nil => cases member
  | cons first rest ih =>
    rcases List.mem_cons.mp member with rfl | later
    · rw [List.filterMap_cons_some reads] at different
      have missing := (List.nodup_cons.mp different).1
      rw [List.filter_cons_of_pos (by simp [reads]), List.filter_eq_nil_iff.mpr]
      intro other present same
      exact missing (List.mem_filterMap.mpr ⟨other, present, beq_iff_eq.mp same⟩)
    · have apart : read first ≠ some b := by
        intro same
        rw [List.filterMap_cons_some same] at different
        exact (List.nodup_cons.mp different).1 (List.mem_filterMap.mpr ⟨a, later, reads⟩)
      rw [List.filter_cons_of_neg (by simpa using apart)]
      refine ih ?_ later
      exact different.sublist ((List.sublist_cons_self first rest).filterMap read)

namespace FlowGraph

variable {g h : FlowGraph} {entry id f : NodeId} {regions : List Region}
variable {given : List (NodeId × NodeId)}

/-- The region of a conditional with a follow. It is a switch if the block leads to more than two
others. Otherwise one of the two arms may be the follow itself, and then it is the other one that
control may skip. -/
inductive Choice (g : FlowGraph) (id f : NodeId) : Region → Prop where
  | switch (many : 2 < (g.succs id).length) :
    Choice g id f (.switch (g.label id) (g.label f) ((g.succs id).map g.label))
  | ifThen {body : NodeId} (arms : g.succs id = [f, body] ∨ g.succs id = [body, f]) :
    Choice g id f (.ifThen (g.label id) (g.label body) (g.label f))
  | ifElse {first second : NodeId} (arms : g.succs id = [first, second])
    (apart : f ∉ g.succs id) :
    Choice g id f (.ifElse (g.label id) (g.label first) (g.label second) (g.label f))

/-- The record of a conditional of either kind. -/
def choiceRegion? (g : FlowGraph) (id f : NodeId) : Option Region :=
  if g.isSwitch id then g.switchRegion? id f else g.testRegion? id f

theorem choice_of_choiceRegion? {region : Region} (recorded : g.choiceRegion? id f = some region) :
    g.Choice id f region ∧ region.choice? = some (g.label id, g.label f) := by
  unfold choiceRegion? at recorded
  split at recorded
  · next many =>
    cases recorded
    exact ⟨.switch (by simpa [isSwitch] using many), rfl⟩
  · unfold testRegion? at recorded
    split at recorded
    · next first second arms =>
      split at recorded
      · next skips =>
        cases recorded
        refine ⟨.ifThen ?_, rfl⟩
        by_cases same : first = f
        · subst same
          exact .inl (by simp [arms])
        · have second : second = f := by simpa [same] using skips
          exact .inr (by simp [arms, same, second])
      · next apart =>
        cases recorded
        refine ⟨.ifElse arms ?_, rfl⟩
        simp only [Bool.or_eq_true, beq_iff_eq, not_or] at apart
        simp [arms, Ne.symm apart.1, Ne.symm apart.2]
    · cases recorded

theorem GetsFollow.exists_region (gets : g.GetsFollow entry id f) :
    ∃ region, g.choiceRegion? id f = some region := by
  rcases gets with gets | gets
  · have switch : g.isSwitch id = true := gets.covered
    exact ⟨_, if_pos switch⟩
  · have test : g.isTest id = true := gets.covered
    have other : ¬g.isSwitch id = true := fun switch => not_isTest_of_isSwitch switch test
    obtain ⟨region, recorded, -⟩ := FollowSearch.tests_steady.records f gets.covered
    exact ⟨region, (if_neg other).trans recorded⟩

/-! ## Whole runs -/

namespace FollowSearch.Lists

variable {search : FollowSearch} (lists : search.Lists h entry regions given)
  (steady : search.Steady)
include lists steady

/-- A search records conditionals only. -/
theorem isSome_choice? : ∀ region ∈ regions, region.choice?.isSome = true := by
  intro region member
  rw [lists.records] at member
  obtain ⟨pair, member, recorded⟩ := List.mem_filterMap.mp member
  have covered := ((lists.mem_iff _ _).mp member).covered
  obtain ⟨region', recorded', choice⟩ := steady.records pair.2 covered
  cases recorded.symm.trans recorded'
  rw [choice]
  rfl

/-- The records of one search are those of its conditionals. -/
theorem filter_choice
    (record : ∀ id f, search.covers h id = true → h.choiceRegion? id f = search.region? h id f) :
    regions.filter (fun region => region.choice?.isSome) =
      given.filterMap fun pair => h.choiceRegion? pair.1 pair.2 := by
  rw [List.filter_eq_self.mpr (lists.isSome_choice? steady), lists.records]
  refine List.filterMap_congr fun pair member => ?_
  exact (record _ _ ((lists.mem_iff _ _).mp member).covered).symm

end FollowSearch.Lists

/-- What a run returns and notes of conditionals. -/
structure Decided (regions : List Region) (h : FlowGraph) (entry : NodeId)
    (given : List (NodeId × NodeId)) : Prop where
  wf : h.WellFormed
  entered : h.entry? = some entry
  records : regions.filter (fun region => region.choice?.isSome) =
    given.filterMap fun pair => h.choiceRegion? pair.1 pair.2
  mem_iff : ∀ id f, (id, f) ∈ given ↔ h.GetsFollow entry id f
  once : (given.map Prod.fst).Nodup
  noted : ∀ id f, (id, f) ∈ given → h.notedFollow? id = some f
  unnoted : ∀ id, id ∉ given.map Prod.fst → h.notedFollow? id = none

namespace Stages.Of

variable {stages : Stages} {switched tested : List (NodeId × NodeId)}
variable (run : stages.Of g entry switched tested)
include run

/-- No node is looked at as a switch and as a two-way conditional. -/
theorem apart (switch : id ∈ switched.map Prod.fst) : id ∉ tested.map Prod.fst := by
  intro test
  obtain ⟨⟨_, f⟩, member, rfl⟩ := List.mem_map.mp switch
  obtain ⟨⟨_, f'⟩, member', rfl⟩ := List.mem_map.mp test
  exact not_isTest_of_isSwitch ((run.switchLists.mem_iff _ f).mp member).covered
    ((run.testLists.mem_iff _ f').mp member').covered

/-- Joining tests and finding loops records no conditional. -/
theorem filter_choice_regions : stages.regions.filter (fun region => region.choice?.isSome) =
    (switched ++ tested).filterMap fun pair => stages.final.choiceRegion? pair.1 pair.2 := by
  have noJoined : stages.joined.filter (fun region => region.choice?.isSome) = [] := by
    refine List.filter_eq_nil_iff.mpr fun region member => ?_
    simp [ShortCircuit.choice?_contractWithin run.ranJoined region member]
  have noLoop : stages.loops.filter (fun region => region.choice?.isSome) = [] := by
    refine List.filter_eq_nil_iff.mpr fun region member => ?_
    obtain ⟨kind, head, latch, follow, rfl⟩ := run.loops.loops region member
    simp [Region.choice?]
  have switches := run.switchLists.filter_choice FollowSearch.switches_steady
    fun id f switch => if_pos switch
  have tests := run.testLists.filter_choice FollowSearch.tests_steady
    fun id f test => if_neg fun switch => not_isTest_of_isSwitch switch test
  simp only [regions, List.filter_append, noJoined, noLoop, switches, tests, List.nil_append,
    List.append_nil, List.filterMap_append]

/-- Joining tests notes no follow. -/
theorem notedFollow?_afterJoined (wf : g.WellFormed) (id : NodeId) :
    stages.afterJoined.notedFollow? id = none := by
  have unmarked : Unmarked Notes.follow stages.afterJoined :=
    (Unmarked.resetAnnotations Notes.follow g).contractWithin (fun _ _ _ _ => rfl)
      (fun _ _ => rfl) wf.resetAnnotations run.ranJoined
  rw [notedFollow?, notes?]
  cases found : stages.afterJoined.node? id with
  | none => rfl
  | some n => exact unmarked n (List.mem_of_find?_eq_some found)

theorem decided (wf : g.WellFormed) :
    Decided stages.regions stages.final entry (switched ++ tested) := by
  have loops (id : NodeId) :
      stages.afterLoops.notedFollow? id = stages.afterSwitches.notedFollow? id :=
    (SameNotes.structureLoops (fun _ _ _ _ => rfl) (fun _ _ _ _ _ => rfl) run.ranLoops).bind_eq id
  refine ⟨run.wf, run.entered, run.filter_choice_regions, fun id f => ?_, ?_,
    fun id f member => ?_, fun id missing => ?_⟩
  · rw [List.mem_append, run.switchLists.mem_iff, run.testLists.mem_iff, GetsFollow]
  · rw [List.map_append]
    exact List.nodup_append.mpr ⟨run.switchLists.once, run.testLists.once,
      fun id switch other test same => run.apart switch (same ▸ test)⟩
  · rcases List.mem_append.mp member with switch | test
    · rw [run.tests.kept id (run.apart (List.mem_map_of_mem switch)), loops]
      exact run.switches.noted id f switch
    · exact run.tests.noted id f test
  · rw [List.map_append, List.mem_append, not_or] at missing
    rw [run.tests.kept id missing.2, loops, run.switches.kept id missing.1]
    exact run.notedFollow?_afterJoined wf id

end Stages.Of

namespace Decided

variable (decided : Decided regions h entry given)
include decided

/-- The follows that are noted are those that conditionals get. -/
theorem notedFollow?_eq_some_iff : h.notedFollow? id = some f ↔ h.GetsFollow entry id f := by
  rw [← decided.mem_iff]
  constructor
  · intro noted
    by_cases resolved : id ∈ given.map Prod.fst
    · obtain ⟨⟨_, f'⟩, member, rfl⟩ := List.mem_map.mp resolved
      obtain rfl := Option.some.inj ((decided.noted _ f' member).symm.trans noted)
      exact member
    · cases (decided.unnoted id resolved).symm.trans noted
  · exact decided.noted id f

theorem mem_iff_choice {region : Region} :
    (region ∈ regions ∧ region.choice?.isSome = true) ↔
      ∃ id f, h.GetsFollow entry id f ∧ h.choiceRegion? id f = some region := by
  have listed : (region ∈ regions ∧ region.choice?.isSome = true) ↔
      region ∈ regions.filter fun region => region.choice?.isSome := by
    rw [List.mem_filter]
  rw [listed, decided.records, List.mem_filterMap]
  constructor
  · rintro ⟨⟨id, f⟩, member, recorded⟩
    exact ⟨id, f, (decided.mem_iff id f).mp member, recorded⟩
  · rintro ⟨id, f, gets, recorded⟩
    exact ⟨(id, f), (decided.mem_iff id f).mpr gets, recorded⟩

/-- The tests of the conditionals, in the order of their records. -/
theorem conds_eq : regions.filterMap Region.cond? = given.map fun pair => h.label pair.1 := by
  have choices : regions.filterMap Region.cond? =
      (regions.filter fun region => region.choice?.isSome).filterMap Region.cond? := by
    rw [List.filterMap_filter]
    refine List.filterMap_congr fun region _ => ?_
    cases choice : region.choice? <;> simp [Region.cond?, choice]
  rw [choices, decided.records, List.filterMap_filterMap, ← List.filterMap_eq_map]
  refine List.filterMap_congr fun pair member => ?_
  obtain ⟨region, recorded⟩ := ((decided.mem_iff _ _).mp member).exists_region
  rw [recorded, Option.bind_some, Region.cond?, (choice_of_choiceRegion? recorded).2]
  rfl

/-- No two conditionals have the same test. -/
theorem conds_nodup : (regions.filterMap Region.cond?).Nodup := by
  have live (pair : NodeId × NodeId) (member : pair ∈ given) : pair.1 ∈ h.nodeIds :=
    (((decided.mem_iff _ _).mp member).both_live decided.wf (entry_live decided.entered)).1
  have labels : (given.map fun pair => h.label pair.1) = (given.map Prod.fst).map h.label := by
    rw [List.map_map]
    rfl
  rw [decided.conds_eq, labels]
  refine decided.once.map_on fun a left b right same => ?_
  obtain ⟨pair, member, rfl⟩ := List.mem_map.mp left
  obtain ⟨pair', member', rfl⟩ := List.mem_map.mp right
  exact decided.wf.label_inj (live pair member) (live pair' member') same

/-- A block with a follow is the test of one region, which is that of its conditional. -/
theorem exists_choice (noted : h.notedFollow? id = some f) :
    ∃ region, regions.filter (·.cond? == some (h.label id)) = [region] ∧ h.Choice id f region := by
  have gets := decided.notedFollow?_eq_some_iff.mp noted
  obtain ⟨region, recorded⟩ := gets.exists_region
  obtain ⟨choice, named⟩ := choice_of_choiceRegion? recorded
  have member := (decided.mem_iff_choice.mpr ⟨id, f, gets, recorded⟩).1
  refine ⟨region, filter_eq_singleton decided.conds_nodup member ?_, choice⟩
  rw [Region.cond?, named]
  rfl

/-- A block that is the test of a region has a follow. -/
theorem exists_notedFollow? {region : Region} (live : id ∈ h.nodeIds) (member : region ∈ regions)
    (tests : region.cond? = some (h.label id)) : ∃ f, h.notedFollow? id = some f := by
  obtain ⟨choice, named, -⟩ := Option.map_eq_some_iff.mp tests
  obtain ⟨id', f, gets, recorded⟩ := decided.mem_iff_choice.mp ⟨member, by simp [named]⟩
  have label : h.label id' = h.label id := by
    simpa [Region.cond?, (choice_of_choiceRegion? recorded).2] using tests
  have live' := (gets.both_live decided.wf (entry_live decided.entered)).1
  obtain rfl := decided.wf.label_inj live' live label
  exact ⟨f, decided.notedFollow?_eq_some_iff.mpr gets⟩

/-- A two-way block directly above a join has the last one of its joins as its follow, unless it is
the test of a loop; then it has none. -/
theorem notedFollow?_of_joins {n : NodeId} (two : (h.succs id).length = 2)
    (joins : h.Joins entry id n) :
    h.isLoopTest id = true ∧ h.notedFollow? id = none ∨
      ∃ f, h.notedFollow? id = some f ∧ h.Joins entry id f ∧
        ∀ m, h.Joins entry id m → (h.numbering entry).rank m ≤ (h.numbering entry).rank f := by
  have wf := decided.wf
  have live := entry_live decided.entered
  have single : ¬h.isSwitch id = true := by simp [isSwitch, two]
  cases loop : h.isLoopTest id with
  | true =>
    refine .inl ⟨rfl, Option.eq_none_iff_forall_ne_some.mpr fun f noted => ?_⟩
    rcases decided.notedFollow?_eq_some_iff.mp noted with gets | gets
    · exact single gets.covered
    · have test : h.isTest id = true := gets.covered
      simp [isTest, loop] at test
  | false =>
    have listed := (mem_joins_iff wf live).mpr joins
    obtain ⟨f, found⟩ : ∃ f,
        h.testFollow? (h.dominatorsFrom entry) (h.numbering entry) id = some f := by
      refine Option.ne_none_iff_exists'.mp fun missing => ?_
      rw [testFollow?, greatest?_eq_none_iff] at missing
      rw [missing] at listed
      cases listed
    have reached : h.Reaches entry id := joins.1.1.2.reached
    have owns : FollowSearch.tests.Owns h entry id f :=
      ⟨reached, by simp [FollowSearch.tests, isTest, two, loop], found⟩
    exact .inr ⟨f, decided.notedFollow?_eq_some_iff.mpr (.inr ⟨id, owns, .inl rfl⟩),
      testFollow?_spec wf live found⟩

end Decided

/-- In the graph that structuring a valid graph leaves, a block has a follow exactly if it is the
test of one region. This is a switch over the arms of the block if there are more than two of them;
otherwise it names the arm that control may skip if the follow is the other one, and both arms if it
is none. No two regions have the same test. The follow of a two-way block directly above joins is
the last one of these; the tests of loops have none. -/
theorem structureIntervals_follow_iff_choice (wf : g.WellFormed) (valid : g.validate = .ok ()) :
    ∃ regions h entry, g.structureIntervals = .ok (regions, h) ∧ h.entry? = some entry ∧
      (∀ id ∈ h.nodeIds, (∃ f, h.notedFollow? id = some f) ↔
        ∃ region, regions.filter (·.cond? == some (h.label id)) = [region]) ∧
      (∀ id f, h.notedFollow? id = some f → f ∈ h.nodeIds ∧ ∃ region,
        regions.filter (·.cond? == some (h.label id)) = [region] ∧ h.Choice id f region) ∧
      (regions.filterMap Region.cond?).Nodup ∧
      ∀ id n, (h.succs id).length = 2 → h.Joins entry id n →
        h.isLoopTest id = true ∧ h.notedFollow? id = none ∨
          ∃ f, h.notedFollow? id = some f ∧ h.Joins entry id f ∧
            ∀ m, h.Joins entry id m →
              (h.numbering entry).rank m ≤ (h.numbering entry).rank f := by
  obtain ⟨stages, entry, switched, tested, run⟩ := Stages.exists_of wf valid
  have decided := run.decided wf
  refine ⟨stages.regions, stages.final, entry, run.ran, decided.entered, fun id live => ?_,
    fun id f noted => ?_, decided.conds_nodup,
    fun id n two joins => decided.notedFollow?_of_joins two joins⟩
  · constructor
    · rintro ⟨f, noted⟩
      obtain ⟨region, single, -⟩ := decided.exists_choice noted
      exact ⟨region, single⟩
    · rintro ⟨region, single⟩
      obtain ⟨member, tests⟩ := List.mem_filter.mp (single ▸ List.mem_singleton_self region)
      exact decided.exists_notedFollow? live member (beq_iff_eq.mp tests)
  · have gets := decided.notedFollow?_eq_some_iff.mp noted
    exact ⟨(gets.both_live decided.wf (entry_live decided.entered)).2, decided.exists_choice noted⟩

/-- A switch with a conditional on its first arm, of which one side leads on to the other. -/
def choosing : FlowGraph where
  name := "choosing"
  attrs := .empty
  nodes := [⟨0, "A", .ofList [("entry", "true")], .ofAttrs .empty⟩,
    ⟨1, "B", .empty, .ofAttrs .empty⟩, ⟨2, "C", .empty, .ofAttrs .empty⟩,
    ⟨3, "D", .empty, .ofAttrs .empty⟩, ⟨4, "E", .empty, .ofAttrs .empty⟩,
    ⟨5, "F", .empty, .ofAttrs .empty⟩, ⟨6, "G", .empty, .ofAttrs .empty⟩]
  edges := [⟨0, 1, .empty⟩, ⟨0, 2, .empty⟩, ⟨0, 3, .empty⟩,
    ⟨1, 4, .ofList [("cond", "true")]⟩, ⟨1, 5, .ofList [("cond", "false")]⟩, ⟨2, 6, .empty⟩,
    ⟨3, 6, .empty⟩, ⟨4, 5, .empty⟩, ⟨5, 6, .empty⟩]
  nextNode := 7
  nextEdge := 9

theorem choosing_follow_choice : choosing.WellFormed ∧ choosing.validate = .ok () ∧
    ∃ regions h entry, choosing.structureIntervals = .ok (regions, h) ∧ h.entry? = some entry ∧
      (∃ region, regions.filter (·.cond? == some (h.label 0)) = [region] ∧ h.Choice 0 6 region) ∧
      (∃ region, regions.filter (·.cond? == some (h.label 1)) = [region] ∧ h.Choice 1 5 region) ∧
      (regions.filterMap Region.cond?).Nodup := by
  have wf : choosing.WellFormed := by decide
  have valid : choosing.validate = .ok () := by rfl
  obtain ⟨regions, h, entry, ran, entered, -, choices, nodup, -⟩ :=
    structureIntervals_follow_iff_choice wf valid
  obtain ⟨regions', h', ran', switch, test⟩ : ∃ regions h,
      choosing.structureIntervals = .ok (regions, h) ∧ h.notedFollow? 0 = some 6 ∧
        h.notedFollow? 1 = some 5 := ⟨_, _, rfl, by rfl, by rfl⟩
  cases ran'.symm.trans ran
  exact ⟨wf, valid, _, _, entry, ran, entered, (choices 0 6 switch).2, (choices 1 5 test).2, nodup⟩

end FlowGraph

end ControlFlow
