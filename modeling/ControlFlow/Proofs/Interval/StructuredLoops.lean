import ControlFlow.Proofs.Interval.Contraction
import ControlFlow.Proofs.Interval.LoopReports
import ControlFlow.Proofs.Interval.Passes
import ControlFlow.Proofs.Interval.Structuring

/-! The loops of a whole run. Joining tests and the search for switches leave a graph in which no
loop is marked yet, all nodes can be reached, and which is reducible if the graph was; the search
for loops goes on from there, and no other pass records one or changes what is noted of loops. So
every loop of a run is closed by an edge of the final graph from its latch back to its head, which
dominates it, and no latch closes two loops. -/
namespace ControlFlow

/-- The latch of a loop. -/
def Region.latch? : Region → Option String
  | loop _ _ latch _ => some latch
  | _ => none

def Region.isLoop (region : Region) : Bool := region.latch?.isSome

namespace FlowGraph

variable {g h : FlowGraph} {entry : NodeId}

/-- What the passes before the search for loops leave of a graph. -/
structure Prepared (g : FlowGraph) (entry : NodeId) (h : FlowGraph) : Prop where
  wf : h.WellFormed
  entered : h.entry? = some entry
  all : ∀ n ∈ h.nodeIds, h.Reaches entry n
  label : h.label entry = g.label entry
  reducible : g.Reducible entry → h.Reducible entry
  unlooped : h.Unlooped

namespace Prepared

variable {k : FlowGraph}

theorem of_sameCore (prepared : Prepared g entry h) (same : k.SameCore h) (unlooped : k.Unlooped) :
    Prepared g entry k where
  wf := prepared.wf.of_sameCore same
  entered := same.entry_eq.trans prepared.entered
  all n inside := same.symm.reaches (prepared.all n (same.nodeIds ▸ inside))
  label := (congrFun same.label entry).trans prepared.label
  reducible before := same.symm.reducible_of (prepared.reducible before)
  unlooped := unlooped

theorem start (wf : g.WellFormed) (entered : g.entry? = some entry)
    (all : ∀ n ∈ g.nodeIds, g.Reaches entry n) : Prepared g entry g.resetAnnotations := by
  have same : g.resetAnnotations.SameCore g := sameCore_resetAnnotations
  exact {
    wf := wf.resetAnnotations
    entered := same.entry_eq.trans entered
    all := fun n inside => same.symm.reaches (all n (same.nodeIds ▸ inside))
    label := congrFun same.label entry
    reducible := same.symm.reducible_of
    unlooped := .resetAnnotations g }

open ShortCircuit in
theorem joined (prepared : Prepared g entry h) {c : Contraction} (fits : Fits h c) :
    Prepared g entry (joined h c) where
  wf := wellFormed_joined prepared.wf fits
  entered := entry_joined prepared.wf fits prepared.entered
  all n inside := by
    obtain ⟨live, stays⟩ := mem_joined_nodeIds.mp inside
    have start : entry ≠ c.inner := fun same => fits.notEntry (same ▸ prepared.entered)
    exact reaches_joined fits start stays (prepared.all n live)
  label := by
    have start : entry ≠ c.inner := fun same => fits.notEntry (same ▸ prepared.entered)
    exact (label_joined start).trans prepared.label
  reducible before := reducible_joined prepared.wf fits prepared.entered (prepared.reducible before)
  unlooped := by
    have removed : ((h.removeNode c.inner).insertEdge ⟨c.outer, c.target, c.attrs h⟩).Unlooped :=
      prepared.unlooped.removeNode c.inner
    apply removed.of_eq
    apply loopNotes?_annotate_eq
    intro notes
    rfl

theorem contractAll {bound : Nat} {regions : List Region} (prepared : Prepared g entry h)
    (ran : ShortCircuit.contractWithin bound h = .ok (regions, k)) : Prepared g entry k :=
  ShortCircuit.contractWithin_induct (motive := Prepared g entry)
    (fun _ numbering prepared => prepared.of_sameCore (sameCore_recordNumbers numbering)
      (prepared.unlooped.of_eq (loopNotes?_recordNumbers numbering)))
    (fun _ _ _ fits prepared => prepared.joined fits) prepared.wf prepared ran

end Prepared

/-- The passes of a run. -/
theorem structureIntervals_passes {regions : List Region}
    (ran : g.structureIntervals = .ok (regions, h)) :
    ∃ joined g₁ switches g₂ loops g₃ tests,
      ShortCircuit.contractAll g.resetAnnotations = .ok (joined, g₁) ∧
      g₁.structureSwitches = .ok (switches, g₂) ∧ g₂.structureLoops = .ok (loops, g₃) ∧
      g₃.structureTests = .ok (tests, h) ∧ regions = joined ++ switches ++ loops ++ tests := by
  obtain ⟨-, -, ran⟩ := bind_eq_ok_iff.mp ran
  obtain ⟨⟨joined, g₁⟩, ranJoined, ran⟩ := bind_eq_ok_iff.mp ran
  obtain ⟨⟨switches, g₂⟩, ranSwitches, ran⟩ := bind_eq_ok_iff.mp ran
  obtain ⟨⟨loops, g₃⟩, ranLoops, ran⟩ := bind_eq_ok_iff.mp ran
  obtain ⟨⟨tests, g₄⟩, ranTests, ran⟩ := bind_eq_ok_iff.mp ran
  cases ran
  exact ⟨joined, g₁, switches, g₂, loops, g₃, tests, ranJoined, ranSwitches, ranLoops, ranTests,
    rfl⟩

/-- A search for follows leaves the notes of loops alone. -/
theorem FollowSearch.loopNotes?_run {search : FollowSearch} {regions : List Region}
    (ran : search.run g = .ok (regions, h)) : h.loopNotes? = g.loopNotes? := by
  have same : SameNotes Notes.loops h g := .followSearch (fun _ _ _ _ => rfl) (fun _ _ => rfl) ran
  exact funext same

/-- A search for follows records no loops. -/
theorem FollowSearch.Steady.isLoop_eq_false {search : FollowSearch} (steady : search.Steady)
    {regions : List Region} (records : ∀ region, region ∈ regions ↔
      ∃ id f, search.Gets h entry id f ∧ search.region? h id f = some region) :
    ∀ region ∈ regions, region.isLoop = false := by
  intro region member
  obtain ⟨id, f, gets, recorded⟩ := (records region).mp member
  obtain ⟨region', recorded', choice⟩ := steady.records f gets.covered
  obtain rfl := Option.some.inj (recorded.symm.trans recorded')
  cases region with
  | loop => cases choice
  | _ => rfl

/-- Joining tests records no loops. -/
theorem isLoop_contractAll {regions : List Region}
    (ran : ShortCircuit.contractAll g = .ok (regions, h)) :
    ∀ region ∈ regions, region.isLoop = false := by
  intro region member
  obtain ⟨junction, kind⟩ := ShortCircuit.kind_contractWithin ran region member
  cases region with
  | loop kind' => cases kind' <;> cases kind
  | _ => rfl

/-- What is read off loops only is read off the loops among some regions. -/
theorem filterMap_isLoop {read : Region → Option α}
    (others : ∀ region, region.isLoop = false → read region = none) (regions : List Region) :
    regions.filterMap read = (regions.filter Region.isLoop).filterMap read := by
  rw [List.filterMap_filter]
  refine List.filterMap_congr fun region _ => ?_
  cases loop : region.isLoop with
  | true => rfl
  | false => exact others region loop

/-- Of the passes of a run, that for loops alone records any. -/
theorem filter_isLoop_passes {joined switches loops tests : List Region}
    (joinedNone : ∀ region ∈ joined, region.isLoop = false)
    (switchesNone : ∀ region ∈ switches, region.isLoop = false)
    (loopsAll : ∀ region ∈ loops, region.isLoop = true)
    (testsNone : ∀ region ∈ tests, region.isLoop = false) :
    (joined ++ switches ++ loops ++ tests).filter Region.isLoop = loops := by
  have none {records : List Region} (others : ∀ region ∈ records, region.isLoop = false) :
      records.filter Region.isLoop = [] :=
    List.filter_eq_nil_iff.mpr fun region member => by simp [others region member]
  simp only [List.filter_append, none joinedNone, none switchesNone, none testsNone,
    List.filter_eq_self.mpr loopsAll, List.nil_append, List.append_nil]

/-- What structuring by intervals leaves of a graph, and reports of its loops. -/
structure StructuredLoops (g : FlowGraph) (regions : List Region) (h : FlowGraph) (entry : NodeId)
    (loops : List (NodeId × NodeId)) : Prop where
  wf : h.WellFormed
  entered : h.entry? = some entry
  all : ∀ n ∈ h.nodeIds, h.Reaches entry n
  label : h.label entry = g.label entry
  reducible : g.Reducible entry → h.Reducible entry
  regions : regions.filter Region.isLoop =
    loops.map (h.loopRegion (h.dominatorsFrom entry) (h.numbering entry))
  notes : ∀ id ∈ h.nodeIds, h.loopNotes? id =
    some (h.loopNotesOf (h.dominatorsFrom entry) (h.numbering entry) loops id)
  reported : Reported h entry loops

theorem structureIntervals_reported (wf : g.WellFormed) (valid : g.validate = .ok ()) :
    ∃ regions h entry loops, g.structureIntervals = .ok (regions, h) ∧ g.entry? = some entry ∧
      StructuredLoops g regions h entry loops := by
  obtain ⟨entry, entered, all⟩ := (validate_eq_ok_iff wf).mp valid
  obtain ⟨regions, h, -, ran, -⟩ := structureIntervals_structured wf valid
  obtain ⟨joined, g₁, switches, g₂, loops, g₃, tests, ranJoined, ranSwitches, ranLoops, ranTests,
    parts⟩ := structureIntervals_passes ran
  have prepared₁ := (Prepared.start wf entered all).contractAll ranJoined
  obtain ⟨switches', g₂', ranSwitches', core₂, recordsSwitches⟩ :=
    FollowSearch.switches_steady.run_eq_ok prepared₁.wf prepared₁.entered
  cases ranSwitches'.symm.trans ranSwitches
  have prepared₂ := prepared₁.of_sameCore core₂
    (prepared₁.unlooped.of_eq (FollowSearch.loopNotes?_run ranSwitches))
  obtain ⟨⟨loops', g₃'⟩, closed, ranLoops', core₃, regionsLoops, notesLoops, reported⟩ :=
    structureLoops_reported prepared₂.wf prepared₂.entered prepared₂.all prepared₂.unlooped
  cases ranLoops'.symm.trans ranLoops
  have wf₃ := prepared₂.wf.of_sameCore core₃
  obtain ⟨tests', h', ranTests', core, recordsTests⟩ :=
    FollowSearch.tests_steady.run_eq_ok wf₃ (core₃.entry_eq.trans prepared₂.entered)
  cases ranTests'.symm.trans ranTests
  have same : h.SameCore g₂ := core.trans core₃
  have regionsLoops : loops = closed.map _ := regionsLoops
  refine ⟨regions, h, entry, closed, ran, entered, ⟨wf₃.of_sameCore core,
    same.entry_eq.trans prepared₂.entered,
    fun n inside => same.symm.reaches (prepared₂.all n (same.nodeIds ▸ inside)),
    (congrFun same.label entry).trans prepared₂.label,
    fun before => same.symm.reducible_of (prepared₂.reducible before), ?_, ?_,
    same.symm.reported reported⟩⟩
  · have loopsAll : ∀ region ∈ loops, region.isLoop = true := by
      intro region member
      rw [regionsLoops] at member
      obtain ⟨loop, -, rfl⟩ := List.mem_map.mp member
      rfl
    rw [parts, filter_isLoop_passes (isLoop_contractAll ranJoined)
      (FollowSearch.switches_steady.isLoop_eq_false recordsSwitches) loopsAll
      (FollowSearch.tests_steady.isLoop_eq_false recordsTests), same.loopRegion,
      same.dominatorsFrom, same.numbering]
    exact regionsLoops
  · intro id live
    rw [FollowSearch.loopNotes?_run ranTests, same.loopNotesOf, same.dominatorsFrom,
      same.numbering]
    exact notesLoops id (same.nodeIds ▸ live)

namespace StructuredLoops

variable {regions : List Region} {loops : List (NodeId × NodeId)}
variable (structured : StructuredLoops g regions h entry loops)
include structured

theorem closes_live {loop : NodeId × NodeId} (found : loop ∈ loops) :
    loop.1 ∈ h.nodeIds ∧ loop.2 ∈ h.nodeIds := by
  have closes := structured.reported.closes loop found
  exact ⟨structured.wf.target_live closes.edge, structured.wf.source_live closes.edge⟩

/-- Every record of a loop is that of a loop that was found. -/
theorem exists_loop {kind : LoopKind} {head latch : String} {follow : Option String}
    (member : .loop kind head latch follow ∈ regions) :
    ∃ loop ∈ loops, h.find? head = some loop.1 ∧ h.find? latch = some loop.2 ∧
      h.loopRegion (h.dominatorsFrom entry) (h.numbering entry) loop =
        .loop kind head latch follow := by
  have isLoop : .loop kind head latch follow ∈ regions.filter Region.isLoop :=
    List.mem_filter.mpr ⟨member, rfl⟩
  rw [structured.regions] at isLoop
  obtain ⟨loop, found, record⟩ := List.mem_map.mp isLoop
  obtain ⟨headLive, latchLive⟩ := structured.closes_live found
  refine ⟨loop, found, ?_, ?_, record⟩
  · cases record
    exact structured.wf.find?_label headLive
  · cases record
    exact structured.wf.find?_label latchLive

/-- Every loop that was found has a record. -/
theorem region_mem {loop : NodeId × NodeId} (found : loop ∈ loops) :
    h.loopRegion (h.dominatorsFrom entry) (h.numbering entry) loop ∈ regions := by
  have recorded : h.loopRegion (h.dominatorsFrom entry) (h.numbering entry) loop ∈
      regions.filter Region.isLoop := by
    rw [structured.regions]
    exact List.mem_map_of_mem found
  exact (List.mem_filter.mp recorded).1

theorem latches_nodup : (regions.filterMap Region.latch?).Nodup := by
  have others (region : Region) (other : region.isLoop = false) : region.latch? = none := by
    simpa [Region.isLoop] using other
  have labels : loops.filterMap (fun loop =>
      (h.loopRegion (h.dominatorsFrom entry) (h.numbering entry) loop).latch?) =
        (loops.map Prod.snd).map h.label := by
    rw [List.map_map, ← List.filterMap_eq_map]
    rfl
  rw [filterMap_isLoop others, structured.regions, List.filterMap_map]
  refine labels ▸ structured.reported.latches.map_on fun a left b right same => ?_
  obtain ⟨first, found, rfl⟩ := List.mem_map.mp left
  obtain ⟨second, found', rfl⟩ := List.mem_map.mp right
  exact structured.wf.label_inj (structured.closes_live found).2 (structured.closes_live found').2
    same

end StructuredLoops

/-- Every loop that structuring a valid graph returns is real: its head and its latch are blocks of
the final graph, in which an edge leads from the latch back to the head, and the head dominates the
latch. No latch closes two of them. -/
theorem structureIntervals_loops_real (wf : g.WellFormed) (valid : g.validate = .ok ()) :
    ∃ regions h entry, g.structureIntervals = .ok (regions, h) ∧ h.entry? = some entry ∧
      (∀ kind head latch follow, .loop kind head latch follow ∈ regions →
        ∃ a b, h.find? head = some a ∧ h.find? latch = some b ∧ h.Step b a ∧
          h.Dominates entry a b) ∧
      (regions.filterMap Region.latch?).Nodup := by
  obtain ⟨regions, h, entry, loops, ran, -, structured⟩ := structureIntervals_reported wf valid
  refine ⟨regions, h, entry, ran, structured.entered, ?_, structured.latches_nodup⟩
  intro kind head latch follow member
  obtain ⟨loop, found, headFound, latchFound, -⟩ := structured.exists_loop member
  have closes := structured.reported.closes loop found
  exact ⟨loop.1, loop.2, headFound, latchFound, closes.edge, closes.dominates⟩

/-- A loop of one block inside another loop, and two blocks behind them that lead to each other and
are entered separately. -/
def entangled : FlowGraph where
  name := "entangled"
  attrs := .empty
  nodes := [⟨0, "A", .ofList [("entry", "true")], .ofAttrs .empty⟩,
    ⟨1, "B", .empty, .ofAttrs .empty⟩, ⟨2, "C", .empty, .ofAttrs .empty⟩,
    ⟨3, "D", .empty, .ofAttrs .empty⟩, ⟨4, "E", .empty, .ofAttrs .empty⟩,
    ⟨5, "F", .empty, .ofAttrs .empty⟩, ⟨6, "G", .empty, .ofAttrs .empty⟩]
  edges := [⟨0, 1, .empty⟩, ⟨1, 2, .empty⟩, ⟨2, 2, .ofList [("cond", "true")]⟩,
    ⟨2, 3, .ofList [("cond", "false")]⟩, ⟨3, 1, .ofList [("cond", "true")]⟩,
    ⟨3, 4, .ofList [("cond", "false")]⟩, ⟨4, 5, .ofList [("cond", "true")]⟩,
    ⟨4, 6, .ofList [("cond", "false")]⟩, ⟨5, 6, .empty⟩, ⟨6, 5, .empty⟩]
  nextNode := 7
  nextEdge := 10

/-- The outer loop is found on the second level of the derived sequence. -/
theorem entangled_loops_real : entangled.WellFormed ∧ entangled.validate = .ok () ∧
    ∃ regions h entry, entangled.structureIntervals = .ok (regions, h) ∧ h.entry? = some entry ∧
      .loop .post "B" "D" (some "E") ∈ regions ∧
      (∃ a b, h.find? "B" = some a ∧ h.find? "D" = some b ∧ h.Step b a ∧ h.Dominates entry a b) ∧
      (regions.filterMap Region.latch?).Nodup := by
  have wf : entangled.WellFormed := by decide
  have valid : entangled.validate = .ok () := by rfl
  obtain ⟨regions, h, entry, ran, entered, real, nodup⟩ := structureIntervals_loops_real wf valid
  obtain ⟨regions', h', ran', outer⟩ : ∃ regions h,
      entangled.structureIntervals = .ok (regions, h) ∧
        .loop .post "B" "D" (some "E") ∈ regions := ⟨_, _, rfl, by decide⟩
  cases ran'.symm.trans ran
  exact ⟨wf, valid, _, _, entry, ran, entered, outer, real _ _ _ _ outer, nodup⟩

end FlowGraph

end ControlFlow
