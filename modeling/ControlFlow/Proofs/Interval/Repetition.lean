import ControlFlow.Proofs.Interval.References
import ControlFlow.Proofs.Interval.WithoutCompounds

/-! Structuring a graph again. The graph that a run leaves has no tests left to join, so all that
the first pass of a second run does is to forget the compound conditions: these are the only
findings that cannot be found again, as the blocks they were made of are gone. The other passes
never read a compound condition, and find what they found before. -/
namespace ControlFlow

/-- All that is known of a node but its numbers and its compound condition. -/
def Notes.withoutNumbers (notes : Notes) : Notes :=
  { notes with preNum := 0, postNum := 0, revPostNum := 0, compound := none }

namespace ShortCircuit

variable {g h : FlowGraph} {entry : NodeId} {regions : List Region} {region : Region} {bound : Nat}

/-- Some block has a compound condition. -/
def Compounded (g : FlowGraph) : Prop := ∃ id, ((g.notes? id).bind Notes.compound).isSome = true

theorem compounded_joined {c : Contraction} (wf : g.WellFormed) (fits : Fits g c) :
    Compounded (joined g c) := by
  have stays : c.outer ∈ (joined g c).nodeIds :=
    mem_joined_nodeIds.mpr ⟨wf.source_live (fits.edge wf), fits.different.symm⟩
  have present : ((joined g c).notes? c.outer).isSome = true := by
    rw [FlowGraph.notes?, Option.isSome_map]
    exact FlowGraph.contains_iff.mpr stays
  rw [joined, FlowGraph.annotate_notes?_self, Option.isSome_map] at present
  obtain ⟨notes, found⟩ := Option.isSome_iff_exists.mp present
  refine ⟨c.outer, ?_⟩
  rw [joined, FlowGraph.annotate_notes?_self, found]
  rfl

/-- A run that joins tests leaves a compound condition. -/
theorem compounded_contractWithin (wf : g.WellFormed) (entered : g.entry? = some entry)
    (ran : contractWithin bound g = .ok (region :: regions, h)) : Compounded h := by
  obtain ⟨next, fewer, contracts, later, -⟩ := contractWithin_cons wf entered ran
  have first : Compounded next := by
    obtain ⟨k, c, -, -, wfK, fits, -, rfl⟩ := contracts.fits wf
    exact compounded_joined wfK fits
  refine contractWithin_induct (fun k numbering before => ?_)
    (fun k c wfK fits _ => compounded_joined wfK fits) (contracts.wellFormed wf) first later
  obtain ⟨id, found⟩ := before
  exact ⟨id, by rwa [FlowGraph.recordNumbers_compound]⟩

end ShortCircuit

namespace FlowGraph

open ShortCircuit

variable {g : FlowGraph} {entry id : NodeId} {region : Region}

theorem withoutCompounds_eq_self_iff (wf : g.WellFormed) :
    g.withoutCompounds = g ↔ ¬Compounded g := by
  constructor
  · rintro same ⟨id, found⟩
    rw [← same, withoutCompounds_notes?] at found
    cases present : g.notes? id with
    | none => simp [present] at found
    | some notes => simp [present, Notes.withoutCompound] at found
  · intro none
    have kept (n : Node) (member : n ∈ g.nodes) :
        { n with notes := n.notes.withoutCompound } = n := by
      have found := wf.node?_eq_some_iff.mpr ⟨member, rfl⟩
      have bare : n.notes.compound = Option.none := by
        by_contra compound
        exact none ⟨n.id, by simpa [notes?, found, Option.isSome_iff_ne_none] using compound⟩
      simp only [Notes.withoutCompound, ← bare]
    have nodes := (List.map_congr_left kept).trans (List.map_id' g.nodes)
    simp only [withoutCompounds, nodes]

/-- Every node that can be reached has all three numbers. -/
theorem exists_numbers (wf : g.WellFormed) (live : entry ∈ g.nodeIds)
    (reached : g.Reaches entry id) :
    ∃ pre post rev, (g.numbering entry).preNum? id = some pre ∧
      (g.numbering entry).postNum? id = some post ∧
      (g.numbering entry).revPostNum? id = some rev := by
  have met : ((g.numbering entry).preNum? id).isSome = true :=
    List.isSome_idxOf?.mpr ((mem_search wf live).mpr reached)
  have left : ((g.numbering entry).postNum? id).isSome = true :=
    List.isSome_idxOf?.mpr ((mem_numbering_left wf live).mpr reached)
  obtain ⟨pre, foundPre⟩ := Option.isSome_iff_exists.mp met
  obtain ⟨post, foundPost⟩ := Option.isSome_iff_exists.mp left
  exact ⟨pre, post, _, foundPre, foundPost, revPostNum?_eq_some_rank wf live reached⟩

/-- A graph of which only numbers and compound conditions are noted is, numbered anew, that graph
without its compound conditions. -/
theorem recordNumbers_resetAnnotations (wf : g.WellFormed) (live : entry ∈ g.nodeIds)
    (all : ∀ id ∈ g.nodeIds, g.Reaches entry id) (unmarked : Unmarked Notes.withoutNumbers g)
    (numbered : g.recordNumbers (g.numbering entry) = g) :
    g.resetAnnotations.recordNumbers (g.numbering entry) = g.withoutCompounds := by
  have again := congrArg withoutCompounds numbered
  rw [withoutCompounds_recordNumbers] at again
  rw [← again]
  simp only [recordNumbers, resetAnnotations, withoutCompounds, List.map_map, mk.injEq, true_and,
    and_true]
  refine List.map_congr_left fun n member => ?_
  obtain ⟨pre, post, rev, foundPre, foundPost, foundRev⟩ :=
    exists_numbers wf live (all n.id (mem_nodeIds.mpr ⟨n, member, rfl⟩))
  simp only [Function.comp_apply, foundPre, foundPost, foundRev]
  have same := (unmarked n member).symm
  exact congrArg (fun notes : Notes => { n with notes :=
    { notes with preNum := pre, postNum := post, revPostNum := rev } }) same

namespace Stages.Of

variable {stages : Stages} {switched tested : List (NodeId × NodeId)}
variable (run : stages.Of g entry switched tested)
include run

/-- The graph that a run leaves is valid. -/
theorem valid_final : stages.final.validate = .ok () := by
  refine (validate_eq_ok_iff run.wf).mpr ⟨entry, run.entered, fun id live => ?_⟩
  rw [run.core.nodeIds] at live
  exact run.core.symm.reaches (run.prepared.all id live)

/-- Joining tests again finds none, and forgets the compound conditions. -/
theorem contractAll_final (wf : g.WellFormed) :
    contractAll stages.final.resetAnnotations = .ok ([], stages.afterJoined.withoutCompounds) := by
  have reset : stages.final.resetAnnotations = stages.afterJoined.resetAnnotations := run.core
  have wf₁ := run.prepared.wf
  have core := @sameCore_resetAnnotations stages.afterJoined
  have entered := core.entry_eq.trans run.prepared.entered
  have numbering := congrFun core.numbering entry
  have unmarked : Unmarked Notes.withoutNumbers stages.afterJoined :=
    (Unmarked.resetAnnotations _ g).contractWithin (fun _ _ _ _ => rfl) (fun _ _ => rfl)
      wf.resetAnnotations run.ranJoined
  obtain ⟨numbered, settled⟩ := run.afterJoined_ended wf
  have renumbered := recordNumbers_resetAnnotations wf₁ (entry_live run.prepared.entered)
    run.prepared.all unmarked numbered
  have tests : SameNotes Notes.isCondNode stages.afterJoined.withoutCompounds
      stages.afterJoined := by
    intro id
    rw [withoutCompounds_notes?, Option.map_map]
    rfl
  have unjoined := contraction?_eq (sameCore_withoutCompounds stages.afterJoined) tests
  obtain ⟨bound, size⟩ := Nat.exists_eq_succ_of_ne_zero (size_pos_of_entry entered).ne'
  rw [contractAll, reset, size]
  rcases contractWithin_step wf₁.resetAnnotations entered with
    ⟨k, rfl, -, still⟩ | ⟨region, next, ⟨rfl, first⟩, -⟩
  · rw [still, numbering, renumbered]
  · rw [numbering, renumbered, unjoined, settled] at first
    cases first

/-- A second run goes through the stages of the first without their compound conditions. -/
theorem again (wf : g.WellFormed) : stages.final.structureIntervals =
    .ok (stages.later, stages.final.withoutCompounds) := by
  have entered₁ := run.prepared.entered
  have entered₂ := run.switches.core.entry_eq.trans entered₁
  have entered₃ := run.loops.core.entry_eq.trans entered₂
  have wf₂ := run.prepared.wf.of_sameCore run.switches.core
  have switches := FollowSearch.Steady.run_withoutCompounds FollowSearch.switches_steady
    FollowSearch.switches_plain entered₁ run.ranSwitches
  have loops := structureLoops_withoutCompounds wf₂ entered₂ run.ranLoops
  have tests := FollowSearch.Steady.run_withoutCompounds FollowSearch.tests_steady
    FollowSearch.tests_plain entered₃ run.ranTests
  simp only [structureIntervals, run.valid_final, run.contractAll_final wf, structureSwitches,
    switches, loops, structureTests, tests, bind, Except.bind]
  rfl

theorem later_eq_filter :
    stages.later = stages.regions.filter fun region => region.taken?.isNone := by
  have joined : (stages.joined.filter fun region => region.taken?.isNone) = [] := by
    refine List.filter_eq_nil_iff.mpr fun region member => ?_
    simpa [Option.isSome_iff_ne_none] using run.joined_taken member
  have later : (stages.later.filter fun region => region.taken?.isNone) = stages.later := by
    refine List.filter_eq_self.mpr fun region member => ?_
    rw [run.later_untaken member]
    rfl
  rw [regions_eq, List.filter_append, joined, later, List.nil_append]

theorem untaken_iff : (∀ region ∈ stages.regions, region.taken? = none) ↔ stages.joined = [] := by
  rw [regions_eq, List.forall_mem_append]
  constructor
  · rintro ⟨early, -⟩
    refine List.eq_nil_iff_forall_not_mem.mpr fun region member => ?_
    have taken := run.joined_taken member
    rw [early region member] at taken
    cases taken
  · intro none
    exact ⟨by simp [none], fun region member => run.later_untaken member⟩

/-- There are compound conditions in the end exactly if tests were joined. -/
theorem compounded_final_iff (wf : g.WellFormed) :
    Compounded stages.final ↔ stages.joined ≠ [] := by
  have kept : SameNotes Notes.compound stages.final stages.afterJoined :=
    run.notes (fun _ _ _ _ => rfl) (fun _ _ => rfl) (fun _ _ _ _ _ => rfl)
  have entered : g.resetAnnotations.entry? = some entry :=
    resetAnnotations_entry.trans run.started
  have ran := run.ranJoined
  simp only [Compounded, kept.bind_eq]
  cases made : stages.joined with
  | cons region rest =>
    rw [made] at ran
    exact iff_of_true (compounded_contractWithin wf.resetAnnotations entered ran) nofun
  | nil =>
    rw [made] at ran
    refine iff_of_false ?_ fun some => some rfl
    have bare : Unmarked Notes.compound stages.afterJoined := by
      have start := Unmarked.resetAnnotations Notes.compound g
      rcases contractWithin_nil wf.resetAnnotations entered ran with same | same
      · rwa [same]
      · rw [same]
        exact start.recordNumbers (fun _ _ _ _ => rfl) _
    rintro ⟨id, found⟩
    obtain ⟨notes, present, compound⟩ := Option.bind_eq_some_iff.mp (Option.get_mem found)
    obtain ⟨n, listed, rfl⟩ := Option.map_eq_some_iff.mp present
    cases (bare n (List.mem_of_find?_eq_some listed)).symm.trans compound

end Stages.Of

/-- A second run succeeds on the graph that the first has left, and changes nothing of it but that
it forgets the compound conditions. It gives the regions of the first run that are no joined tests.
Nothing at all changes exactly if no tests were joined. -/
theorem structureIntervals_again (wf : g.WellFormed) (valid : g.validate = .ok ()) :
    ∃ regions h, g.structureIntervals = .ok (regions, h) ∧
      h.structureIntervals =
        .ok (regions.filter fun region => region.taken?.isNone, h.withoutCompounds) ∧
      (h.withoutCompounds = h ↔ ∀ region ∈ regions, region.taken? = none) := by
  obtain ⟨stages, entry, switched, tested, run⟩ := Stages.exists_of wf valid
  refine ⟨stages.regions, stages.final, run.ran, ?_, ?_⟩
  · rw [← run.later_eq_filter]
    exact run.again wf
  · rw [withoutCompounds_eq_self_iff run.wf, run.compounded_final_iff wf, not_not,
      run.untaken_iff]

theorem chained_again : chained.WellFormed ∧ chained.validate = .ok () ∧
    ∃ h, chained.structureIntervals =
        .ok ([.shortCircuit .and "A" "B" "C" "D", .shortCircuit .and "A" "C" "E" "D",
          .loop .post "E" "E" (some "D"), .ifThen "A" "E" "D"], h) ∧
      h.structureIntervals =
        .ok ([.loop .post "E" "E" (some "D"), .ifThen "A" "E" "D"], h.withoutCompounds) ∧
      h.withoutCompounds ≠ h := by
  have wf : chained.WellFormed := by decide
  have valid : chained.validate = .ok () := by rfl
  obtain ⟨regions, h, ran, again, same⟩ := structureIntervals_again wf valid
  obtain ⟨h', ran'⟩ : ∃ h, chained.structureIntervals =
      .ok ([.shortCircuit .and "A" "B" "C" "D", .shortCircuit .and "A" "C" "E" "D",
        .loop .post "E" "E" (some "D"), .ifThen "A" "E" "D"], h) := ⟨_, rfl⟩
  cases ran'.symm.trans ran
  refine ⟨wf, valid, _, ran, again, fun unchanged => ?_⟩
  cases same.mp unchanged _ List.mem_cons_self

/-- From the second run on, structuring changes nothing. -/
theorem structureIntervals_stable (wf : g.WellFormed) (valid : g.validate = .ok ()) :
    ∃ regions h later k, g.structureIntervals = .ok (regions, h) ∧
      h.structureIntervals = .ok (later, k) ∧ k.structureIntervals = .ok (later, k) := by
  obtain ⟨first, entry, switched, tested, run⟩ := Stages.exists_of wf valid
  obtain ⟨second, entry', switched', tested', rerun⟩ := Stages.exists_of run.wf run.valid_final
  have joined : ∀ region ∈ second.regions, region.taken? = none := by
    obtain ⟨regions, -⟩ := Prod.mk.inj (Except.ok.inj (rerun.ran.symm.trans (run.again wf)))
    rw [regions]
    exact fun region member => run.later_untaken member
  have later : second.later = second.regions := by
    rw [rerun.later_eq_filter]
    refine List.filter_eq_self.mpr fun region member => ?_
    rw [joined region member]
    rfl
  have plain : second.final.withoutCompounds = second.final := by
    rw [withoutCompounds_eq_self_iff rerun.wf, rerun.compounded_final_iff run.wf, not_not]
    exact rerun.untaken_iff.mp joined
  refine ⟨_, _, _, _, run.ran, rerun.ran, ?_⟩
  rw [rerun.again run.wf, later, plain]

/-- The compound condition of a joined test is lost in a second run. -/
theorem guarded_again_changed : guarded.WellFormed ∧ guarded.validate = .ok () ∧
    ∃ regions h regions' h', guarded.structureIntervals = .ok (regions, h) ∧
      h.structureIntervals = .ok (regions', h') ∧
      (h.notes? 0).bind Notes.compound = some (.and (.leaf "A") (.not (.leaf "B"))) ∧
      (h'.notes? 0).bind Notes.compound = none :=
  ⟨by decide, rfl, _, _, _, _, rfl, rfl, rfl, rfl⟩

end FlowGraph

end ControlFlow
