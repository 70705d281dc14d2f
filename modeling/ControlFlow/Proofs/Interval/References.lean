import ControlFlow.Proofs.Interval.Conditionals
import ControlFlow.Proofs.Interval.JoinedTests
import ControlFlow.Proofs.Interval.LoopFindings
import ControlFlow.Proofs.Interval.LoopFollows
import ControlFlow.Proofs.Region

/-! What findings refer to. Only joining tests takes blocks out of the graph, and it comes first. So
all that the later passes note refers to nodes that stay, their regions name blocks that stay, and
the tests that can be joined are joined: what they write down, and all edges, is as it was when no
two were left. -/
namespace ControlFlow

/-- The nodes to which the notes of a node refer. -/
def Notes.references (notes : Notes) : List NodeId :=
  notes.loopHead.toList ++ notes.loopFollow.toList ++ notes.follow.toList

namespace Region

variable {region : Region} {label : String}

theorem entry_mem_blocks (region : Region) : region.entry ∈ region.blocks := by
  cases region <;> simp [blocks, cast, entry]

private theorem mem_of_foldl_labels {items : List String} {seen : List String}
    (member : label ∈ items.foldl
      (fun labels label => if labels.contains label then labels else labels ++ [label]) seen) :
    label ∈ seen ∨ label ∈ items := by
  induction items generalizing seen with
  | nil => exact .inl member
  | cons first rest ih =>
    rcases ih member with before | later
    · dsimp only at before
      split at before
      · exact .inl before
      · rcases List.mem_append.mp before with old | new
        · exact .inl old
        · exact .inr (List.mem_singleton.mp new ▸ List.mem_cons_self)
    · exact .inr (List.mem_cons_of_mem _ later)

/-- The labels of a region are those of its blocks. -/
theorem mem_blocks_of_mem_labels (member : label ∈ region.labels) : label ∈ region.blocks := by
  rcases List.mem_cons.mp ((mem_of_foldl_labels member).resolve_left List.not_mem_nil)
    with rfl | listed
  · exact region.entry_mem_blocks
  · obtain ⟨⟨key, _⟩, entry, rfl⟩ := List.mem_map.mp listed
    have named := get?_roles_eq_some_iff.mp (AttrMap.get?_eq_some_iff.mpr entry)
    obtain ⟨⟨role, _⟩, played, same⟩ := List.mem_map.mp named
    cases same
    exact List.mem_map_of_mem played

end Region

namespace ShortCircuit

variable {g h : FlowGraph} {id : NodeId}

/-- Whether tests can be joined does not depend on what later passes write down. -/
theorem contraction?_eq (core : g.SameCore h) (tests : FlowGraph.SameNotes Notes.isCondNode g h) :
    contraction? g = contraction? h := by
  have sides : sides? g = sides? h := by
    funext id
    rw [sides?, sides?, FlowGraph.outEdges, FlowGraph.outEdges, core.edges]
  have only (id : NodeId) :
      (g.notes? id).any Notes.isCondNode = (h.notes? id).any Notes.isCondNode := by
    have same := congrArg (Option.any fun only => only) (tests id)
    simpa [Option.any_map, Function.comp_def] using same
  have inner : isInner g = isInner h := by
    funext outer id
    rw [isInner, isInner, core.entry_eq, core.preds, only, sides]
  funext outer
  simp only [contraction?, contractTrue?, contractFalse?, sides, inner]

/-- A block that is not live leads nowhere, so that nothing can be joined to it. -/
theorem contraction?_eq_none (wf : g.WellFormed) (dead : id ∉ g.nodeIds) :
    contraction? g id = none := by
  have none : g.outEdges id = [] := by
    refine List.filter_eq_nil_iff.mpr fun e member source => dead ?_
    exact beq_iff_eq.mp source ▸ (wf.edgesLive e member).1
  simp [contraction?, sides?, none]

end ShortCircuit

namespace FlowGraph

open Hammock ShortCircuit

variable {g h : FlowGraph} {entry id f : NodeId} {regions : List Region} {region : Region}
variable {given loops : List (NodeId × NodeId)}

/-- A conditional names blocks of the graph. -/
theorem Choice.blocks_live (choice : h.Choice id f region) (wf : h.WellFormed)
    (live : id ∈ h.nodeIds) (follow : f ∈ h.nodeIds) :
    ∀ label ∈ region.blocks, label ∈ h.labels := by
  have named {n : NodeId} (live : n ∈ h.nodeIds) : h.label n ∈ h.labels :=
    (mem_labels wf).mpr ⟨n, live, rfl⟩
  have arm {n : NodeId} (edge : n ∈ h.succs id) : h.label n ∈ h.labels :=
    named (wf.target_live edge)
  cases choice with
  | switch many =>
    intro label member
    simp only [Region.blocks, Region.cast, List.cons_append, List.nil_append, List.map_cons,
      List.mem_cons, List.mem_map] at member
    rcases member with rfl | rfl | ⟨⟨role, _⟩, played, rfl⟩
    · exact named live
    · exact named follow
    · obtain ⟨i, inside, same⟩ := List.mem_mapIdx.mp played
      cases same
      rw [List.getElem_map]
      exact arm (List.getElem_mem _)
  | @ifThen body arms =>
    have edge : body ∈ h.succs id := by rcases arms with arms | arms <;> simp [arms]
    simp [Region.blocks, Region.cast, named live, named follow, arm edge]
  | @ifElse first second arms apart =>
    have onFirst : first ∈ h.succs id := by simp [arms]
    have onSecond : second ∈ h.succs id := by simp [arms]
    simp [Region.blocks, Region.cast, named live, named follow, arm onFirst, arm onSecond]

namespace StructuredLoops

variable (structured : StructuredLoops g regions h entry loops)
include structured

/-- The head and the follow that are noted of loops are live. -/
theorem loopReferences_live {notes : Notes} (present : h.notes? id = some notes)
    (live : id ∈ h.nodeIds) :
    (∀ n, notes.loopHead = some n → n ∈ h.nodeIds) ∧
      ∀ n, notes.loopFollow = some n → n ∈ h.nodeIds := by
  obtain ⟨notes', present', noted⟩ := structured.exists_notes live
  obtain rfl := Option.some.inj (present'.symm.trans present)
  constructor
  · intro head is
    have around : h.notedHead? id = some head := by rw [notedHead?, present, Option.bind_some, is]
    obtain ⟨before, latch, after, parts, -⟩ :=
      (structured.notedHead?_eq_some_iff live).mp around
    have found : (head, latch) ∈ loops := by simp [parts]
    exact (structured.closes_live found).1
  · intro follow is
    have way := congrArg LoopNotes.follow noted
    simp only [Notes.loops, loopNotesOf, is] at way
    obtain ⟨loop, -, found⟩ := Option.bind_eq_some_iff.mp way.symm
    obtain ⟨-, source, edge, -⟩ := loopFollowOf_spec found
    exact structured.wf.target_live edge

/-- A loop names blocks of the graph. -/
theorem blocks_live (member : region ∈ regions) (isLoop : region.isLoop = true) :
    ∀ label ∈ region.blocks, label ∈ h.labels := by
  have listed : region ∈ regions.filter Region.isLoop := List.mem_filter.mpr ⟨member, isLoop⟩
  rw [structured.regions] at listed
  obtain ⟨loop, found, rfl⟩ := List.mem_map.mp listed
  obtain ⟨head, latch⟩ := structured.closes_live found
  have named {n : NodeId} (live : n ∈ h.nodeIds) : h.label n ∈ h.labels :=
    (mem_labels structured.wf).mpr ⟨n, live, rfl⟩
  cases follow : (h.loopFinding (h.dominatorsFrom entry) (h.numbering entry) loop).2 with
  | none => simp [Region.blocks, Region.cast, loopRegion, follow, named head, named latch]
  | some f =>
    obtain ⟨-, source, edge, -⟩ := loopFollowOf_spec follow
    have target := structured.wf.target_live edge
    simp [Region.blocks, Region.cast, loopRegion, follow, named head, named latch, named target]

end StructuredLoops

/-- All that is noted at a node refers to live nodes. -/
theorem references_live (structured : StructuredLoops g regions h entry loops)
    (decided : Decided regions h entry given) :
    ∀ n ∈ h.nodes, ∀ id ∈ n.notes.references, id ∈ h.nodeIds := by
  intro n member id refers
  have live := mem_nodeIds.mpr ⟨n, member, rfl⟩
  have found := structured.wf.node?_eq_some_iff.mpr ⟨member, rfl⟩
  have present : h.notes? n.id = some n.notes := by rw [notes?, found, Option.map_some]
  obtain ⟨heads, follows⟩ := structured.loopReferences_live present live
  simp only [Notes.references, List.mem_append, Option.mem_toList] at refers
  rcases refers with (head | loopFollow) | follow
  · exact heads id head
  · exact follows id loopFollow
  · have noted : h.notedFollow? n.id = some id := by
      rw [notedFollow?, present, Option.bind_some, follow]
    have gets := decided.notedFollow?_eq_some_iff.mp noted
    exact (gets.both_live structured.wf (entry_live structured.entered)).2

namespace Stages

/-- The regions of the passes that follow the joining of tests. -/
def later (stages : Stages) : List Region := stages.switches ++ stages.loops ++ stages.tests

theorem regions_eq (stages : Stages) : stages.regions = stages.joined ++ stages.later := by
  simp only [regions, later, List.append_assoc]

end Stages

namespace Stages.Of

variable {stages : Stages} {switched tested : List (NodeId × NodeId)}
variable (run : stages.Of g entry switched tested)
include run

/-- Every record of a joined test names a block that is taken. -/
theorem joined_taken (member : region ∈ stages.joined) : region.taken?.isSome = true := by
  obtain ⟨junction, kind⟩ := kind_contractWithin run.ranJoined region member
  cases region with
  | shortCircuit => rfl
  | loop kind' => cases kind' <;> cases kind
  | _ => cases kind

/-- The passes that follow the joining of tests record conditionals and loops. -/
theorem later_kinds (member : region ∈ stages.later) :
    region.choice?.isSome = true ∨ region.isLoop = true := by
  rcases List.mem_append.mp member with early | test
  · rcases List.mem_append.mp early with switch | loop
    · exact .inl (run.switchLists.isSome_choice? FollowSearch.switches_steady region switch)
    · obtain ⟨kind, head, latch, follow, rfl⟩ := run.loops.loops region loop
      exact .inr rfl
  · exact .inl (run.testLists.isSome_choice? FollowSearch.tests_steady region test)

theorem later_untaken (member : region ∈ stages.later) : region.taken? = none := by
  rcases run.later_kinds member with choice | loop
  · cases region with
    | shortCircuit => cases choice
    | _ => rfl
  · cases region with
    | shortCircuit => cases loop
    | _ => rfl

/-- Joining tests leaves a numbered graph, in which nothing is left to join. -/
theorem afterJoined_ended (wf : g.WellFormed) :
    stages.afterJoined.recordNumbers (stages.afterJoined.numbering entry) = stages.afterJoined ∧
      (stages.afterJoined.numbering entry).reversePostorder.findSome?
        (contraction? stages.afterJoined) = none := by
  have entered : g.resetAnnotations.entry? = some entry :=
    resetAnnotations_entry.trans run.started
  obtain ⟨joined, k, ran, ended⟩ :=
    contractWithin_ends wf.resetAnnotations entered (Nat.le_refl _)
  cases ran.symm.trans run.ranJoined
  exact ended

/-- No tests are left that could be joined. -/
theorem contraction?_final (wf : g.WellFormed) (id : NodeId) :
    contraction? stages.final id = none := by
  have tests : SameNotes Notes.isCondNode stages.final stages.afterJoined :=
    run.notes (fun _ _ _ _ => rfl) (fun _ _ => rfl) (fun _ _ _ _ _ => rfl)
  rw [contraction?_eq run.core tests]
  have wf₁ := run.prepared.wf
  by_cases live : id ∈ stages.afterJoined.nodeIds
  · have listed := (mem_reversePostorder wf₁ (entry_live run.prepared.entered)).mpr
      (run.prepared.all id live)
    exact List.findSome?_eq_none_iff.mp (run.afterJoined_ended wf).2 id listed
  · exact contraction?_eq_none wf₁ live

/-- The blocks that stay and those that joined tests have taken are those that there were. -/
theorem labels_perm (wf : g.WellFormed) :
    (stages.final.labels ++ stages.regions.filterMap Region.taken?).Perm g.labels := by
  have entered : g.resetAnnotations.entry? = some entry :=
    resetAnnotations_entry.trans run.started
  have account := contractWithin_accounted wf.resetAnnotations entered run.ranJoined
  have taken : stages.regions.filterMap Region.taken? =
      stages.joined.filterMap Region.taken? := by
    have none : stages.later.filterMap Region.taken? = [] :=
      List.filterMap_eq_nil_iff.mpr fun region member => run.later_untaken member
    rw [regions_eq, List.filterMap_append, none, List.append_nil]
  have bare : g.resetAnnotations.labels = g.labels := sameCore_resetAnnotations.labels
  rwa [taken, run.core.labels, ← bare]

/-- The blocks that the record of a joined test names were all there when it was made, and right
after it the joined test leads where the record says. -/
theorem moment (wf : g.WellFormed) {i : Nat} (made : stages.regions[i]? = some region)
    (taken : region.taken?.isSome = true) :
    ∃ before after,
      contractWithin i g.resetAnnotations = .ok (stages.regions.take i, before) ∧
      contractWithin (i + 1) g.resetAnnotations = .ok (stages.regions.take (i + 1), after) ∧
      (∀ label ∈ region.labels, label ∈ before.labels) ∧ Leading after region := by
  have entered : g.resetAnnotations.entry? = some entry :=
    resetAnnotations_entry.trans run.started
  rw [regions_eq] at made ⊢
  have inside : i < stages.joined.length := by
    by_contra beyond
    rw [List.getElem?_append_right (Nat.not_lt.mp beyond)] at made
    rw [run.later_untaken (List.mem_of_getElem? made)] at taken
    cases taken
  rw [List.getElem?_append_left inside] at made
  obtain ⟨before, after, stopped, through, wfBefore, contracts⟩ :=
    contractWithin_moment wf.resetAnnotations entered run.ranJoined made
  rw [List.take_append_of_le_length (Nat.le_of_lt inside), List.take_append_of_le_length inside]
  refine ⟨before, after, stopped, through, fun label member => ?_, contracts.leading wfBefore⟩
  exact contracts.blocks_live wfBefore label (Region.mem_blocks_of_mem_labels member)

end Stages.Of

/-- Structuring a valid graph leaves no reference to a node that is gone and accounts for those that
are. All that is noted at a node refers to live nodes, and the regions that are no joined tests name
live blocks. The blocks of the graph are those of the final one and those that joined tests have
taken, each of them once; the entry stays. What the record of a joined test names was there when it
was made, and right after it the joined test leads where the record says. No tests are left that
could be joined. -/
theorem structureIntervals_references_live (wf : g.WellFormed) (valid : g.validate = .ok ()) :
    ∃ regions h entry, g.structureIntervals = .ok (regions, h) ∧ g.entry? = some entry ∧
      (∀ n ∈ h.nodes, ∀ id ∈ n.notes.references, id ∈ h.nodeIds) ∧
      (∀ region ∈ regions, region.taken? = none → ∀ label ∈ region.labels, label ∈ h.labels) ∧
      (h.labels ++ regions.filterMap Region.taken?).Perm g.labels ∧
      (h.labels ++ regions.filterMap Region.taken?).Nodup ∧
      g.label entry ∉ regions.filterMap Region.taken? ∧
      (∀ i region, regions[i]? = some region → region.taken?.isSome = true → ∃ before after,
        contractWithin i g.resetAnnotations = .ok (regions.take i, before) ∧
        contractWithin (i + 1) g.resetAnnotations = .ok (regions.take (i + 1), after) ∧
        (∀ label ∈ region.labels, label ∈ before.labels) ∧ Leading after region) ∧
      ∀ id, contraction? h id = none := by
  obtain ⟨stages, entry, switched, tested, run⟩ := Stages.exists_of wf valid
  obtain ⟨regions, h, entry', loops, ran, entered, structured⟩ :=
    structureIntervals_reported wf valid
  cases ran.symm.trans run.ran
  obtain rfl := Option.some.inj (entered.symm.trans run.started)
  have decided := run.decided wf
  have account := run.labels_perm wf
  have once := account.nodup_iff.mpr (labels_nodup wf)
  refine ⟨stages.regions, stages.final, entry', run.ran, entered,
    references_live structured decided, fun region member untaken label named => ?_, account, once,
    fun taken => ?_, fun i region made taken => run.moment wf made taken,
    run.contraction?_final wf⟩
  · have block := Region.mem_blocks_of_mem_labels named
    rw [Stages.regions_eq] at member
    rcases List.mem_append.mp member with joined | later
    · have taken := run.joined_taken joined
      rw [untaken] at taken
      cases taken
    · have member : region ∈ stages.regions := by
        rw [Stages.regions_eq]
        exact List.mem_append_right _ later
      rcases run.later_kinds later with choice | loop
      · obtain ⟨id, f, gets, recorded⟩ := decided.mem_iff_choice.mp ⟨member, choice⟩
        obtain ⟨live, follow⟩ := gets.both_live decided.wf (entry_live decided.entered)
        exact (choice_of_choiceRegion? recorded).1.blocks_live decided.wf live follow label block
      · exact structured.blocks_live member loop label block
  · have stays : g.label entry' ∈ stages.final.labels :=
      (mem_labels run.wf).mpr ⟨entry', entry_live run.entered, structured.label⟩
    exact (List.nodup_append.mp once).2.2 _ stays _ taken rfl

/-- Three tests in a row, each leading to the next one, and a block that repeats itself. The second
contraction takes the block to which the first one makes the joined test lead. -/
def chained : FlowGraph where
  name := "chained"
  attrs := .empty
  nodes := [⟨0, "A", .ofList [("entry", "true")], .ofAttrs .empty⟩,
    ⟨1, "B", .empty, .ofAttrs .empty⟩, ⟨2, "C", .empty, .ofAttrs .empty⟩,
    ⟨3, "D", .empty, .ofAttrs .empty⟩, ⟨4, "E", .empty, .ofAttrs .empty⟩]
  edges := [⟨0, 1, .ofList [("cond", "true")]⟩, ⟨0, 3, .ofList [("cond", "false")]⟩,
    ⟨1, 2, .ofList [("cond", "true")]⟩, ⟨1, 3, .ofList [("cond", "false")]⟩,
    ⟨2, 4, .ofList [("cond", "true")]⟩, ⟨2, 3, .ofList [("cond", "false")]⟩,
    ⟨4, 4, .ofList [("cond", "true")]⟩, ⟨4, 3, .ofList [("cond", "false")]⟩]
  nextNode := 5
  nextEdge := 8

theorem chained_references_live : chained.WellFormed ∧ chained.validate = .ok () ∧
    ∃ regions h entry, chained.structureIntervals = .ok (regions, h) ∧
      chained.entry? = some entry ∧
      regions = [.shortCircuit .and "A" "B" "C" "D", .shortCircuit .and "A" "C" "E" "D",
        .loop .post "E" "E" (some "D"), .ifThen "A" "E" "D"] ∧
      (∀ n ∈ h.nodes, ∀ id ∈ n.notes.references, id ∈ h.nodeIds) ∧
      (h.labels ++ ["B", "C"]).Perm ["A", "B", "C", "D", "E"] ∧
      (∃ before after,
        contractWithin 0 chained.resetAnnotations = .ok ([], before) ∧
        contractWithin 1 chained.resetAnnotations =
          .ok ([.shortCircuit .and "A" "B" "C" "D"], after) ∧
        Leading after (.shortCircuit .and "A" "B" "C" "D")) ∧
      ∀ id, contraction? h id = none := by
  have wf : chained.WellFormed := by decide
  have valid : chained.validate = .ok () := by rfl
  obtain ⟨regions, h, entry, ran, entered, references, -, account, -, -, moment, settled⟩ :=
    structureIntervals_references_live wf valid
  obtain ⟨h', ran'⟩ : ∃ h, chained.structureIntervals =
      .ok ([.shortCircuit .and "A" "B" "C" "D", .shortCircuit .and "A" "C" "E" "D",
        .loop .post "E" "E" (some "D"), .ifThen "A" "E" "D"], h) := ⟨_, rfl⟩
  cases ran'.symm.trans ran
  obtain ⟨before, after, stopped, through, -, leading⟩ := moment 0 _ rfl rfl
  exact ⟨wf, valid, _, _, entry, ran, entered, rfl, references, account,
    ⟨before, after, stopped, through, leading⟩, settled⟩

end FlowGraph

end ControlFlow
