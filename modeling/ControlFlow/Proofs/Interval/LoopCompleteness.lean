import ControlFlow.Proofs.Interval.StructuredLoops

/-! Which loops of a reducible graph are reported. An edge back to a dominator is the closing edge of
exactly one record, provided that it is the only one of its head and that its latch is in no
reported loop inside its own: a latch that closes an inner loop as well is marked by then, and the
outer loop is passed over. Nothing is said of a graph that is the end of its own derived sequence,
where only edges from a node to itself are found. -/
namespace ControlFlow

/-- Whether a region is the loop of a head and a latch. -/
def Region.isLoopOf (head latch : String) : Region → Bool
  | loop _ first last _ => first == head && last == latch
  | _ => false

namespace FlowGraph

variable {g h : FlowGraph} {entry a b : NodeId} {regions : List Region}
variable {loops : List (NodeId × NodeId)}

/-- A latch is a member of a reported loop the head of which its own head dominates strictly. -/
def TakenInside (regions : List Region) (h : FlowGraph) (entry head latch : NodeId) : Prop :=
  ∃ kind first last follow, .loop kind first last follow ∈ regions ∧
    ∃ a b, h.find? first = some a ∧ h.find? last = some b ∧ h.StrictlyDominates entry head a ∧
      h.LoopMember entry a b latch

namespace StructuredLoops

variable (structured : StructuredLoops g regions h entry loops)
include structured

theorem takenInside_iff {head latch : NodeId} : TakenInside regions h entry head latch ↔
    ∃ loop ∈ loops, h.StrictlyDominates entry head loop.1 ∧
      h.LoopMember entry loop.1 loop.2 latch := by
  constructor
  · rintro ⟨kind, first, last, follow, recorded, a, b, firstFound, lastFound, strict, member⟩
    obtain ⟨loop, found, firstFound', lastFound', -⟩ := structured.exists_loop recorded
    obtain rfl := Option.some.inj (firstFound.symm.trans firstFound')
    obtain rfl := Option.some.inj (lastFound.symm.trans lastFound')
    exact ⟨loop, found, strict, member⟩
  · rintro ⟨loop, found, strict, member⟩
    obtain ⟨headLive, latchLive⟩ := structured.closes_live found
    exact ⟨_, _, _, _, structured.region_mem found, loop.1, loop.2,
      structured.wf.find?_label headLive, structured.wf.find?_label latchLive, strict, member⟩

/-- A loop has as many records as it was found times. -/
theorem countP_isLoopOf (headLive : a ∈ h.nodeIds) (latchLive : b ∈ h.nodeIds) :
    regions.countP (Region.isLoopOf (h.label a) (h.label b)) = loops.count (a, b) := by
  have only : regions.countP (Region.isLoopOf (h.label a) (h.label b)) =
      (regions.filter Region.isLoop).countP (Region.isLoopOf (h.label a) (h.label b)) := by
    rw [List.countP_filter]
    refine List.countP_congr fun region _ => ?_
    cases region <;> simp [Region.isLoopOf, Region.isLoop, Region.latch?]
  rw [only, structured.regions, List.countP_map, List.count]
  refine List.countP_congr fun loop found => ?_
  obtain ⟨headLive', latchLive'⟩ := structured.closes_live found
  have heads : h.label loop.1 = h.label a ↔ loop.1 = a :=
    ⟨structured.wf.label_inj headLive' headLive, fun same => by rw [same]⟩
  have latches : h.label loop.2 = h.label b ↔ loop.2 = b :=
    ⟨structured.wf.label_inj latchLive' latchLive, fun same => by rw [same]⟩
  simp [Region.isLoopOf, loopRegion, heads, latches, Prod.ext_iff]

end StructuredLoops

/-- In a reducible graph an edge back to a dominator closes exactly one reported loop if it is the
only one of its head and its latch is in no reported loop inside, and none if its latch is in one.
Edges from a node to itself apart, this is said of graphs only that get smaller when their intervals
are made nodes or are single nodes. -/
theorem structureIntervals_reports_loops (wf : g.WellFormed) (valid : g.validate = .ok ()) :
    ∃ regions h entry, g.structureIntervals = .ok (regions, h) ∧ g.entry? = some entry ∧
      h.entry? = some entry ∧ (g.Reducible entry →
        ∀ a b, h.ClosesLoop entry a b → (∀ m, h.ClosesLoop entry a m → m = b) →
          (a = b ∨ h.size = 1 ∨ h.Contracts entry) →
            (¬TakenInside regions h entry a b →
              regions.countP (Region.isLoopOf (h.label a) (h.label b)) = 1) ∧
            (TakenInside regions h entry a b →
              regions.countP (Region.isLoopOf (h.label a) (h.label b)) = 0)) := by
  obtain ⟨regions, h, entry, loops, ran, entered, structured⟩ :=
    structureIntervals_reported wf valid
  refine ⟨regions, h, entry, ran, entered, structured.entered, ?_⟩
  intro reducible a b closes single shrinks
  have reported := structured.reported.mem_iff (structured.reducible reducible) a b closes single
    shrinks
  have nodup : loops.Nodup := structured.reported.latches.of_map
  rw [structured.takenInside_iff, structured.countP_isLoopOf
    (structured.wf.target_live closes.edge) (structured.wf.source_live closes.edge)]
  constructor
  · intro free
    exact List.count_eq_one_of_mem nodup (reported.mpr free)
  · intro taken
    exact List.count_eq_zero_of_not_mem fun found => reported.mp found taken

/-- Three loops, one inside the other. The two inner ones have the same latch. -/
def sharing : FlowGraph where
  name := "sharing"
  attrs := .empty
  nodes := [⟨0, "A", .ofList [("entry", "true")], .ofAttrs .empty⟩,
    ⟨1, "B", .empty, .ofAttrs .empty⟩, ⟨2, "C", .empty, .ofAttrs .empty⟩,
    ⟨3, "D", .empty, .ofAttrs .empty⟩, ⟨4, "E", .empty, .ofAttrs .empty⟩,
    ⟨5, "F", .empty, .ofAttrs .empty⟩]
  edges := [⟨0, 1, .empty⟩, ⟨1, 2, .ofList [("cond", "true")]⟩,
    ⟨1, 4, .ofList [("cond", "false")]⟩, ⟨2, 3, .empty⟩, ⟨3, 2, .ofList [("cond", "true")]⟩,
    ⟨3, 1, .ofList [("cond", "false")]⟩, ⟨4, 0, .ofList [("cond", "true")]⟩,
    ⟨4, 5, .ofList [("cond", "false")]⟩]
  nextNode := 6
  nextEdge := 8

/-- What is reported of `sharing`: the loop in the middle is passed over. -/
def sharingRegions : List Region :=
  [.loop .post "C" "D" (some "B"), .loop .post "A" "E" (some "F"), .ifThen "B" "E" "C"]

theorem sharing_structured : ∃ h, sharing.structureIntervals = .ok (sharingRegions, h) ∧
    h.SameCore sharing :=
  ⟨_, rfl, by rfl⟩

theorem sharing_reports_loops : sharing.WellFormed ∧ sharing.validate = .ok () ∧
    sharing.Reducible 0 ∧ ∃ regions h, sharing.structureIntervals = .ok (regions, h) ∧
      h.ClosesLoop 0 0 4 ∧ regions.countP (Region.isLoopOf (h.label 0) (h.label 4)) = 1 ∧
      h.ClosesLoop 0 1 3 ∧ regions.countP (Region.isLoopOf (h.label 1) (h.label 3)) = 0 := by
  have wf : sharing.WellFormed := by decide
  have live : 0 ∈ sharing.nodeIds := by decide
  have valid : sharing.validate = .ok () := by rfl
  have reducible : sharing.Reducible 0 := (reducible_iff_edges wf live).mpr (by decide)
  obtain ⟨regions, h, entry, ran, entered, -, reports⟩ := structureIntervals_reports_loops wf valid
  obtain rfl : entry = 0 := (Option.some.inj entered).symm
  obtain ⟨h', ran', same⟩ := sharing_structured
  cases ran'.symm.trans ran
  have closes {a b : NodeId} : h.ClosesLoop 0 a b ↔
      a ∈ sharing.succs b ∧ (sharing.dominatorsFrom 0).dominates a b = true :=
    same.closesLoop_iff wf live
  have single {a b : NodeId} (only : ∀ m ∈ sharing.preds a,
      (sharing.dominatorsFrom 0).dominates a m = true → m = b) (m : NodeId)
      (back : h.ClosesLoop 0 a m) : m = b :=
    only m (mem_preds_iff_mem_succs.mpr (closes.mp back).1) (closes.mp back).2
  have shrinks : h.Contracts 0 := same.contracts ▸ ⟨3, by decide, by decide, by decide⟩
  have outer : h.ClosesLoop 0 0 4 := closes.mpr (by decide)
  have middle : h.ClosesLoop 0 1 3 := closes.mpr (by decide)
  have inner : sharing.ClosesLoop 0 2 3 := (closesLoop_iff wf live).mpr (by decide)
  have free : ¬TakenInside sharingRegions h 0 0 4 := by
    rintro ⟨kind, first, last, follow, recorded, a, b, firstFound, lastFound, strict, member⟩
    rw [same.find?_eq] at firstFound lastFound
    have listed : first = "C" ∧ last = "D" ∨ first = "A" ∧ last = "E" := by
      simp only [sharingRegions, List.mem_cons, Region.loop.injEq] at recorded
      grind
    rcases listed with ⟨rfl, rfl⟩ | ⟨rfl, rfl⟩
    · obtain rfl : a = 2 := (Option.some.inj firstFound).symm
      obtain rfl : b = 3 := (Option.some.inj lastFound).symm
      have marked : 4 ∈ sharing.loopMembers (sharing.dominatorsFrom 0) (sharing.numbering 0) 2 3 :=
        (mem_loopMembers wf live inner).mpr (same.loopMember ▸ member)
      revert marked
      decide
    · exact strict.1 (Option.some.inj firstFound)
  have taken : TakenInside sharingRegions h 0 1 3 := by
    refine ⟨.post, "C", "D", some "B", .head _, 2, 3, ?_, ?_, ⟨by decide, ?_⟩, ?_⟩
    · rw [same.find?_eq]
      decide
    · rw [same.find?_eq]
      decide
    · rw [same.dominates]
      exact ((exact_dominatorsFrom wf live).dominates_iff 1 2).mp (by decide)
    · rw [same.loopMember]
      exact inner.latch_member wf live
  exact ⟨wf, valid, reducible, _, h, ran, outer,
    (reports reducible 0 4 outer (single (by decide)) (.inr (.inr shrinks))).1 free, middle,
    (reports reducible 1 3 middle (single (by decide)) (.inr (.inr shrinks))).2 taken⟩

/-- Every head of `sharing` has a single closing edge, and that of the loop in the middle has no
record. -/
theorem sharing_middle_unreported : sharing.WellFormed ∧ sharing.validate = .ok () ∧
    sharing.Reducible 0 ∧ ∃ regions h, sharing.structureIntervals = .ok (regions, h) ∧
      h.entry? = some 0 ∧ (∀ a m n, h.ClosesLoop 0 a m → h.ClosesLoop 0 a n → m = n) ∧
      h.ClosesLoop 0 1 3 ∧ h.label 1 = "B" ∧ h.label 3 = "D" ∧
      regions.countP (Region.isLoopOf "B" "D") = 0 := by
  have wf : sharing.WellFormed := by decide
  have live : 0 ∈ sharing.nodeIds := by decide
  obtain ⟨h, ran, same⟩ := sharing_structured
  have closes {a b : NodeId} : h.ClosesLoop 0 a b ↔
      a ∈ sharing.succs b ∧ (sharing.dominatorsFrom 0).dominates a b = true :=
    same.closesLoop_iff wf live
  have single : ∀ a ∈ sharing.nodeIds, ∀ m ∈ sharing.preds a, ∀ n ∈ sharing.preds a,
      (sharing.dominatorsFrom 0).dominates a m = true →
        (sharing.dominatorsFrom 0).dominates a n = true → m = n := by decide
  refine ⟨wf, by rfl, (reducible_iff_edges wf live).mpr (by decide), _, h, ran, ?_, ?_,
    closes.mpr (by decide), ?_, ?_, by decide⟩
  · exact same.entry_eq
  · intro a m n first second
    have edge := (closes.mp first).1
    exact single a (wf.target_live edge) m (mem_preds_iff_mem_succs.mpr edge) n
      (mem_preds_iff_mem_succs.mpr (closes.mp second).1) (closes.mp first).2 (closes.mp second).2
  · exact congrFun same.label 1
  · exact congrFun same.label 3

end FlowGraph

end ControlFlow
