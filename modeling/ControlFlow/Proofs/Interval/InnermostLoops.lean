import ControlFlow.Proofs.Interval.LoopFindings

/-! The innermost loop of a block. A block is noted with the head of the first loop that has it as a
member, and loops are found from the inside out: the head of a later loop is not inside an earlier
one. Of two loops around one block the heads dominate each other in one order, and if the earlier
head stood above the later one, the later one would be inside the earlier loop. So the heads of all
other loops around the block dominate the head that is noted. -/
namespace ControlFlow.FlowGraph

variable {g h : FlowGraph} {entry head id : NodeId} {regions : List Region}
variable {loops : List (NodeId × NodeId)}

/-- A node is a member of a returned loop with a given head. -/
def Surrounds (regions : List Region) (h : FlowGraph) (entry head id : NodeId) : Prop :=
  ∃ kind first last follow latch, .loop kind first last follow ∈ regions ∧
    h.find? first = some head ∧ h.find? last = some latch ∧ h.LoopMember entry head latch id

namespace StructuredLoops

variable (structured : StructuredLoops g regions h entry loops)
include structured

theorem surrounds_iff : Surrounds regions h entry head id ↔
    ∃ latch, (head, latch) ∈ loops ∧ h.LoopMember entry head latch id := by
  constructor
  · rintro ⟨kind, first, last, follow, latch, returned, headFound, latchFound, member⟩
    obtain ⟨loop, found, headFound', latchFound', -⟩ := structured.exists_loop returned
    obtain rfl := Option.some.inj (headFound.symm.trans headFound')
    obtain rfl := Option.some.inj (latchFound.symm.trans latchFound')
    exact ⟨loop.2, found, member⟩
  · rintro ⟨latch, found, member⟩
    obtain ⟨headLive, latchLive⟩ := structured.closes_live found
    exact ⟨_, _, _, _, latch, structured.region_mem found, structured.wf.find?_label headLive,
      structured.wf.find?_label latchLive, member⟩

/-- The head of any loop around a node dominates the head of the first one that was found. -/
theorem dominates_first {before after : List (NodeId × NodeId)} {latch other last : NodeId}
    (parts : loops = before ++ (head, latch) :: after) (member : h.LoopMember entry head latch id)
    (outside : ∀ earlier ∈ before, ¬h.LoopMember entry earlier.1 earlier.2 id)
    (found : (other, last) ∈ loops) (around : h.LoopMember entry other last id) :
    h.Dominates entry other head := by
  have ranking := ranking structured.wf (entry_live structured.entered)
  have insideOut := structured.reported.insideOut
  have closes := structured.reported.closes _ found
  rw [parts] at insideOut found
  by_cases same : other = head
  · exact same ▸ .refl (closes.dominates.1.step closes.edge)
  · -- A loop found before has not got the node as a member, and one found afterwards has its head
    -- outside this loop, unless it has the same head.
    have later : (other, last) ∈ after := by
      rcases List.mem_append.mp found with early | late
      · exact absurd around (outside _ early)
      · rcases List.mem_cons.mp late with this | later
        · exact absurd (congrArg Prod.fst this) same
        · exact later
    have ordered := (List.pairwise_cons.mp (List.pairwise_append.mp insideOut).2.1).1 _ later
    have notInside : ¬h.InLoop head latch other := ordered.resolve_left same
    rcases ranking.dominates_or_dominates around.dominated member.dominated with above | below
    · exact above
    · have strict : h.StrictlyDominates entry head other := ⟨Ne.symm same, below⟩
      exact absurd (member.inside.of_dominates ranking strict around.dominated) notInside

end StructuredLoops

/-- After structuring a valid graph the head of a loop is noted at exactly those blocks that are
members of a returned loop. It heads such a loop and dominates the block, and the head of every other
returned loop of which the block is a member dominates it. -/
theorem structureIntervals_notedHead_innermost (wf : g.WellFormed) (valid : g.validate = .ok ()) :
    ∃ regions h entry, g.structureIntervals = .ok (regions, h) ∧ h.entry? = some entry ∧
      ∀ id ∈ h.nodeIds,
        ((h.notedHead? id).isSome = true ↔ ∃ head, Surrounds regions h entry head id) ∧
        ∀ head, h.notedHead? id = some head → h.Dominates entry head id ∧
          Surrounds regions h entry head id ∧
            ∀ other, Surrounds regions h entry other id → h.Dominates entry other head := by
  obtain ⟨regions, h, entry, loops, ran, -, structured⟩ := structureIntervals_reported wf valid
  refine ⟨regions, h, entry, ran, structured.entered, fun id live => ?_⟩
  constructor
  · rw [structured.isSome_notedHead?_iff live]
    constructor
    · rintro ⟨⟨head, latch⟩, found, member⟩
      exact ⟨head, structured.surrounds_iff.mpr ⟨latch, found, member⟩⟩
    · rintro ⟨head, surrounds⟩
      obtain ⟨latch, found, member⟩ := structured.surrounds_iff.mp surrounds
      exact ⟨(head, latch), found, member⟩
  · intro head noted
    obtain ⟨before, latch, after, parts, member, outside⟩ :=
      (structured.notedHead?_eq_some_iff live).mp noted
    refine ⟨member.dominated, ?_, fun other surrounds => ?_⟩
    · exact structured.surrounds_iff.mpr ⟨latch, by simp [parts], member⟩
    · obtain ⟨last, found, around⟩ := structured.surrounds_iff.mp surrounds
      exact structured.dominates_first parts member outside found around

/-- The loop of one block lies inside a larger one, and its block is noted with its own head. -/
theorem entangled_notedHead_innermost : entangled.WellFormed ∧ entangled.validate = .ok () ∧
    ∃ regions h, entangled.structureIntervals = .ok (regions, h) ∧ h.notedHead? 2 = some 2 ∧
      Surrounds regions h 0 1 2 ∧ Surrounds regions h 0 2 2 ∧ h.Dominates 0 1 2 := by
  have wf : entangled.WellFormed := by decide
  have valid : entangled.validate = .ok () := by rfl
  obtain ⟨regions, h, entry, ran, entered, innermost⟩ :=
    structureIntervals_notedHead_innermost wf valid
  obtain ⟨regions', h', ran', wfEnd, first, live, noted, outer, head, latch, edge, dominates,
    member⟩ : ∃ regions h, entangled.structureIntervals = .ok (regions, h) ∧ h.WellFormed ∧
      h.entry? = some 0 ∧ 2 ∈ h.nodeIds ∧ h.notedHead? 2 = some 2 ∧
      .loop .post "B" "D" (some "E") ∈ regions ∧ h.find? "B" = some 1 ∧ h.find? "D" = some 3 ∧
      1 ∈ h.succs 3 ∧ (h.dominatorsFrom 0).dominates 1 3 = true ∧
      2 ∈ h.loopMembers (h.dominatorsFrom 0) (h.numbering 0) 1 3 := by
    refine ⟨_, _, rfl, ?_⟩
    decide
  cases ran'.symm.trans ran
  obtain rfl := Option.some.inj (first.symm.trans entered)
  have start := entry_live first
  have closes := (closesLoop_iff wfEnd start).mpr ⟨edge, dominates⟩
  have inside := (mem_loopMembers wfEnd start closes).mp member
  have around : Surrounds regions h 0 1 2 :=
    ⟨_, _, _, _, 3, outer, head, latch, inside⟩
  obtain ⟨-, own, nearest⟩ := (innermost 2 live).2 2 noted
  exact ⟨wf, valid, regions, h, ran, noted, around, own, nearest 1 around⟩

end ControlFlow.FlowGraph
