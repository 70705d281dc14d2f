import ControlFlow.Proofs.Interval.StructuredLoops

/-! Loops as they are returned and as they are noted. Every loop that is returned has its latch
marked, and no other block is marked. A member is noted with the head of the first loop that was
found around it. The head of a loop, though, has room for one kind and one follow, and each loop
writes its own there, over those of a loop with the same head that was found before, while both loops
stay among the regions. So what is noted at a head is what the last loop returned for it says. -/
namespace ControlFlow

namespace Region

/-- The kind and the follow of a loop with a given head. -/
def loopFrom? (head : String) : Region → Option (LoopKind × Option String)
  | loop kind first _ follow => if first = head then some (kind, follow) else none
  | _ => none

/-- The kind and the follow of the last loop with a given head. -/
def lastLoop? (regions : List Region) (head : String) : Option (LoopKind × Option String) :=
  (regions.filterMap (loopFrom? head)).getLast?

variable {regions : List Region} {region : Region} {head : String} {kind : LoopKind}
variable {follow : Option String}

theorem loopFrom?_eq_some_iff :
    region.loopFrom? head = some (kind, follow) ↔ ∃ latch, region = .loop kind head latch follow := by
  cases region with
  | loop kind' first latch follow' =>
    by_cases same : first = head
    · simp [loopFrom?, same]
    · simp [loopFrom?, same]
  | _ => simp [loopFrom?]

theorem loopFrom?_eq_none (other : region.isLoop = false) : region.loopFrom? head = none := by
  cases region with
  | loop => cases other
  | _ => rfl

theorem exists_of_lastLoop? (last : lastLoop? regions head = some (kind, follow)) :
    ∃ latch, .loop kind head latch follow ∈ regions := by
  obtain ⟨region, member, found⟩ := List.mem_filterMap.mp (List.mem_of_getLast? last)
  obtain ⟨latch, rfl⟩ := loopFrom?_eq_some_iff.mp found
  exact ⟨latch, member⟩

/-- A head of a loop has a last one. -/
theorem exists_lastLoop? {latch : String} (member : .loop kind head latch follow ∈ regions) :
    ∃ kind follow, lastLoop? regions head = some (kind, follow) := by
  have found : (kind, follow) ∈ regions.filterMap (loopFrom? head) :=
    List.mem_filterMap.mpr ⟨_, member, loopFrom?_eq_some_iff.mpr ⟨latch, rfl⟩⟩
  have last := List.getLast?_eq_some_getLast (List.ne_nil_of_mem found)
  exact ⟨_, _, last⟩

theorem isSome_lastLoop?_iff : (lastLoop? regions head).isSome = true ↔
    ∃ kind latch follow, .loop kind head latch follow ∈ regions := by
  rw [Option.isSome_iff_exists]
  constructor
  · rintro ⟨⟨kind, follow⟩, last⟩
    obtain ⟨latch, member⟩ := exists_of_lastLoop? last
    exact ⟨kind, latch, follow, member⟩
  · rintro ⟨kind, latch, follow, member⟩
    obtain ⟨kind', follow', last⟩ := exists_lastLoop? member
    exact ⟨(kind', follow'), last⟩

end Region

namespace FlowGraph

variable {g h : FlowGraph} {entry head id : NodeId} {regions : List Region}
variable {loops : List (NodeId × NodeId)}

/-- The head that is noted at a node, of a loop around it. -/
def notedHead? (g : FlowGraph) (id : NodeId) : Option NodeId := (g.notes? id).bind Notes.loopHead

/-- The kind and the follow that are noted at a node, of a loop that it heads. -/
def notedLoop? (g : FlowGraph) (id : NodeId) : Option (LoopKind × Option String) :=
  (g.notes? id).bind fun notes =>
    notes.loopKind.map fun kind => (kind, notes.loopFollow.map g.label)

/-- Whether it is noted at a node that it closes a loop. -/
def notedLatch (g : FlowGraph) (id : NodeId) : Bool := (g.notes? id).any Notes.isLatch

namespace StructuredLoops

variable (structured : StructuredLoops g regions h entry loops)
include structured

/-- What is noted at a node is what the loops leave there. -/
theorem exists_notes (live : id ∈ h.nodeIds) : ∃ notes, h.notes? id = some notes ∧
    notes.loops = h.loopNotesOf (h.dominatorsFrom entry) (h.numbering entry) loops id :=
  Option.map_eq_some_iff.mp (structured.notes id live)

/-! ### Heads of loops around a node -/

theorem notedHead?_eq (live : id ∈ h.nodeIds) : h.notedHead? id =
    (loops.find? fun loop => (h.loopMembers (h.dominatorsFrom entry) (h.numbering entry) loop.1
      loop.2).contains id).map Prod.fst := by
  obtain ⟨notes, present, noted⟩ := structured.exists_notes live
  rw [notedHead?, present, Option.bind_some]
  exact congrArg LoopNotes.head noted

theorem contains_loopMembers_iff {loop : NodeId × NodeId} (found : loop ∈ loops) :
    (h.loopMembers (h.dominatorsFrom entry) (h.numbering entry) loop.1 loop.2).contains id = true ↔
      h.LoopMember entry loop.1 loop.2 id := by
  rw [List.contains_iff_mem, mem_loopMembers structured.wf (entry_live structured.entered)
    (structured.reported.closes loop found)]

/-- A head is noted at the members of loops. -/
theorem isSome_notedHead?_iff (live : id ∈ h.nodeIds) :
    (h.notedHead? id).isSome = true ↔ ∃ loop ∈ loops, h.LoopMember entry loop.1 loop.2 id := by
  rw [structured.notedHead?_eq live, Option.isSome_map, List.find?_isSome]
  refine exists_congr fun loop => and_congr_right fun found => ?_
  exact structured.contains_loopMembers_iff found

/-- The head noted at a node is that of the first loop that was found with the node as a member. -/
theorem notedHead?_eq_some_iff (live : id ∈ h.nodeIds) : h.notedHead? id = some head ↔
    ∃ before latch after, loops = before ++ (head, latch) :: after ∧
      h.LoopMember entry head latch id ∧
        ∀ other ∈ before, ¬h.LoopMember entry other.1 other.2 id := by
  simp only [structured.notedHead?_eq live, Option.map_eq_some_iff, List.find?_eq_some_iff_append,
    Bool.not_eq_true', ← Bool.not_eq_true]
  constructor
  · rintro ⟨⟨first, latch⟩, ⟨inside, before, after, parts, outside⟩, rfl⟩
    have found : (first, latch) ∈ loops := by simp [parts]
    refine ⟨before, latch, after, parts, (structured.contains_loopMembers_iff found).mp inside, ?_⟩
    intro other earlier
    have found : other ∈ loops := by simp [parts, earlier]
    exact (structured.contains_loopMembers_iff found).not.mp (outside other earlier)
  · rintro ⟨before, latch, after, parts, inside, outside⟩
    have found : (head, latch) ∈ loops := by simp [parts]
    refine ⟨(head, latch), ⟨(structured.contains_loopMembers_iff found).mpr inside, before, after,
      parts, ?_⟩, rfl⟩
    intro other earlier
    have found : other ∈ loops := by simp [parts, earlier]
    exact (structured.contains_loopMembers_iff found).not.mpr (outside other earlier)

/-- The head noted at a latch is that of its own loop, since no loop found before has the latch as a
member. -/
theorem notedHead?_latch {loop : NodeId × NodeId} (found : loop ∈ loops) :
    h.notedHead? loop.2 = some loop.1 := by
  obtain ⟨before, after, parts⟩ := List.append_of_mem found
  have apart := structured.reported.apart
  rw [parts] at apart
  have own := (structured.reported.closes loop found).latch_member structured.wf
    (entry_live structured.entered)
  apply (structured.notedHead?_eq_some_iff (structured.closes_live found).2).mpr
  refine ⟨before, loop.2, after, parts, own, ?_⟩
  intro other earlier
  exact (List.pairwise_append.mp apart).2.2 other earlier loop List.mem_cons_self

/-! ### Kinds, follows and latches -/

/-- The last loop that is returned for a head is the last one that was found for it. -/
theorem lastLoop?_eq (live : id ∈ h.nodeIds) : Region.lastLoop? regions (h.label id) =
    (lastOf loops id).map fun loop =>
      ((h.loopFinding (h.dominatorsFrom entry) (h.numbering entry) loop).1,
        (h.loopFinding (h.dominatorsFrom entry) (h.numbering entry) loop).2.map h.label) := by
  rw [Region.lastLoop?, filterMap_isLoop (fun _ => Region.loopFrom?_eq_none), structured.regions,
    List.filterMap_map, lastOf, ← List.getLast?_map, ← List.filterMap_eq_map, List.filterMap_filter]
  congr 1
  refine List.filterMap_congr fun loop found => ?_
  have headed : h.label loop.1 = h.label id ↔ loop.1 = id :=
    ⟨structured.wf.label_inj (structured.closes_live found).1 live, congrArg h.label⟩
  by_cases same : loop.1 = id <;> simp [Region.loopFrom?, loopRegion, headed, same]

/-- What is noted at a head is what the last loop returned for it says. -/
theorem notedLoop?_eq (live : id ∈ h.nodeIds) :
    h.notedLoop? id = Region.lastLoop? regions (h.label id) := by
  obtain ⟨notes, present, noted⟩ := structured.exists_notes live
  have kind := congrArg LoopNotes.kind noted
  have follow := congrArg LoopNotes.follow noted
  simp only [Notes.loops, loopNotesOf] at kind follow
  rw [notedLoop?, present, Option.bind_some, kind, follow, structured.lastLoop?_eq live]
  cases lastOf loops id with
  | none => rfl
  | some loop => rfl

theorem notedLatch_iff (live : id ∈ h.nodeIds) :
    h.notedLatch id = true ↔ ∃ loop ∈ loops, loop.2 = id := by
  obtain ⟨notes, present, noted⟩ := structured.exists_notes live
  have latch := congrArg LoopNotes.latch noted
  simp only [Notes.loops, loopNotesOf] at latch
  simp [notedLatch, present, latch]

end StructuredLoops

/-- Of every loop that structuring a valid graph returns the latch is marked, and its head is noted
with the kind and the follow of the last loop returned for that head, which are its own if all loops
of the head agree. Whatever is noted at a block, and every mark of a latch, is that of a loop which is
returned. -/
theorem structureIntervals_notes_last_loops (wf : g.WellFormed) (valid : g.validate = .ok ()) :
    ∃ regions h, g.structureIntervals = .ok (regions, h) ∧
      (∀ kind head latch follow, .loop kind head latch follow ∈ regions →
        ∃ a b, h.find? head = some a ∧ h.find? latch = some b ∧ h.notedLatch b = true ∧
          h.notedLoop? a = Region.lastLoop? regions head ∧
          ((∀ kind' latch' follow', .loop kind' head latch' follow' ∈ regions →
            kind' = kind ∧ follow' = follow) → h.notedLoop? a = some (kind, follow))) ∧
      ∀ id ∈ h.nodeIds,
        (∀ kind follow, h.notedLoop? id = some (kind, follow) →
          ∃ latch, .loop kind (h.label id) latch follow ∈ regions) ∧
        (h.notedLatch id = true →
          ∃ kind head follow, .loop kind head (h.label id) follow ∈ regions) := by
  obtain ⟨regions, h, entry, loops, ran, -, structured⟩ := structureIntervals_reported wf valid
  refine ⟨regions, h, ran, ?_, fun id live => ⟨?_, ?_⟩⟩
  · intro kind head latch follow member
    obtain ⟨⟨a, b⟩, found, headFound, latchFound, -⟩ := structured.exists_loop member
    obtain ⟨headLive, latchLive⟩ := structured.closes_live found
    have noted : h.notedLoop? a = Region.lastLoop? regions head := by
      rw [structured.notedLoop?_eq headLive, structured.wf.label_of_find? headFound]
    refine ⟨a, b, headFound, latchFound, ?_, noted, fun agree => ?_⟩
    · exact (structured.notedLatch_iff latchLive).mpr ⟨_, found, rfl⟩
    · obtain ⟨kind', follow', last⟩ := Region.exists_lastLoop? member
      obtain ⟨latch', member'⟩ := Region.exists_of_lastLoop? last
      obtain ⟨rfl, rfl⟩ := agree kind' latch' follow' member'
      exact noted.trans last
  · intro kind follow noted
    rw [structured.notedLoop?_eq live] at noted
    exact Region.exists_of_lastLoop? noted
  · intro marked
    obtain ⟨loop, found, rfl⟩ := (structured.notedLatch_iff live).mp marked
    exact ⟨_, _, _, structured.region_mem found⟩

/-- Two loops with one head. Control goes back to the head from a test, and a second time from
behind a loop of one block. -/
def continuing : FlowGraph where
  name := "continuing"
  attrs := .empty
  nodes := [⟨0, "A", .ofList [("entry", "true")], .ofAttrs .empty⟩,
    ⟨1, "B", .empty, .ofAttrs .empty⟩, ⟨2, "C", .empty, .ofAttrs .empty⟩,
    ⟨3, "D", .empty, .ofAttrs .empty⟩]
  edges := [⟨0, 1, .empty⟩, ⟨1, 0, .ofList [("cond", "true")]⟩,
    ⟨1, 2, .ofList [("cond", "false")]⟩, ⟨2, 2, .ofList [("cond", "true")]⟩,
    ⟨2, 3, .ofList [("cond", "false")]⟩, ⟨3, 0, .empty⟩]
  nextNode := 4
  nextEdge := 6

/-- The loop of one block is the only one of its head. -/
theorem continuing_inner_noted : continuing.WellFormed ∧ continuing.validate = .ok () ∧
    ∃ regions h, continuing.structureIntervals = .ok (regions, h) ∧
      .loop .post "C" "C" (some "D") ∈ regions ∧ ∃ a, h.find? "C" = some a ∧
        h.notedLatch a = true ∧ h.notedLoop? a = some (.post, some "D") := by
  have wf : continuing.WellFormed := by decide
  have valid : continuing.validate = .ok () := by rfl
  obtain ⟨regions, h, ran, noted, -⟩ := structureIntervals_notes_last_loops wf valid
  obtain ⟨regions', h', ran', inner, last⟩ : ∃ regions h,
      continuing.structureIntervals = .ok (regions, h) ∧
        .loop .post "C" "C" (some "D") ∈ regions ∧
        Region.lastLoop? regions "C" = some (.post, some "D") := ⟨_, _, rfl, by decide, by decide⟩
  cases ran'.symm.trans ran
  obtain ⟨a, b, headFound, latchFound, marked, atHead, -⟩ := noted _ _ _ _ inner
  cases headFound.symm.trans latchFound
  exact ⟨wf, valid, _, _, ran, inner, a, headFound, marked, atHead.trans last⟩

/-- Of the two loops with one head the first one is returned as it was found, but no longer noted. -/
theorem continuing_outer_overwritten : continuing.WellFormed ∧ continuing.validate = .ok () ∧
    ∃ regions h, continuing.structureIntervals = .ok (regions, h) ∧
      .loop .post "A" "B" (some "C") ∈ regions ∧ h.find? "A" = some 0 ∧
      h.notedLoop? 0 = some (.endless, none) := by
  refine ⟨by decide, by rfl, _, _, rfl, ?_, ?_, ?_⟩
  · decide
  · decide
  · decide

end FlowGraph

end ControlFlow
