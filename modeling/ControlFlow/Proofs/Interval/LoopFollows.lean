import ControlFlow.Proofs.Interval.LoopKinds

/-! Where control goes on after a loop. The follow of a loop is entered from a block of the loop and
is no member of it. Members, though, are only those blocks of the loop that stand no later than the
latch in reverse postorder, and the follow can be a block of the loop that stands behind the latch.
It is one exactly when control goes on from it, behind the latch, to an edge that leads back over the
latch. In a reducible graph such an edge closes a loop nested in the first one, and the follow of a
loop that is tested at its head is never inside. -/
namespace ControlFlow.FlowGraph

variable {g h : FlowGraph} {start entry head latch a b c d n f : NodeId} {members : List NodeId}
variable {kind : LoopKind} {numbering : Numbering} {passed : List NodeId}

/-! ## Ways out -/

theorem wayOut?_spec (found : g.wayOut? members a = some f) : g.Step a f ∧ f ∉ members := by
  have outside := List.find?_some found
  exact ⟨List.mem_of_find?_eq_some found, by simpa using outside⟩

/-- The follow of a loop is a way out of its members, from the test of the loop if it has one. -/
theorem loopFollowOf_spec (found : g.loopFollowOf numbering members kind head latch = some f) :
    f ∉ members ∧ ∃ s, g.Step s f ∧
      (kind.test? head latch = some s ∨ kind = .endless ∧ s ∈ members) := by
  cases kind with
  | pre =>
    obtain ⟨edge, outside⟩ := wayOut?_spec found
    exact ⟨outside, head, edge, .inl rfl⟩
  | post =>
    obtain ⟨edge, outside⟩ := wayOut?_spec found
    exact ⟨outside, latch, edge, .inl rfl⟩
  | endless =>
    obtain ⟨⟨rank, exit⟩, least, rfl⟩ := Option.map_eq_some_iff.mp found
    obtain ⟨s, -, chosen⟩ := List.mem_filterMap.mp (least?_mem least)
    split at chosen
    · next candidate =>
      obtain ⟨exit', way, same⟩ := Option.map_eq_some_iff.mp chosen
      cases same
      obtain ⟨edge, outside⟩ := wayOut?_spec way
      simp only [Bool.and_eq_true, List.contains_iff_mem] at candidate
      exact ⟨outside, s, edge, .inr ⟨rfl, candidate.1⟩⟩
    · cases chosen

/-! ## Blocks of a loop behind its latch -/

/-- The head of a loop dominates all of it. -/
theorem ClosesLoop.dominates_of_inLoop (closes : g.ClosesLoop start head latch)
    (reached : g.Reaches start n) (inside : g.InLoop head latch n) : g.Dominates start head n := by
  refine ⟨reached, fun passed walk => ?_⟩
  rcases inside with rfl | ⟨further, rest, around⟩
  · exact walk.end_mem
  · rcases List.mem_append.mp (closes.dominates.2 _ (walk.append rest)) with before | after
    · exact before
    · exact absurd (List.mem_of_mem_tail after) around

/-- A walk that begins above a bound stays above it or has a first step that crosses it. -/
theorem Walk.above_or_crosses {rank : NodeId → Nat} {bound : Nat} (walk : g.Walk a b passed)
    (above : bound < rank a) :
    (∀ m ∈ passed, bound < rank m) ∨
      ∃ d c before further, g.Walk a d before ∧ (∀ m ∈ before, bound < rank m) ∧ g.Step d c ∧
        rank c ≤ bound ∧ g.Walk c b further ∧ further ⊆ passed := by
  induction walk with
  | here => exact .inl (by simpa using above)
  | @step m passed b walk edge ih =>
    have last : b ∈ passed ++ [b] := List.mem_append_right _ (List.mem_singleton_self b)
    rcases ih with high | ⟨d, c, before, further, first, high, crossing, low, rest, inside⟩
    · by_cases low : rank b ≤ bound
      · right
        exact ⟨m, b, passed, [b], walk, high, edge, low, .here, by simp⟩
      · left
        intro n member
        rcases List.mem_append.mp member with old | new
        · exact high n old
        · exact List.mem_singleton.mp new ▸ Nat.not_le.mp low
    · right
      refine ⟨d, c, before, _, first, high, crossing, low, rest.step edge, ?_⟩
      exact List.append_subset.mpr
        ⟨List.subset_append_of_subset_left _ inside, by simp⟩

/-- Behind the latch of a loop control goes on from a node to an edge that leads back over the latch
into the loop, but not to its head. -/
structure ReturnsBy (g : FlowGraph) (start head latch n c d : NodeId) : Prop where
  behind : ∃ passed, g.Walk n d passed ∧
    ∀ m ∈ passed, (g.numbering start).rank latch < (g.numbering start).rank m
  edge : g.Step d c
  before : (g.numbering start).rank c ≤ (g.numbering start).rank latch
  inner : c ≠ head
  inside : g.InLoop head latch c

/-- In a reducible graph an edge over the latch closes a loop inside the first one. -/
theorem ReturnsBy.closes (returns : g.ReturnsBy start head latch n c d)
    (closes : g.ClosesLoop start head latch) (reducible : g.Reducible start)
    (reached : g.Reaches start n) :
    g.ClosesLoop start c d ∧ g.InLoop c d n ∧ g.StrictlyDominates start c n ∧
      g.StrictlyDominates start head c := by
  obtain ⟨⟨passed, walk, high⟩, edge, before, inner, inside⟩ := returns
  have around : c ∉ passed := fun member => Nat.not_lt.mpr before (high c member)
  have reachedD : g.Reaches start d := reached.trans ⟨passed, walk⟩
  have back := Nat.le_of_lt (Nat.lt_of_le_of_lt before (high d walk.end_mem))
  have dominates := reducible d c ⟨reachedD, edge, back⟩
  have above : g.Dominates start c n := by
    refine ⟨reached, fun first way => ?_⟩
    rcases List.mem_append.mp (dominates.2 _ (way.append walk)) with early | late
    · exact early
    · exact absurd (List.mem_of_mem_tail late) around
  refine ⟨⟨edge, dominates⟩, .inr ⟨passed, walk, around⟩, ⟨?_, above⟩, Ne.symm inner, ?_⟩
  · rintro rfl
    exact around walk.start_mem
  · exact closes.dominates_of_inLoop (reachedD.step edge) inside

section

variable (wf : g.WellFormed) (live : start ∈ g.nodeIds)
include wf live

/-- The members of a loop are its nodes up to the latch. -/
theorem loopMember_iff (closes : g.ClosesLoop start head latch) (reached : g.Reaches start n) :
    g.LoopMember start head latch n ↔ g.InLoop head latch n ∧
      (g.numbering start).rank n ≤ (g.numbering start).rank latch := by
  constructor
  · intro member
    exact ⟨member.inside, member.before⟩
  · rintro ⟨inside, before⟩
    have dominated := closes.dominates_of_inLoop reached inside
    exact ⟨inside, dominated, ((ranking wf live).climbs_of_dominates dominated).rank_le, before⟩

/-- The nodes of a loop behind its latch are those from which control returns over the latch. -/
theorem exists_returnsBy_iff (closes : g.ClosesLoop start head latch) :
    (∃ c d, g.ReturnsBy start head latch n c d) ↔ g.InLoop head latch n ∧
      (g.numbering start).rank latch < (g.numbering start).rank n := by
  have low := ((ranking wf live).climbs_of_dominates closes.dominates).rank_le
  constructor
  · rintro ⟨c, d, ⟨passed, walk, high⟩, edge, -, inner, inside⟩
    have around : head ∉ passed := fun member => Nat.not_lt.mpr low (high head member)
    refine ⟨?_, high n walk.start_mem⟩
    obtain ⟨further, rest, around'⟩ := (inside.of_step edge inner).resolve_left fun same =>
      around (same ▸ walk.end_mem)
    refine .inr ⟨_, walk.append rest, fun member => ?_⟩
    rcases List.mem_append.mp member with first | later
    · exact around first
    · exact around' (List.mem_of_mem_tail later)
  · rintro ⟨inside, behind⟩
    have other : n ≠ head := by
      rintro rfl
      exact Nat.not_lt.mpr low behind
    obtain ⟨passed, walk, around⟩ := inside.resolve_left other
    rcases walk.above_or_crosses behind with high | ⟨d, c, before, further, first, high, edge, low,
      rest, subset⟩
    · exact absurd (high latch walk.end_mem) (Nat.lt_irrefl _)
    · have clear : head ∉ further := fun member => around (subset member)
      exact ⟨c, d, ⟨before, first, high⟩, edge, low, fun same => clear (same ▸ rest.start_mem),
        .inr ⟨further, rest, clear⟩⟩

/-- In a reducible graph no way out of the head of a loop leads behind the latch and back. -/
theorem ReturnsBy.not_step (returns : g.ReturnsBy start head latch n c d)
    (closes : g.ClosesLoop start head latch) (reducible : g.Reducible start) :
    ¬g.Step head n := by
  intro edge
  have headReached : g.Reaches start head := closes.dominates.1.step closes.edge
  obtain ⟨-, -, ⟨different, above⟩, strict⟩ :=
    returns.closes closes reducible (headReached.step edge)
  have again := above.of_step different headReached edge
  exact strict.1 ((ranking wf live).antisymm strict.2 again)

/-- The follow of a loop is entered from the loop, from the head if that tests it, and does not stand
in the loop up to the latch. -/
theorem loopFollow_spec (closes : g.ClosesLoop start head latch)
    (found : g.loopFollowOf (g.numbering start)
      (g.loopMembers (g.dominatorsFrom start) (g.numbering start) head latch) kind head latch =
        some f) :
    (∃ s, g.InLoop head latch s ∧ g.Step s f ∧ g.Reaches start s ∧ (kind = .pre → s = head)) ∧
      (g.InLoop head latch f →
        (g.numbering start).rank latch < (g.numbering start).rank f) := by
  obtain ⟨outside, s, edge, source⟩ := loopFollowOf_spec found
  rw [mem_loopMembers wf live closes] at outside
  have start' : g.InLoop head latch s ∧ g.Reaches start s ∧ (kind = .pre → s = head) := by
    rcases source with test | ⟨rfl, member⟩
    · cases kind with
      | pre =>
        cases test
        exact ⟨.inl rfl, closes.dominates.1.step closes.edge, fun _ => rfl⟩
      | post =>
        cases test
        exact ⟨.of_latch, closes.dominates.1, nofun⟩
      | endless => cases test
    · have member := (mem_loopMembers wf live closes).mp member
      exact ⟨member.inside, member.dominated.1, nofun⟩
  obtain ⟨inside, reached, test⟩ := start'
  refine ⟨⟨s, inside, edge, reached, test⟩, fun within => ?_⟩
  by_contra before
  exact outside ((loopMember_iff wf live closes (reached.step edge)).mpr
    ⟨within, Nat.not_lt.mp before⟩)

end

/-- The follow of every loop that structuring a valid graph returns is entered from a block of the
loop. It lies outside the loop unless control returns from it over the latch. In a reducible graph it
lies outside a loop that is tested at its head, and outside any other unless it lies in a loop nested
inside. -/
theorem structureIntervals_follow_inside_iff (wf : g.WellFormed) (valid : g.validate = .ok ()) :
    ∃ regions h entry, g.structureIntervals = .ok (regions, h) ∧ g.entry? = some entry ∧
      h.entry? = some entry ∧ ∀ kind head latch follow,
        .loop kind head latch (some follow) ∈ regions →
          ∃ a b f, h.find? head = some a ∧ h.find? latch = some b ∧ h.find? follow = some f ∧
            (∃ s, h.InLoop a b s ∧ h.Step s f) ∧
            (h.InLoop a b f ↔ ∃ c d, h.ReturnsBy entry a b f c d) ∧
            (g.Reducible entry → h.InLoop a b f → kind ≠ .pre ∧
              ∃ c d, h.ClosesLoop entry c d ∧ h.InLoop c d f ∧ h.StrictlyDominates entry c f ∧
                h.StrictlyDominates entry a c) := by
  obtain ⟨regions, h, entry, loops, ran, entered, structured⟩ :=
    structureIntervals_reported wf valid
  refine ⟨regions, h, entry, ran, entered, structured.entered, ?_⟩
  intro kind head latch follow member
  obtain ⟨⟨a, b⟩, found, headFound, latchFound, record⟩ := structured.exists_loop member
  have live := entry_live structured.entered
  have closes := structured.reported.closes (a, b) found
  simp only [loopRegion, loopFinding, Region.loop.injEq, Option.map_eq_some_iff] at record
  obtain ⟨kindIs, -, -, f, chosen, rfl⟩ := record
  rw [kindIs] at chosen
  obtain ⟨⟨s, inside, edge, reached, test⟩, behind⟩ :=
    loopFollow_spec structured.wf live closes chosen
  have returns : h.InLoop a b f ↔ ∃ c d, h.ReturnsBy entry a b f c d := by
    rw [exists_returnsBy_iff structured.wf live closes]
    exact ⟨fun within => ⟨within, behind within⟩, fun both => both.1⟩
  refine ⟨a, b, f, headFound, latchFound, ?_, ⟨s, inside, edge⟩, returns, fun before within => ?_⟩
  · exact structured.wf.find?_label (structured.wf.target_live edge)
  · obtain ⟨c, d, back⟩ := returns.mp within
    have reducible := structured.reducible before
    obtain ⟨inner, insideInner, strict, nested⟩ :=
      back.closes closes reducible (reached.step edge)
    refine ⟨?_, c, d, inner, insideInner, strict, nested⟩
    rintro rfl
    obtain rfl : s = a := test rfl
    exact back.not_step structured.wf live closes reducible edge

/-- A loop with another loop inside that begins where the first one goes on to its latch. The search
meets the inner loop first, so that its body stands behind the latch of the outer one. -/
def lagging : FlowGraph where
  name := "lagging"
  attrs := .empty
  nodes := [⟨0, "A", .ofList [("entry", "true")], .ofAttrs .empty⟩,
    ⟨1, "B", .empty, .ofAttrs .empty⟩, ⟨2, "C", .empty, .ofAttrs .empty⟩,
    ⟨3, "D", .empty, .ofAttrs .empty⟩]
  edges := [⟨0, 1, .empty⟩, ⟨1, 2, .ofList [("cond", "true")]⟩,
    ⟨1, 3, .ofList [("cond", "false")]⟩, ⟨2, 1, .empty⟩, ⟨3, 0, .empty⟩]
  nextNode := 4
  nextEdge := 5

/-- The inner loop is tested at its head and left to the latch of the outer one. -/
theorem lagging_inner_follow_outside : lagging.WellFormed ∧ lagging.validate = .ok () ∧
    ∃ regions h, lagging.structureIntervals = .ok (regions, h) ∧
      .loop .pre "B" "C" (some "D") ∈ regions ∧
      ∃ a b f, h.find? "B" = some a ∧ h.find? "C" = some b ∧ h.find? "D" = some f ∧
        ¬h.InLoop a b f := by
  have wf : lagging.WellFormed := by decide
  have valid : lagging.validate = .ok () := by rfl
  obtain ⟨regions, h, entry, ran, entered, -, follows⟩ :=
    structureIntervals_follow_inside_iff wf valid
  obtain rfl : entry = 0 := (Option.some.inj entered).symm
  have reducible : lagging.Reducible 0 := (reducible_iff_edges wf (by decide)).mpr (by decide)
  obtain ⟨regions', h', ran', inner⟩ : ∃ regions h,
      lagging.structureIntervals = .ok (regions, h) ∧
        .loop .pre "B" "C" (some "D") ∈ regions := ⟨_, _, rfl, by decide⟩
  cases ran'.symm.trans ran
  obtain ⟨a, b, f, head, latch, follow, -, -, outside⟩ := follows _ _ _ _ inner
  refine ⟨wf, valid, _, _, ran, inner, a, b, f, head, latch, follow, fun within => ?_⟩
  exact (outside reducible within).1 rfl

/-- The outer loop has no way out, and its follow is the body of the inner one. -/
theorem lagging_outer_follow_inside : lagging.WellFormed ∧ lagging.validate = .ok () ∧
    ∃ regions h, lagging.structureIntervals = .ok (regions, h) ∧
      .loop .endless "A" "D" (some "C") ∈ regions ∧ h.find? "A" = some 0 ∧
      h.find? "D" = some 3 ∧ h.find? "C" = some 2 ∧ h.InLoop 0 3 2 := by
  obtain ⟨regions, h, ran, outer, wfEnd, head, latch, follow, inside⟩ : ∃ regions h,
      lagging.structureIntervals = .ok (regions, h) ∧
        .loop .endless "A" "D" (some "C") ∈ regions ∧ h.WellFormed ∧ h.find? "A" = some 0 ∧
        h.find? "D" = some 3 ∧ h.find? "C" = some 2 ∧ 2 ∈ h.naturalLoop 0 3 :=
    ⟨_, _, rfl, by decide, by decide, by decide, by decide, by decide, by decide⟩
  exact ⟨by decide, by rfl, regions, h, ran, outer, head, latch, follow,
    (mem_naturalLoop wfEnd (find?_live latch)).mp inside⟩

end ControlFlow.FlowGraph
