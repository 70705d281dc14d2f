import ControlFlow.Proofs.Interval.Follow

/-! Waiting for a follow. Conditionals are looked at from the last one back. One without a follow of
its own waits until the next one comes that has a follow, which is the nearest of those in front of
it in reverse postorder; whether that one encloses it is never asked. -/
namespace ControlFlow.FlowGraph

namespace FollowSearch

variable (search : FollowSearch) (g h : FlowGraph) (entry : NodeId)

/-- A conditional has a follow of its own. -/
structure Owns (id f : NodeId) : Prop where
  reached : g.Reaches entry id
  covered : search.covers g id = true
  found : search.follow? g (g.dominatorsFrom entry) (g.numbering entry) id = some f

/-- A conditional has no follow of its own. -/
structure Waits (id : NodeId) : Prop where
  reached : g.Reaches entry id
  covered : search.covers g id = true
  missing : search.follow? g (g.dominatorsFrom entry) (g.numbering entry) id = none

/-- A conditional takes over the follow of the nearest one in front of it that has a follow. -/
structure WaitsFor (id header : NodeId) : Prop where
  waits : search.Waits g entry id
  before : (g.numbering entry).rank header < (g.numbering entry).rank id
  nearest : ∀ other f, search.Owns g entry other f →
    (g.numbering entry).rank other < (g.numbering entry).rank id →
      (g.numbering entry).rank other ≤ (g.numbering entry).rank header

/-- A conditional has a follow in the end: its own, or that of the one for which it waits. -/
def Gets (id f : NodeId) : Prop :=
  ∃ header, search.Owns g entry header f ∧ (id = header ∨ search.WaitsFor g entry id header)

variable {search g h entry} {id header f : NodeId}

theorem Owns.unique {f' : NodeId} (left : search.Owns g entry id f)
    (right : search.Owns g entry id f') : f = f' :=
  Option.some.inj (left.found.symm.trans right.found)

theorem Waits.not_owns (waits : search.Waits g entry id) : ¬search.Owns g entry id f := by
  intro owns
  cases owns.found.symm.trans waits.missing

theorem Gets.covered (gets : search.Gets g entry id f) : search.covers g id = true := by
  obtain ⟨header, owns, rfl | waitsFor⟩ := gets
  · exact owns.covered
  · exact waitsFor.waits.covered

theorem Gets.reached (gets : search.Gets g entry id f) : g.Reaches entry id := by
  obtain ⟨header, owns, rfl | waitsFor⟩ := gets
  · exact owns.reached
  · exact waitsFor.waits.reached

section

variable (covers : search.covers g = search.covers h)
  (follow : search.follow? g = search.follow? h) (core : g.SameCore h)
include covers follow core

theorem Owns.congr (owns : search.Owns g entry id f) : search.Owns h entry id f where
  reached := core.reaches owns.reached
  covered := covers ▸ owns.covered
  found := by
    have found := owns.found
    rwa [follow, core.dominatorsFrom, core.numbering] at found

theorem Waits.congr (waits : search.Waits g entry id) : search.Waits h entry id where
  reached := core.reaches waits.reached
  covered := covers ▸ waits.covered
  missing := by
    have missing := waits.missing
    rwa [follow, core.dominatorsFrom, core.numbering] at missing

theorem WaitsFor.congr (waitsFor : search.WaitsFor g entry id header) :
    search.WaitsFor h entry id header where
  waits := waitsFor.waits.congr covers follow core
  before := core.numbering ▸ waitsFor.before
  nearest other f owns before := by
    have same := congrFun core.numbering entry
    rw [← same] at before ⊢
    exact waitsFor.nearest other f (owns.congr covers.symm follow.symm core.symm) before

theorem Gets.congr (gets : search.Gets g entry id f) : search.Gets h entry id f := by
  obtain ⟨header, owns, rfl | waitsFor⟩ := gets
  · exact ⟨id, owns.congr covers follow core, .inl rfl⟩
  · exact ⟨header, owns.congr covers follow core, .inr (waitsFor.congr covers follow core)⟩

end

/-! ## Runs -/

/-- Where a search stands once it has looked at some nodes: those wait that no later header has
resolved, and all that were resolved are recorded. -/
structure Visited (search : FollowSearch) (g : FlowGraph) (entry : NodeId) (done : List NodeId)
    (state : FollowState) : Prop where
  graph : state.graph.SameButFollows g
  waiting : ∀ id, id ∈ state.waiting ↔ id ∈ done ∧ search.Waits g entry id ∧
    ∀ header ∈ done, ∀ f, search.Owns g entry header f →
      (g.numbering entry).rank id ≤ (g.numbering entry).rank header
  regions : ∀ region, region ∈ state.regions ↔ ∃ header ∈ done, ∃ id f,
    search.Owns g entry header f ∧ (id = header ∨ search.WaitsFor g entry id header) ∧
      search.region? g id f = some region

variable {done rest : List NodeId} {state : FollowState}

theorem Visited.start : search.Visited g entry [] ⟨[], [], g⟩ where
  graph := .refl g
  waiting := by simp
  regions := by simp

section

variable (steady : search.Steady) (visited : search.Visited g entry done state)
  (reached : g.Reaches entry id)
  (below : ∀ other ∈ done, (g.numbering entry).rank id < (g.numbering entry).rank other)
  (above : ∀ other, g.Reaches entry other → other ∉ done →
    (g.numbering entry).rank other ≤ (g.numbering entry).rank id)
include visited

/-- A node without a follow of its own adds no record. -/
theorem Visited.regions_cons (ownerless : ∀ f, ¬search.Owns g entry id f) (region : Region) :
    region ∈ state.regions ↔ ∃ header ∈ id :: done, ∃ other f,
      search.Owns g entry header f ∧ (other = header ∨ search.WaitsFor g entry other header) ∧
        search.region? g other f = some region := by
  rw [visited.regions, List.exists_mem_cons_iff]
  constructor
  · exact .inr
  · rintro (⟨other, f, owns, -⟩ | found)
    · exact absurd owns (ownerless f)
    · exact found

/-- A node that is no conditional changes nothing. -/
theorem Visited.skip (uncovered : search.covers g id = false) :
    search.Visited g entry (id :: done) state where
  graph := visited.graph
  waiting other := by
    rw [visited.waiting]
    constructor
    · rintro ⟨member, waits, unresolved⟩
      refine ⟨List.mem_cons_of_mem _ member, waits, List.forall_mem_cons.mpr ⟨?_, unresolved⟩⟩
      intro f owns
      cases uncovered.symm.trans owns.covered
    · rintro ⟨member, waits, unresolved⟩
      rcases List.mem_cons.mp member with rfl | member
      · cases uncovered.symm.trans waits.covered
      · exact ⟨member, waits, (List.forall_mem_cons.mp unresolved).2⟩
  regions := by
    apply visited.regions_cons
    intro f owns
    cases uncovered.symm.trans owns.covered

include below

/-- A conditional without a follow waits with the others. -/
theorem Visited.wait (waits : search.Waits g entry id) :
    search.Visited g entry (id :: done) { state with waiting := id :: state.waiting } where
  graph := visited.graph
  waiting other := by
    rw [List.mem_cons, visited.waiting]
    constructor
    · rintro (rfl | ⟨member, waits', unresolved⟩)
      · refine ⟨List.mem_cons_self, waits, List.forall_mem_cons.mpr ⟨fun _ _ => Nat.le_refl _, ?_⟩⟩
        exact fun header member _ _ => Nat.le_of_lt (below header member)
      · refine ⟨List.mem_cons_of_mem _ member, waits', List.forall_mem_cons.mpr ⟨?_, unresolved⟩⟩
        exact fun f owns => absurd owns waits.not_owns
    · rintro ⟨member, waits', unresolved⟩
      rcases List.mem_cons.mp member with rfl | member
      · exact .inl rfl
      · exact .inr ⟨member, waits', (List.forall_mem_cons.mp unresolved).2⟩
  regions := visited.regions_cons fun _ => waits.not_owns

include above

/-- Those that wait when a header comes are those that wait for it. -/
theorem Visited.mem_waiting_iff {other : NodeId} :
    other ∈ state.waiting ↔ search.WaitsFor g entry other id := by
  rw [visited.waiting]
  constructor
  · rintro ⟨member, waits, unresolved⟩
    refine ⟨waits, below other member, ?_⟩
    intro header f owns before
    by_cases seen : header ∈ done
    · exact absurd (unresolved header seen f owns) (Nat.not_le.mpr before)
    · exact above header owns.reached seen
  · rintro ⟨waits, before, nearest⟩
    have member : other ∈ done := by
      by_contra unseen
      exact absurd (above other waits.reached unseen) (Nat.not_le.mpr before)
    refine ⟨member, waits, ?_⟩
    intro header seen f owns
    by_contra before'
    have closer := nearest header f owns (Nat.not_le.mp before')
    exact absurd closer (Nat.not_le.mpr (below header seen))

/-- A header with a follow gives it to itself and to all that wait. -/
theorem Visited.resolve (owns : search.Owns g entry id f) :
    search.Visited g entry (id :: done)
      { regions := state.regions ++
          (id :: state.waiting).filterMap fun header => search.region? g header f
        waiting := []
        graph := (id :: state.waiting).foldl (fun g header => g.annotate header fun notes =>
          { notes with follow := some f }) state.graph } where
  graph := (SameButFollows.foldl_annotate _ _).trans visited.graph
  waiting other := by
    constructor
    · exact nofun
    · rintro ⟨member, waits, unresolved⟩
      rcases List.mem_cons.mp member with rfl | member
      · exact absurd owns waits.not_owns
      · have bound := unresolved id List.mem_cons_self f owns
        exact absurd bound (Nat.not_le.mpr (below other member))
  regions region := by
    have waiting (other : NodeId) : other ∈ state.waiting ↔ search.WaitsFor g entry other id :=
      visited.mem_waiting_iff below above
    rw [List.mem_append, visited.regions, List.exists_mem_cons_iff, or_comm]
    refine or_congr ?_ Iff.rfl
    simp only [List.mem_filterMap, List.mem_cons, waiting]
    constructor
    · rintro ⟨other, resolved, recorded⟩
      exact ⟨other, f, owns, resolved, recorded⟩
    · rintro ⟨other, f', owns', resolved, recorded⟩
      obtain rfl := owns.unique owns'
      exact ⟨other, resolved, recorded⟩

include steady reached

/-- Looking at the next node in postorder. -/
theorem Visited.visit : search.Visited g entry (id :: done)
    (search.visit (g.dominatorsFrom entry) (g.numbering entry) state id) := by
  have core := visited.graph.core
  unfold FollowSearch.visit
  simp only [steady.covers_eq visited.graph, steady.follow?_eq core, steady.region?_eq core]
  cases covered : search.covers g id with
  | false => exact visited.skip covered
  | true =>
    rw [if_pos rfl]
    cases found : search.follow? g (g.dominatorsFrom entry) (g.numbering entry) id with
    | none => exact visited.wait below ⟨reached, covered, found⟩
    | some f => exact visited.resolve below above ⟨reached, covered, found⟩

end

/-- A node comes next in postorder, after those that are done. -/
structure ComesNext (g : FlowGraph) (entry : NodeId) (done : List NodeId) (id : NodeId) : Prop where
  reached : g.Reaches entry id
  below : ∀ other ∈ done, (g.numbering entry).rank id < (g.numbering entry).rank other
  above : ∀ other, g.Reaches entry other → other ∉ done →
    (g.numbering entry).rank other ≤ (g.numbering entry).rank id

/-- What looking at the next node in postorder keeps, looking at the rest of them keeps. -/
theorem foldl_visit_induct {motive : List NodeId → FollowState → Prop}
    (visit : ∀ {done state id}, ComesNext g entry done id → motive done state →
      motive (id :: done) (search.visit (g.dominatorsFrom entry) (g.numbering entry) state id))
    (holds : motive done state)
    (order : rest.Pairwise fun a b => (g.numbering entry).rank b < (g.numbering entry).rank a)
    (below : ∀ id ∈ rest, ∀ other ∈ done,
      (g.numbering entry).rank id < (g.numbering entry).rank other)
    (cover : ∀ id, g.Reaches entry id ↔ id ∈ done ∨ id ∈ rest) :
    ∃ all, motive all
        (rest.foldl (search.visit (g.dominatorsFrom entry) (g.numbering entry)) state) ∧
      ∀ id, g.Reaches entry id → id ∈ all := by
  induction rest generalizing done state with
  | nil => exact ⟨done, holds, fun id reached => by simpa using (cover id).mp reached⟩
  | cons id rest ih =>
    obtain ⟨lower, order⟩ := List.pairwise_cons.mp order
    obtain ⟨belowHead, below⟩ := List.forall_mem_cons.mp below
    have next : ComesNext g entry done id := by
      refine ⟨(cover id).mpr (.inr List.mem_cons_self), belowHead, ?_⟩
      intro other reached unseen
      rcases List.mem_cons.mp (((cover other).mp reached).resolve_left unseen) with rfl | later
      · exact Nat.le_refl _
      · exact Nat.le_of_lt (lower other later)
    apply ih (visit next holds) order
    · intro a later
      exact List.forall_mem_cons.mpr ⟨lower a later, below a later⟩
    · intro a
      rw [cover, List.mem_cons, List.mem_cons]
      tauto

/-- Where a search stands that has looked at all nodes of a numbered graph in postorder. -/
def ended (search : FollowSearch) (g : FlowGraph) (entry : NodeId) : FollowState :=
  (g.numbering entry).reversePostorder.reverse.foldl
    (search.visit (g.dominatorsFrom entry) (g.numbering entry)) ⟨[], [], g⟩

/-- A search numbers the graph and then looks at all nodes in postorder. -/
theorem run_eq (entered : g.entry? = some entry)
    (numbered : g.recordNumbers (g.numbering entry) = h) :
    search.run g = .ok ((search.ended h entry).regions, (search.ended h entry).graph) := by
  have same : h.SameCore g := numbered ▸ sameCore_recordNumbers (g.numbering entry)
  have numbering : h.numbering entry = g.numbering entry := congrFun same.numbering entry
  have dom := dominators_eq_ok (same.entry_eq.trans entered)
  rw [ended, numbering]
  simp only [run, number_eq_ok entered, numbered, dom, bind, Except.bind]
  rfl

/-- What holds of the numbered graph, and is kept by looking at the next node in postorder, holds at
the end of a search. -/
theorem run_induct {motive : List NodeId → FollowState → Prop} (wf : g.WellFormed)
    (entered : g.entry? = some entry) (numbered : g.recordNumbers (g.numbering entry) = h)
    (start : motive [] ⟨[], [], h⟩)
    (visit : ∀ {done state id}, ComesNext h entry done id → motive done state →
      motive (id :: done) (search.visit (h.dominatorsFrom entry) (h.numbering entry) state id)) :
    ∃ all state, search.run g = .ok (state.regions, state.graph) ∧ motive all state ∧
      ∀ id, h.Reaches entry id → id ∈ all := by
  have same : h.SameCore g := numbered ▸ sameCore_recordNumbers (g.numbering entry)
  have wfNumbered := wf.of_sameCore same
  have live := entry_live (same.entry_eq.trans entered)
  have order := Numbering.pairwise_rank (numbering_left_nodup wfNumbered entry)
  obtain ⟨all, holds, complete⟩ := foldl_visit_induct visit start
    (List.pairwise_reverse.mpr order) (by simp)
    (fun id => by simp [mem_reversePostorder wfNumbered live])
  exact ⟨all, _, run_eq entered numbered, holds, complete⟩

theorem Gets.iff_of_sameButFollows (steady : search.Steady) (same : g.SameButFollows h) :
    search.Gets g entry id f ↔ search.Gets h entry id f := by
  have covers := steady.covers_eq same
  have follow := steady.follow?_eq same.core
  exact ⟨Gets.congr covers follow same.core, Gets.congr covers.symm follow.symm same.core.symm⟩

/-- A search records every conditional that has a follow in the end, and nothing else. -/
theorem Steady.run_eq_ok (steady : search.Steady) (wf : g.WellFormed)
    (entered : g.entry? = some entry) :
    ∃ regions h, search.run g = .ok (regions, h) ∧ h.SameCore g ∧
      ∀ region, region ∈ regions ↔
        ∃ id f, search.Gets h entry id f ∧ search.region? h id f = some region := by
  have same := @sameCore_recordNumbers g (g.numbering entry)
  generalize numbered : g.recordNumbers (g.numbering entry) = k at same
  have start : search.Visited k entry [] ⟨[], [], k⟩ := .start
  obtain ⟨all, state, ran, visited, complete⟩ := run_induct wf entered numbered start
    fun next visited => visited.visit steady next.reached next.below next.above
  refine ⟨state.regions, state.graph, ran, visited.graph.core.trans same, ?_⟩
  intro region
  rw [visited.regions]
  simp only [Gets.iff_of_sameButFollows steady visited.graph,
    steady.region?_eq visited.graph.core]
  constructor
  · rintro ⟨header, -, id, f, owns, resolved, recorded⟩
    exact ⟨id, f, ⟨header, owns, resolved⟩, recorded⟩
  · rintro ⟨id, f, ⟨header, owns, resolved⟩, recorded⟩
    exact ⟨header, complete header owns.reached, id, f, owns, resolved, recorded⟩

end FollowSearch

end ControlFlow.FlowGraph
