import ControlFlow.Proofs.Interval.Passes
import ControlFlow.Proofs.Interval.Waiting

/-! Which follows are noted. A search gives every conditional its follow at most once: a header that
has a follow of its own when it is looked at, one that waits when its turn to be resolved has come,
after which it waits no longer. So the records of a search and the follows that it notes are the
same findings, one record for one conditional, and all other conditionals keep what was noted. -/
namespace ControlFlow.FlowGraph

variable {g h : FlowGraph} {entry id other f : NodeId}

/-- The follow noted at a node. -/
def notedFollow? (g : FlowGraph) (id : NodeId) : Option NodeId := (g.notes? id).bind Notes.follow

/-- Of a node that others are given a follow nothing changes. -/
theorem foldl_annotate_notedFollow?_of_not_mem {ids : List NodeId} (missing : other ∉ ids) :
    (ids.foldl (fun g id => g.annotate id fun notes =>
      { notes with follow := some f }) g).notedFollow? other = g.notedFollow? other := by
  induction ids generalizing g with
  | nil => rfl
  | cons id rest ih =>
    obtain ⟨different, missing⟩ := not_or.mp (mt List.mem_cons.mpr missing)
    rw [List.foldl_cons, ih missing, notedFollow?, annotate_notes? different, notedFollow?]

theorem foldl_annotate_notedFollow? {ids : List NodeId} (live : other ∈ g.nodeIds)
    (member : other ∈ ids) :
    (ids.foldl (fun g id => g.annotate id fun notes =>
      { notes with follow := some f }) g).notedFollow? other = some f := by
  induction ids generalizing g with
  | nil => cases member
  | cons id rest ih =>
    rw [List.foldl_cons]
    by_cases later : other ∈ rest
    · refine ih ?_ later
      rwa [(sameCore_annotate id _).nodeIds]
    · obtain rfl := (List.mem_cons.mp member).resolve_right later
      obtain ⟨n, present⟩ := Option.isSome_iff_exists.mp (contains_iff.mpr live)
      rw [foldl_annotate_notedFollow?_of_not_mem later, notedFollow?, annotate_notes?_self, notes?,
        present]
      rfl

namespace FollowSearch

variable {search : FollowSearch} {done : List NodeId} {state : FollowState}
variable {given : List (NodeId × NodeId)}

/-- The conditionals that have got a follow, and which, in the order of their records. -/
structure Given (search : FollowSearch) (g : FlowGraph) (entry : NodeId) (done : List NodeId)
    (state : FollowState) (given : List (NodeId × NodeId)) : Prop where
  records : state.regions = given.filterMap fun pair => search.region? g pair.1 pair.2
  mem_iff : ∀ id f, (id, f) ∈ given ↔ ∃ header ∈ done, search.Owns g entry header f ∧
    (id = header ∨ search.WaitsFor g entry id header)
  /-- None of them waits, and none has got another follow before. -/
  once : (given.map Prod.fst ++ state.waiting).Nodup
  noted : ∀ id f, (id, f) ∈ given → state.graph.notedFollow? id = some f
  kept : ∀ id, id ∉ given.map Prod.fst → state.graph.notedFollow? id = g.notedFollow? id

theorem Given.start : Given search g entry [] ⟨[], [], g⟩ [] where
  records := rfl
  mem_iff := by simp
  once := .nil
  noted := nofun
  kept _ _ := rfl

section

variable (before : Given search g entry done state given)
  (visited : search.Visited g entry done state) (next : ComesNext g entry done id)
include before visited next

/-- The node that comes next has no follow yet and does not wait. -/
theorem Given.fresh : id ∉ given.map Prod.fst ++ state.waiting := by
  have undone : id ∉ done := fun member => Nat.lt_irrefl _ (next.below id member)
  intro seen
  rcases List.mem_append.mp seen with resolved | waiting
  · obtain ⟨⟨_, f⟩, member, rfl⟩ := List.mem_map.mp resolved
    obtain ⟨header, seen, -, rfl | waits⟩ := (before.mem_iff _ f).mp member
    · exact undone seen
    · exact Nat.lt_asymm waits.before (next.below header seen)
  · exact undone ((visited.waiting id).mp waiting).1

omit visited next in
/-- A node without a follow of its own gets none and gives none. -/
theorem Given.pass (ownerless : ∀ f, ¬search.Owns g entry id f) {waiting : List NodeId}
    (once : (given.map Prod.fst ++ waiting).Nodup) :
    Given search g entry (id :: done) { state with waiting := waiting } given where
  records := before.records
  mem_iff other f := by
    rw [before.mem_iff, List.exists_mem_cons_iff]
    refine ⟨.inr, ?_⟩
    rintro (⟨owns, -⟩ | found)
    · exact absurd owns (ownerless f)
    · exact found
  once := once
  noted := before.noted
  kept := before.kept

/-- A header with a follow gives it to itself and to all that wait, which have none yet. -/
theorem Given.resolve (live : ∀ id, g.Reaches entry id → id ∈ g.nodeIds)
    (owns : search.Owns g entry id f) :
    Given search g entry (id :: done)
      { regions := state.regions ++
          (id :: state.waiting).filterMap fun header => search.region? g header f
        waiting := []
        graph := (id :: state.waiting).foldl (fun g header => g.annotate header fun notes =>
          { notes with follow := some f }) state.graph }
      (given ++ (id :: state.waiting).map (·, f)) := by
  have unique : (given.map Prod.fst ++ id :: state.waiting).Nodup :=
    (List.perm_middle.nodup_iff).mpr
      (List.nodup_cons.mpr ⟨before.fresh visited next, before.once⟩)
  have apart := (List.nodup_append.mp unique).2.2
  have waiting (other : NodeId) : other ∈ state.waiting ↔ search.WaitsFor g entry other id :=
    visited.mem_waiting_iff next.below next.above
  refine ⟨?_, fun other f' => ?_, ?_, fun other f' member => ?_, fun other missing => ?_⟩
  · rw [List.filterMap_append, List.filterMap_map, ← before.records]
    rfl
  · rw [List.mem_append, before.mem_iff, List.exists_mem_cons_iff, or_comm]
    refine or_congr ?_ Iff.rfl
    simp only [List.mem_map, List.mem_cons, waiting, Prod.mk.injEq]
    constructor
    · rintro ⟨_, resolved, rfl, rfl⟩
      exact ⟨owns, resolved⟩
    · rintro ⟨owns', resolved⟩
      exact ⟨other, resolved, rfl, owns.unique owns'⟩
  · simpa [Function.comp_def] using unique
  · rcases List.mem_append.mp member with old | new
    · have named : other ∈ given.map Prod.fst := List.mem_map_of_mem old
      rw [foldl_annotate_notedFollow?_of_not_mem fun again => apart other named other again rfl]
      exact before.noted other f' old
    · obtain ⟨_, resolved, same⟩ := List.mem_map.mp new
      cases same
      refine foldl_annotate_notedFollow? ?_ resolved
      rw [visited.graph.core.nodeIds]
      rcases List.mem_cons.mp resolved with rfl | waits
      · exact live _ next.reached
      · exact live _ ((waiting other).mp waits).waits.reached
  · simp only [List.map_append, List.map_map, Function.comp_def, List.map_id', List.mem_append,
      not_or] at missing
    rw [foldl_annotate_notedFollow?_of_not_mem missing.2]
    exact before.kept other missing.1

/-- Looking at the next node in postorder. -/
theorem Given.visit (steady : search.Steady)
    (live : ∀ id, g.Reaches entry id → id ∈ g.nodeIds) :
    ∃ given, Given search g entry (id :: done)
      (search.visit (g.dominatorsFrom entry) (g.numbering entry) state id) given := by
  have core := visited.graph.core
  have fresh := before.fresh visited next
  unfold FollowSearch.visit
  simp only [steady.covers_eq visited.graph, steady.follow?_eq core, steady.region?_eq core]
  cases covered : search.covers g id with
  | false =>
    refine ⟨given, before.pass (fun f owns => ?_) before.once⟩
    cases covered.symm.trans owns.covered
  | true =>
    rw [if_pos rfl]
    cases found : search.follow? g (g.dominatorsFrom entry) (g.numbering entry) id with
    | none =>
      have waits : search.Waits g entry id := ⟨next.reached, covered, found⟩
      exact ⟨given, before.pass (fun _ => waits.not_owns)
        ((List.perm_middle.nodup_iff).mpr (List.nodup_cons.mpr ⟨fresh, before.once⟩))⟩
    | some f => exact ⟨_, before.resolve visited next live ⟨next.reached, covered, found⟩⟩

end

/-! ## Runs -/

/-- Some records are those of the conditionals that get a follow in the end, one for each. -/
structure Lists (search : FollowSearch) (g : FlowGraph) (entry : NodeId) (regions : List Region)
    (given : List (NodeId × NodeId)) : Prop where
  records : regions = given.filterMap fun pair => search.region? g pair.1 pair.2
  mem_iff : ∀ id f, (id, f) ∈ given ↔ search.Gets g entry id f
  once : (given.map Prod.fst).Nodup

variable {regions : List Region}

theorem Lists.congr (covers : search.covers g = search.covers h)
    (follow : search.follow? g = search.follow? h) (region : search.region? g = search.region? h)
    (core : g.SameCore h) (lists : Lists search g entry regions given) :
    Lists search h entry regions given where
  records := region ▸ lists.records
  mem_iff id f := by
    rw [lists.mem_iff]
    exact ⟨Gets.congr covers follow core, Gets.congr covers.symm follow.symm core.symm⟩
  once := lists.once

/-- What a search makes of a graph: the conditionals that get a follow are recorded and noted, and
nothing else is. -/
structure Finds (search : FollowSearch) (g h : FlowGraph) (entry : NodeId) (regions : List Region)
    (given : List (NodeId × NodeId)) : Prop where
  core : h.SameCore g
  lists : Lists search h entry regions given
  noted : ∀ id f, (id, f) ∈ given → h.notedFollow? id = some f
  kept : ∀ id, id ∉ given.map Prod.fst → h.notedFollow? id = g.notedFollow? id

theorem Steady.run_finds (steady : search.Steady) (wf : g.WellFormed)
    (entered : g.entry? = some entry) :
    ∃ regions h given, search.run g = .ok (regions, h) ∧ Finds search g h entry regions given := by
  have same := @sameCore_recordNumbers g (g.numbering entry)
  have noted (id : NodeId) : (g.recordNumbers (g.numbering entry)).notedFollow? id =
      g.notedFollow? id := (SameNotes.recordNumbers (fun _ _ _ _ => rfl) _).bind_eq id
  generalize numbered : g.recordNumbers (g.numbering entry) = k at same noted
  have wfNumbered := wf.of_sameCore same
  have entryLive := entry_live (same.entry_eq.trans entered)
  have live (id : NodeId) (reached : k.Reaches entry id) : id ∈ k.nodeIds :=
    reached.live wfNumbered entryLive
  have start : search.Visited k entry [] ⟨[], [], k⟩ := .start
  obtain ⟨all, state, ran, ⟨visited, given, found⟩, complete⟩ := run_induct wf entered numbered
    (motive := fun done state =>
      search.Visited k entry done state ∧ ∃ given, Given search k entry done state given)
    ⟨start, [], .start⟩
    fun next ⟨visited, given, before⟩ =>
      ⟨visited.visit steady next.reached next.below next.above,
        before.visit visited next steady live⟩
  refine ⟨state.regions, state.graph, given, ran, visited.graph.core.trans same,
    ⟨?_, fun id f => ?_, ?_⟩, found.noted, fun id missing => ?_⟩
  · rw [found.records, steady.region?_eq visited.graph.core]
  · rw [found.mem_iff, Gets.iff_of_sameButFollows steady visited.graph]
    constructor
    · rintro ⟨header, -, owns, resolved⟩
      exact ⟨header, owns, resolved⟩
    · rintro ⟨header, owns, resolved⟩
      exact ⟨header, complete header owns.reached, owns, resolved⟩
  · exact (List.nodup_append.mp found.once).1
  · rw [found.kept id missing, noted]

end FollowSearch

end ControlFlow.FlowGraph
