import ControlFlow.Hammock.Reduction
import ControlFlow.Proofs.Except
import ControlFlow.Proofs.Graph.Annotations
import ControlFlow.Proofs.Hammock.Regions

/-! A reduction loses no execution and invents none. While a graph is reduced, each of its blocks
comes to stand for the ways through the blocks that have been merged into it. Read in this way, the
walks of the reduced graph are the walks of the original one, after every number of merges. -/
namespace ControlFlow.Hammock

open Computability

/-- What the blocks of a reduced graph stand for, by their labels. -/
structure Reading where
  /-- The sequences of original blocks that a block stands for. -/
  words : String → Language String
  /-- The original block at which all of them end. -/
  last : String → String

namespace Reading

/-- Before the first merge every block stands for itself. -/
def initial : Reading := ⟨fun label => {[label]}, id⟩

/-- After a merge the entry of the region stands for the whole region. -/
def merge (reading : Reading) (region : Region) : Reading where
  words := Function.update reading.words region.entry (region.reads reading.words)
  last := Function.update reading.last region.entry
    (reading.last (region.exit?.getD region.entry))

/-- The reading after some merges. -/
def after (regions : List Region) : Reading := regions.foldl merge initial

end Reading

/-- The sequences of blocks on the walks from one node to another. -/
def blockWalks (g : FlowGraph) (start id : NodeId) : Set (List String) :=
  {t | ∃ passed, g.Walk start id passed ∧ t = passed.map g.label}

/-- The concatenations of what the nodes on a walk from one node to another stand for. -/
def readWalks (g : FlowGraph) (words : String → Language String) (start id : NodeId) :
    Set (List String) :=
  {t | ∃ passed, g.Walk start id passed ∧ t ∈ (passed.map fun n => words (g.label n)).prod}

section

variable {g h : FlowGraph} {start entry id : NodeId} {words : String → Language String}

theorem readWalks_eq_traces :
    readWalks g words start id = traces g.Step (words ∘ g.label) start id := by
  ext t
  constructor
  · rintro ⟨passed, walk, read⟩
    induction walk generalizing t with
    | here =>
      rw [List.map_singleton, List.prod_singleton] at read
      exact .start read
    | step _ edge ih =>
      rw [List.map_append, List.prod_append, List.map_singleton, List.prod_singleton] at read
      obtain ⟨u, before, v, last, rfl⟩ := read
      exact Traced.step (ih u before) edge last
  · intro traced
    induction traced with
    | start read => exact ⟨[start], .here, by simpa using read⟩
    | step _ edge read ih =>
      obtain ⟨passed, walk, before⟩ := ih
      refine ⟨_, walk.step edge, ?_⟩
      rw [List.map_append, List.prod_append, List.map_singleton, List.prod_singleton]
      exact Language.append_mem_mul before read

theorem readWalks_initial : readWalks g Reading.initial.words start id = blockWalks g start id := by
  have single (passed : List NodeId) (t : List String) :
      t ∈ (passed.map fun n => Reading.initial.words (g.label n)).prod ↔ t = passed.map g.label := by
    induction passed generalizing t with
    | nil => simp [Language.mem_one]
    | cons n rest ih =>
      rw [List.map_cons, List.prod_cons, List.map_cons]
      constructor
      · rintro ⟨u, rfl, v, read, rfl⟩
        rw [(ih v).mp read]
        rfl
      · rintro rfl
        exact ⟨[g.label n], rfl, _, (ih _).mpr rfl, rfl⟩
  simp only [readWalks, blockWalks, single]

end

/-! ## One merge -/

/-- Every block of a reduced graph stands for the ways through the original graph to the block where
it ends. -/
structure Preserved (g : FlowGraph) (start : NodeId) (reading : Reading) (h : FlowGraph)
    (entry : NodeId) : Prop where
  wf : h.WellFormed
  entered : h.entry? = some entry
  walks : ∀ n ∈ h.nodeIds, ∃ b, g.find? (reading.last (h.label n)) = some b ∧
    readWalks h reading.words entry n = blockWalks g start b

section

variable {g h : FlowGraph} {start entry : NodeId} {reading : Reading} {region : Region}

theorem Preserved.initial (wf : g.WellFormed) (entered : g.entry? = some start) :
    Preserved g start .initial g start where
  wf := wf
  entered := entered
  walks n live := ⟨n, wf.find?_label live, readWalks_initial⟩

/-- The blocks of a match are live, and control does not enter the graph at one of them but the
head. -/
theorem Matched.live {layout : Layout} (wf : h.WellFormed) (entered : h.entry? = some entry)
    (head : layout.head ∈ h.nodeIds)
    (fits : Matched h (h.dominatorsFrom entry) region layout) :
    (∀ id ∈ layout.members, id ∈ h.nodeIds) ∧
      (entry ∈ layout.members → entry = layout.head) := by
  have exact := FlowGraph.exact_dominatorsFrom wf (FlowGraph.entry_live entered)
  constructor
  · intro id member
    rcases fits.dominated id member with rfl | dominates
    · exact head
    · exact ((exact.dominates_iff _ _).mp dominates).1.live wf (FlowGraph.entry_live entered)
  · intro member
    rcases fits.dominated entry member with same | dominates
    · exact same
    · exact ((exact.dominates_iff _ _).mp dominates).eq_root.symm

/-- A merge of a match keeps what the blocks stand for. -/
theorem Preserved.merge (preserved : Preserved g start reading h entry)
    (found : firstMatch? h (h.dominatorsFrom entry) = some region) :
    ∃ merged k entry', h.mergeRegion region = .ok (merged, k) ∧
      Preserved g start (reading.merge region) k entry' := by
  have wf := preserved.wf
  obtain ⟨layout, head, fits⟩ := matched_of_firstMatch found
  obtain ⟨live, entryInside⟩ := fits.live wf preserved.entered head
  have shaped := fits.shaped
  obtain ⟨merged, k, ran, done⟩ := shaped.mergeRegion_merged wf live
  have collapse := shaped.collapse wf done live
  have entered : k.entry? = some (if entry = layout.head then merged else entry) := by
    have inside : entry ∈ layout.members ↔ entry = layout.head :=
      ⟨entryInside, fun same => same ▸ shaped.head_mem⟩
    simpa only [inside] using done.entry preserved.entered
  have labels {n : NodeId} (old : n ∈ h.nodeIds) (outside : n ∉ layout.members) :
      k.label n = h.label n ∧ h.label n ≠ region.entry := by
    refine ⟨done.labelOutside old outside, fun same => outside ?_⟩
    rw [shaped.entry_eq] at same
    exact wf.label_inj old head same ▸ shaped.head_mem
  have wordsOutside (n : NodeId) (old : n ∈ h.nodeIds) (outside : n ∉ layout.members) :
      ((reading.merge region).words ∘ k.label) n = (reading.words ∘ h.label) n := by
    obtain ⟨same, other⟩ := labels old outside
    simp [Reading.merge, same, other]
  have wordsMerged : ((reading.merge region).words ∘ k.label) merged =
      innerTraces layout.inner (reading.words ∘ h.label) layout.head layout.exit := by
    rw [shaped.reads_eq]
    simp [Reading.merge, done.labelMerged, shaped.entry_eq]
  refine ⟨merged, k, _, ran, done.wf, entered, fun n stays => ?_⟩
  have which := done.nodeIds.mp stays
  have walks : readWalks k (reading.merge region).words
      (if entry = layout.head then merged else entry) n =
      readWalks h reading.words entry (if n = merged then layout.exit else n) := by
    rw [readWalks_eq_traces, readWalks_eq_traces]
    exact collapse.traces_eq wordsOutside wordsMerged (FlowGraph.entry_live preserved.entered)
      entryInside (which.symm.imp_right And.right)
  rw [walks]
  by_cases same : n = merged
  · rw [if_pos same]
    obtain ⟨b, ends, same'⟩ := preserved.walks layout.exit (live _ shaped.exit_mem)
    refine ⟨b, ?_, same'⟩
    simpa [Reading.merge, same, done.labelMerged, shaped.entry_eq, shaped.exit?_eq] using ends
  · rw [if_neg same]
    obtain ⟨old, outside⟩ := which.resolve_right same
    obtain ⟨b, ends, same'⟩ := preserved.walks n old
    obtain ⟨label, other⟩ := labels old outside
    exact ⟨b, by simpa [Reading.merge, label, other] using ends, same'⟩

end

/-! ## Whole runs -/

/-- What is to be done with a graph that control can enter. -/
theorem nextMove_eq {h : FlowGraph} {entry : NodeId} (entered : h.entry? = some entry) :
    h.size ≤ 1 ∧ nextMove h = .ok .done ∨ 1 < h.size ∧ nextMove h = .ok .stuck ∨
      ∃ region, nextMove h = .ok (.merge region) ∧
        firstMatch? h (h.dominatorsFrom entry) = some region := by
  by_cases small : h.size ≤ 1
  · exact .inl ⟨small, by simp [nextMove, small, pure, Except.pure]⟩
  · have dom := FlowGraph.dominators_eq_ok entered
    cases found : firstMatch? h (h.dominatorsFrom entry) with
    | none =>
      refine .inr (.inl ⟨Nat.lt_of_not_le small, ?_⟩)
      simp [nextMove, small, dom, found, bind, Except.bind, pure, Except.pure]
    | some region =>
      refine .inr (.inr ⟨region, ?_, rfl⟩)
      simp [nextMove, small, dom, found, bind, Except.bind, pure, Except.pure]

/-- What is to be merged next is the first match. -/
theorem firstMatch?_of_nextMove {h : FlowGraph} {entry : NodeId} {region : Region}
    (entered : h.entry? = some entry) (next : nextMove h = .ok (.merge region)) :
    firstMatch? h (h.dominatorsFrom entry) = some region := by
  rcases nextMove_eq entered with ⟨-, move⟩ | ⟨-, move⟩ | ⟨other, move, found⟩
  · rw [next] at move
    cases move
  · rw [next] at move
    cases move
  · rw [next] at move
    cases move
    exact found

/-- A run that nobody sees makes one move after the other, until a move fails. -/
theorem runWithin_silent (g : FlowGraph) (bound : Nat) (found : List Region) :
    Id.run (runWithin .silent (bound + 1) g found) =
      nextMove g >>= fun move =>
        match move with
        | .done => finished found g
        | .stuck => ended found g false
        | .merge region => g.mergeRegion region >>= fun result =>
          Id.run (runWithin .silent bound result.2 (found ++ [region])) := by
  rw [runWithin]
  cases nextMove g with
  | error error => rfl
  | ok move =>
    cases move with
    | done => rfl
    | stuck => rfl
    | merge region =>
      show _ = g.mergeRegion region >>= _
      dsimp only
      cases g.mergeRegion region with
      | error error => rfl
      | ok result => rfl

/-- Merges keep what the blocks stand for, as many as are made. -/
theorem runWithin_preserved {g h : FlowGraph} {start entry : NodeId} (k : Nat) (found : List Region)
    (preserved : Preserved g start (.after found) h entry) :
    ∃ analysis result entry', Id.run (runWithin .silent k h found) = .ok (analysis, result) ∧
      Preserved g start (.after analysis.regions) result entry' ∧
      (analysis.regions.length = found.length + k ∨
        analysis.regions.length < found.length + k ∧
          (nextMove result = .ok .done ∨ nextMove result = .ok .stuck)) := by
  induction k generalizing h entry found with
  | zero => exact ⟨_, h, entry, rfl, preserved, .inl rfl⟩
  | succ k ih =>
    rcases nextMove_eq preserved.entered with ⟨-, next⟩ | ⟨-, next⟩ | ⟨region, next, match?⟩
    · refine ⟨⟨found, none⟩, h, entry, ?_, preserved, .inr ⟨by simp, .inl next⟩⟩
      rw [runWithin_silent, next]
      rfl
    · refine ⟨⟨found, some ⟨h.size, false⟩⟩, h, entry, ?_, preserved, .inr ⟨by simp, .inr next⟩⟩
      rw [runWithin_silent, next]
      rfl
    · obtain ⟨merged, h', entry', ran, kept⟩ := preserved.merge match?
      have kept' : Preserved g start (.after (found ++ [region])) h' entry' := by
        simpa [Reading.after] using kept
      obtain ⟨analysis, result, last, run, preserved', count⟩ := ih (found ++ [region]) kept'
      refine ⟨analysis, result, last, ?_, preserved', ?_⟩
      · rw [runWithin_silent, next]
        exact bind_eq_ok_iff.mpr ⟨_, rfl, bind_eq_ok_iff.mpr ⟨_, ran, run⟩⟩
      · simpa [Nat.add_assoc, Nat.add_comm, Nat.add_left_comm] using count

/-- After any number of merges, a block of the reduced graph stands for the ways to the block where
it ends: the walks that lead to it, read block by block, are the walks of the original graph. Fewer
merges are made only when the graph is one block or no shape matches any more. -/
theorem runWithin_preserves_executions {g : FlowGraph} (wf : g.WellFormed)
    (valid : g.validate = .ok ()) (k : Nat) :
    ∃ start analysis h entry, g.entry? = some start ∧
      Id.run (runWithin .silent k g []) = .ok (analysis, h) ∧ h.entry? = some entry ∧
      (analysis.regions.length = k ∨
        analysis.regions.length < k ∧ (nextMove h = .ok .done ∨ nextMove h = .ok .stuck)) ∧
      ∀ n ∈ h.nodeIds,
        ∃ b, g.find? ((Reading.after analysis.regions).last (h.label n)) = some b ∧
          readWalks h (Reading.after analysis.regions).words entry n = blockWalks g start b := by
  obtain ⟨start, entered, -⟩ := (FlowGraph.validate_eq_ok_iff wf).mp valid
  obtain ⟨analysis, h, entry, ran, preserved, count⟩ :=
    runWithin_preserved k [] (Preserved.initial wf entered)
  rw [List.length_nil, Nat.zero_add] at count
  exact ⟨start, analysis, h, entry, entered, ran, preserved.entered, count, preserved.walks⟩

/-- A loop with a block in front of it. -/
def repeating : FlowGraph where
  name := "repeating"
  attrs := .empty
  nodes := [⟨0, "A", .ofList [("entry", "true")], .ofAttrs .empty⟩,
    ⟨1, "B", .empty, .ofAttrs .empty⟩, ⟨2, "C", .empty, .ofAttrs .empty⟩,
    ⟨3, "D", .empty, .ofAttrs .empty⟩]
  edges := [⟨0, 1, .empty⟩, ⟨1, 2, .ofList [("cond", "true")]⟩,
    ⟨1, 3, .ofList [("cond", "false")]⟩, ⟨2, 1, .empty⟩]
  nextNode := 4
  nextEdge := 4

theorem repeating_preserves_executions : repeating.WellFormed ∧ repeating.validate = .ok () ∧
    ∃ start analysis h entry, repeating.entry? = some start ∧
      Id.run (runWithin .silent 2 repeating []) = .ok (analysis, h) ∧ h.entry? = some entry ∧
      ∀ n ∈ h.nodeIds,
        ∃ b, repeating.find? ((Reading.after analysis.regions).last (h.label n)) = some b ∧
          readWalks h (Reading.after analysis.regions).words entry n =
            blockWalks repeating start b := by
  have wf : repeating.WellFormed := by decide
  have valid : repeating.validate = .ok () := by rfl
  obtain ⟨start, analysis, h, entry, entered, ran, live, -, walks⟩ :=
    runWithin_preserves_executions wf valid 2
  exact ⟨wf, valid, start, analysis, h, entry, entered, ran, live, walks⟩

/-- The loop is merged first, and then the block in front of it. -/
example : (Id.run (runWithin .silent 2 repeating [])).map (fun (analysis, h) =>
      (analysis.regions, h.nodeIds.map h.label)) =
    .ok ([.preLoop "B" "C" "D", .seq "A" "B"], ["A"]) := by
  rfl

end ControlFlow.Hammock
