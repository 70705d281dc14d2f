import ControlFlow.Proofs.Hammock.Matches

/-! When a shape matches. Each shape tests the steps around a node and then asks the dominator tree
whether the node dominates the blocks around it. Where every block is reached the tree has little to
add: control comes to those blocks through the node anyway, unless it starts at one of them. So all
but one of the shapes match by the steps alone, once the entry of the graph is excluded. The last is
that of a body from which nothing follows, where the tree tells a test from the test of a loop. -/
namespace ControlFlow.Hammock

variable {g : FlowGraph} {dom : DominatorTree} {start n a b : NodeId} {kind : RegionKind}
  {shape : Shape} {region : Region} {layout : Layout} {passed : List NodeId}

/-! ## What dominance adds -/

/-- Control comes to a block of a region through its head, unless it starts inside. -/
theorem Shaped.head_mem_walk (shaped : Shaped g region layout)
    (apart : ∀ b ∈ layout.members, b ≠ layout.head → b ≠ start) (walk : g.Walk start b passed)
    (inside : b ∈ layout.members) : layout.head ∈ passed := by
  induction walk with
  | here =>
    by_contra outside
    exact apart start inside (fun same => outside (by simp [same])) rfl
  | @step a passed b walk edge ih =>
    by_cases atHead : b = layout.head
    · simp [atHead]
    · refine List.mem_append_left _ (ih ?_)
      by_contra outside
      exact atHead (shaped.entering edge outside inside)

/-- All that the tests for dominance ask is that no block but the head is the entry. -/
theorem matched_iff (wf : g.WellFormed) (startLive : start ∈ g.nodeIds)
    (all : ∀ id ∈ g.nodeIds, g.Reaches start id) :
    Matched g (g.dominatorsFrom start) region layout ↔
      Shaped g region layout ∧ ∀ b ∈ layout.members, b ≠ layout.head → b ≠ start := by
  have dominates_iff := (FlowGraph.exact_dominatorsFrom wf startLive).dominates_iff
  constructor
  · rintro ⟨shaped, dominated⟩
    refine ⟨shaped, ?_⟩
    rintro b inside other rfl
    rcases dominated b inside with same | dominates
    · exact other same
    · exact other ((dominates_iff _ _).mp dominates).eq_root.symm
  · rintro ⟨shaped, apart⟩
    refine ⟨shaped, fun b inside => ?_⟩
    have live : b ∈ g.nodeIds := by
      obtain ⟨passed, walk, -⟩ := shaped.exists_walk inside
      exact FlowGraph.Reaches.live wf (shaped.head_live wf) ⟨passed, walk⟩
    exact .inr ((dominates_iff _ _).mpr
      ⟨all b live, fun passed walk => shaped.head_mem_walk apart walk inside⟩)

/-! ## What a shape asks -/

theorem eq_singleton {items : List NodeId} (nodup : items.Nodup)
    (only : ∀ x, x ∈ items ↔ x = a) : items = [a] :=
  List.perm_singleton.mp
    ((List.perm_ext_iff_of_nodup nodup (List.nodup_singleton a)).mpr (by simpa using only))

theorem eq_pair {items : List NodeId} (nodup : items.Nodup) (different : a ≠ b)
    (only : ∀ x, x ∈ items ↔ x = a ∨ x = b) : items = [a, b] ∨ items = [b, a] := by
  have perm : items.Perm [a, b] :=
    (List.perm_ext_iff_of_nodup nodup (by simpa using different)).mpr (by simpa using only)
  obtain ⟨x, y, rfl⟩ := List.length_eq_two.mp perm.length_eq
  have left := (only x).mp (by simp)
  have right := (only y).mp (by simp)
  simp only [List.nodup_cons, List.mem_singleton] at nodup
  grind

theorem comesOnlyFrom_of_step (wf : g.WellFormed) (only : ∀ x, g.Step x n ↔ x = a) :
    comesOnlyFrom g n a = true :=
  beq_iff_eq.mpr (eq_singleton (wf.preds_nodup n)
    fun x => FlowGraph.mem_preds_iff_mem_succs.trans (only x))

theorem goesOnlyTo_of_step (wf : g.WellFormed) (only : ∀ x, g.Step n x ↔ x = a) :
    goesOnlyTo g n a = true :=
  beq_iff_eq.mpr (eq_singleton (wf.succs_nodup n) only)

theorem comesFromBoth_of_step (wf : g.WellFormed) (different : a ≠ b)
    (only : ∀ x, g.Step x n ↔ x = a ∨ x = b) : comesFromBoth g n a b = true := by
  rw [comesFromBoth, Bool.or_eq_true, beq_iff_eq, beq_iff_eq]
  exact eq_pair (wf.preds_nodup n) different
    fun x => FlowGraph.mem_preds_iff_mem_succs.trans (only x)

theorem mem_sides (wf : g.WellFormed) (different : a ≠ b)
    (only : ∀ x, g.Step n x ↔ x = a ∨ x = b) : (a, b) ∈ sides g n := by
  unfold sides
  rcases eq_pair (wf.succs_nodup n) different only with arms | arms <;> simp [arms]

/-- Every layout is found by the shape of its kind, but for a body from which nothing follows: its
test must not be that of a loop. -/
theorem isSome_of_matched (wf : g.WellFormed) (listed : (kind, shape) ∈ shapes)
    (same : region.kind = kind) (fits : Matched g dom region layout)
    (loopless : kind = .ifReturn → ∀ p, g.Step p layout.head → dom.dominates layout.head p = false) :
    (shape g dom layout.head).isSome = true := by
  obtain ⟨shaped, dominated⟩ := fits
  have dominates {b : NodeId} (inside : b ∈ layout.members) (other : b ≠ layout.head) :
      dom.dominates layout.head b = true := (dominated b inside).resolve_left other
  subst same
  -- The steps give the successors that a shape starts from and pass all its tests but for dominance.
  cases shaped with
  | @seq entry exit distinct fromEntry toExit =>
    obtain rfl : shape = seq? := by simpa [shapes, Region.kind] using listed
    have other : exit ≠ entry := by grind
    have only := eq_singleton (wf.succs_nodup entry) fromEntry
    simp [seq?, only, other, comesOnlyFrom_of_step wf toExit, dominates]
  | @preLoop cond body exit distinct fromCond fromBody toBody toExit =>
    obtain rfl : shape = preLoop? := by simpa [shapes, Region.kind] using listed
    have others : body ≠ cond ∧ exit ≠ cond ∧ body ≠ exit := by grind
    refine List.findSome?_isSome_iff.mpr ⟨(body, exit), mem_sides wf others.2.2 fromCond, ?_⟩
    simp [distinct_iff.mpr distinct, comesOnlyFrom_of_step wf toBody,
      goesOnlyTo_of_step wf fromBody, comesOnlyFrom_of_step wf toExit, dominates, others]
  | @postLoop cond exit distinct fromCond toExit =>
    obtain rfl : shape = postLoop? := by simpa [shapes, Region.kind] using listed
    have other : cond ≠ exit := by grind
    refine List.findSome?_isSome_iff.mpr ⟨(cond, exit), mem_sides wf other fromCond, ?_⟩
    simp [other.symm, comesOnlyFrom_of_step wf toExit, dominates]
  | @ifThen cond body exit distinct fromCond fromBody toBody toExit =>
    obtain rfl : shape = ifThen? := by simpa [shapes, Region.kind] using listed
    have others : body ≠ cond ∧ exit ≠ cond ∧ body ≠ exit := by grind
    refine List.findSome?_isSome_iff.mpr ⟨(body, exit), mem_sides wf others.2.2 fromCond, ?_⟩
    simp [distinct_iff.mpr distinct, comesOnlyFrom_of_step wf toBody,
      goesOnlyTo_of_step wf fromBody, comesFromBoth_of_step wf others.1.symm toExit, dominates,
      others]
  | @ifReturn cond body exit distinct fromCond fromBody toBody toExit =>
    obtain rfl : shape = ifReturn? := by simpa [shapes, Region.kind] using listed
    have others : body ≠ cond ∧ exit ≠ cond ∧ body ≠ exit := by grind
    have last : g.succs body = [] := List.eq_nil_iff_forall_not_mem.mpr fromBody
    have unlooped : ¬(g.preds cond).any (dom.dominates cond) = true := by
      simp only [List.any_eq_true, not_exists, not_and]
      intro p before dominated
      cases (loopless rfl p (FlowGraph.mem_preds_iff_mem_succs.mp before)).symm.trans dominated
    rw [ifReturn?, if_neg unlooped]
    refine List.findSome?_isSome_iff.mpr ⟨(body, exit), mem_sides wf others.2.2 fromCond, ?_⟩
    simp [distinct_iff.mpr distinct, comesOnlyFrom_of_step wf toBody, last,
      comesOnlyFrom_of_step wf toExit, dominates, others]
  | @ifElse cond bodyTrue bodyFalse exit distinct fromCond fromTrue fromFalse toTrue toFalse toExit =>
    obtain rfl : shape = ifElse? := by simpa [shapes, Region.kind] using listed
    have others : bodyTrue ≠ cond ∧ bodyFalse ≠ cond ∧ exit ≠ cond ∧ bodyTrue ≠ bodyFalse := by
      grind
    have only := eq_singleton (wf.succs_nodup bodyTrue) fromTrue
    refine List.findSome?_isSome_iff.mpr
      ⟨(bodyTrue, bodyFalse), mem_sides wf others.2.2.2 fromCond, ?_⟩
    simp [only, distinct_iff.mpr distinct, comesOnlyFrom_of_step wf toTrue,
      comesOnlyFrom_of_step wf toFalse, goesOnlyTo_of_step wf fromFalse,
      comesFromBoth_of_step wf others.2.2.2 toExit, dominates, others]

/-! ## Where a shape matches -/

/-- Around a node there is a region of a kind, and only the node may be the entry of the graph. -/
structure Fits (g : FlowGraph) (start n : NodeId) (kind : RegionKind) (region : Region)
    (layout : Layout) : Prop where
  kind_eq : region.kind = kind
  head_eq : layout.head = n
  shaped : Shaped g region layout
  apart : ∀ b ∈ layout.members, b ≠ n → b ≠ start
  /-- The test in front of a body from which nothing follows is not that of a loop. -/
  loopless : kind = .ifReturn → ∀ p, g.Step p n → ¬g.Dominates start n p

section

variable (wf : g.WellFormed) (startLive : start ∈ g.nodeIds)
  (all : ∀ id ∈ g.nodeIds, g.Reaches start id) (listed : (kind, shape) ∈ shapes)
include wf startLive all listed

theorem fits_of_shape (found : shape g (g.dominatorsFrom start) n = some region) :
    ∃ layout, Fits g start n kind region layout := by
  obtain ⟨layout, rfl, same, fits⟩ := matched_of_shape listed found
  obtain ⟨shaped, apart⟩ := (matched_iff wf startLive all).mp fits
  refine ⟨layout, same, rfl, shaped, apart, ?_⟩
  rintro rfl p edge dominates
  obtain rfl : shape = ifReturn? := by simpa [shapes] using listed
  have seen := ((FlowGraph.exact_dominatorsFrom wf startLive).dominates_iff _ _).mpr dominates
  cases (not_dominates_of_ifReturn found edge).symm.trans seen

theorem isSome_of_fits (fits : Fits g start n kind region layout) :
    (shape g (g.dominatorsFrom start) n).isSome = true := by
  obtain ⟨same, rfl, shaped, apart, loopless⟩ := fits
  have matched := (matched_iff wf startLive all).mpr ⟨shaped, apart⟩
  refine isSome_of_matched wf listed same matched fun returns p edge => ?_
  rw [← Bool.not_eq_true, (FlowGraph.exact_dominatorsFrom wf startLive).dominates_iff]
  exact loopless returns p edge

end

/-- What is found first is found by some shape at some node. -/
theorem isSome_firstMatch?_iff (wf : g.WellFormed) : (firstMatch? g dom).isSome = true ↔
    ∃ kind shape n, (kind, shape) ∈ shapes ∧ (shape g dom n).isSome = true := by
  constructor
  · intro found
    obtain ⟨⟨kind, shape⟩, listed, found⟩ := List.findSome?_isSome_iff.mp found
    obtain ⟨n, -, found⟩ := List.findSome?_isSome_iff.mp found
    exact ⟨kind, shape, n, listed, found⟩
  · rintro ⟨kind, shape, n, listed, found⟩
    obtain ⟨region, same⟩ := Option.isSome_iff_exists.mp found
    obtain ⟨layout, rfl, -, fits⟩ := matched_of_shape listed same
    exact List.findSome?_isSome_iff.mpr ⟨(kind, shape), listed,
      List.findSome?_isSome_iff.mpr ⟨layout.head, fits.shaped.head_live wf, found⟩⟩

/-- A shape finds something at a node of a valid graph exactly if the blocks around the node are laid
out as its kind tells and none of them but the node is the entry, a body from which nothing follows
moreover only behind a test that dominates no block in front of it; and what it finds is such a
region. So something is found first exactly if some shape finds something at some node. -/
theorem shape_matches_iff (wf : g.WellFormed) (valid : g.validate = .ok ()) :
    ∃ start dom, g.entry? = some start ∧ g.dominators = .ok dom ∧
      (∀ kind shape n, (kind, shape) ∈ shapes →
        ((shape g dom n).isSome = true ↔ ∃ region layout, Fits g start n kind region layout) ∧
        ∀ region, shape g dom n = some region → ∃ layout, Fits g start n kind region layout) ∧
      ((firstMatch? g dom).isSome = true ↔
        ∃ kind shape n, (kind, shape) ∈ shapes ∧ (shape g dom n).isSome = true) := by
  obtain ⟨start, entered, all⟩ := (FlowGraph.validate_eq_ok_iff wf).mp valid
  have startLive := FlowGraph.entry_live entered
  refine ⟨start, _, entered, FlowGraph.dominators_eq_ok entered, fun kind shape n listed => ?_,
    isSome_firstMatch?_iff wf⟩
  have found (region : Region) (same : shape g (g.dominatorsFrom start) n = some region) :
      ∃ layout, Fits g start n kind region layout := fits_of_shape wf startLive all listed same
  refine ⟨⟨fun some => ?_, ?_⟩, found⟩
  · obtain ⟨region, same⟩ := Option.isSome_iff_exists.mp some
    exact ⟨region, found region same⟩
  · rintro ⟨region, layout, fits⟩
    exact isSome_of_fits wf startLive all listed fits

/-- Two blocks that lead to each other. Control enters at the first. -/
def circling : FlowGraph where
  name := "circling"
  attrs := .empty
  nodes := [⟨0, "A", .ofList [("entry", "true")], .ofAttrs .empty⟩,
    ⟨1, "B", .empty, .ofAttrs .empty⟩]
  edges := [⟨0, 1, .empty⟩, ⟨1, 0, .empty⟩]
  nextNode := 2
  nextEdge := 2

theorem circling_matches : circling.WellFormed ∧ circling.validate = .ok () ∧
    ∃ dom, circling.dominators = .ok dom ∧ (RegionKind.seq, seq?) ∈ shapes ∧
      (seq? circling dom 0).isSome = true ∧ (seq? circling dom 1).isSome = false ∧
      (firstMatch? circling dom).isSome = true := by
  have wf : circling.WellFormed := by decide
  have valid : circling.validate = .ok () := by rfl
  have listed : (RegionKind.seq, seq?) ∈ shapes := by simp [shapes]
  obtain ⟨start, dom, entered, computed, matching, first⟩ := shape_matches_iff wf valid
  obtain rfl : 0 = start := Option.some.inj entered
  have step (a b : NodeId) : circling.Step a b ↔ a = 0 ∧ b = 1 ∨ a = 1 ∧ b = 0 := by
    simp [FlowGraph.Step, FlowGraph.mem_succs, circling, eq_comm]
  have shaped : Shaped circling (.seq (circling.label 0) (circling.label 1))
      ⟨0, 1, [0, 1], [(0, 1)]⟩ := .seq (by decide) (by simp [step]) (by simp [step])
  have atEntry : (seq? circling dom 0).isSome = true :=
    ((matching _ _ 0 listed).1).mpr ⟨_, _, rfl, rfl, shaped, by decide, by simp⟩
  have behind : (seq? circling dom 1).isSome = false := by
    rw [← Bool.not_eq_true, (matching _ _ 1 listed).1]
    rintro ⟨region, layout, same, atNode, shaped, apart, -⟩
    cases shaped with
    | @seq entry exit distinct fromEntry toExit =>
      obtain rfl : entry = 1 := atNode
      obtain rfl : 0 = exit := (fromEntry 0).mp (by simp [step])
      exact apart 0 (by simp) (by decide) rfl
    | _ => cases same
  exact ⟨wf, valid, dom, computed, listed, atEntry, behind, first.mpr ⟨_, _, 0, listed, atEntry⟩⟩

end ControlFlow.Hammock
