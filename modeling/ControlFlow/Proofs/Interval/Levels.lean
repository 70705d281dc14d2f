import ControlFlow.Proofs.Interval.Collapse

/-! The levels of a derived sequence are quotients of its first graph. A block is absorbed by an
interval at every level, and the label of the interval says which block stands for it at the next.
Since control enters an interval at its header only, an edge of a level is an edge of the first graph
that leads from one of the blocks that its source stands for to the very block that its target is
named for. No edge between two parts is lost on the way, and none is invented. -/
namespace ControlFlow

namespace Level

/-- The label of the interval that absorbs a block. -/
def absorber? (level : Level) (label : String) : Option String := do
  let n ← level.graph.find? label
  let interval ← level.intervals.find? (·.nodes.contains n)
  pure (level.graph.label interval.header)

/-- The label of the node that stands for a block behind some levels. -/
def representative? (passed : List Level) (label : String) : Option String :=
  passed.foldlM (fun label level => level.absorber? label) label

theorem representative?_concat {passed : List Level} {level : Level} {label : String} :
    representative? (passed ++ [level]) label =
      (representative? passed label).bind level.absorber? := by
  simp [representative?, List.foldlM_append]

/-- A level that stands behind some others in the derived sequence of a graph. -/
structure Represents (level : Level) (g : FlowGraph) (entry : NodeId) (passed : List Level) :
    Prop where
  valid : level.graph.validate = .ok ()
  entered : level.graph.entry?.map level.graph.label = some (g.label entry)
  divided : level.graph.intervals = .ok level.intervals
  represented : ∀ u ∈ g.nodeIds, ∃ a ∈ level.graph.nodeIds,
    representative? passed (g.label u) = some (level.graph.label a)
  /-- A node has the label of a block that it stands for. -/
  named : ∀ a ∈ level.graph.nodeIds, ∃ v ∈ g.nodeIds, g.label v = level.graph.label a ∧
    representative? passed (g.label v) = some (level.graph.label a)
  loopless : passed ≠ [] → ∀ a, ¬level.graph.Step a a
  edges : passed ≠ [] → ∀ a ∈ level.graph.nodeIds, ∀ b ∈ level.graph.nodeIds,
    (level.graph.Step a b ↔ a ≠ b ∧ ∃ u v, g.Step u v ∧
      representative? passed (g.label u) = some (level.graph.label a) ∧
      g.label v = level.graph.label b)

end Level

namespace FlowGraph

variable {g h k : FlowGraph} {start start' start'' a b n : NodeId} {levels passed : List Level}

/-! ## One level -/

/-- The edges of a quotient without loops are those that enter a part at its top. -/
theorem IsQuotient.step_iff {rep top : NodeId → NodeId}
    (quotient : g.IsQuotient start h start' rep top) (loopless : ∀ a, ¬h.Step a a)
    (all : ∀ n ∈ g.nodeIds, g.Reaches start n) (wf : g.WellFormed) (right : b ∈ h.nodeIds) :
    h.Step a b ↔ a ≠ b ∧ ∃ u, g.Step u (top b) ∧ rep u = a := by
  constructor
  · intro edge
    obtain ⟨u, -, same, enters⟩ := quotient.step_lifts a b edge
    refine ⟨?_, u, enters, same⟩
    rintro rfl
    exact loopless a edge
  · rintro ⟨different, u, enters, rfl⟩
    rcases quotient.step u (top b) (all u (wf.source_live enters)) enters with same | ⟨edge, -⟩
    · rw [quotient.rep_top b right] at same
      exact absurd same different
    · rwa [quotient.rep_top b right] at edge

/-- The interval that absorbs a block names the node that stands for the block. -/
theorem Derives.absorber?_eq (derives : g.Derives start h start') (wf : g.WellFormed)
    (live : start ∈ g.nodeIds) (reached : g.Reaches start n) :
    Level.absorber? ⟨g, g.intervalsFrom start⟩ (g.label n) =
      some (h.label (g.repIn h (g.intervalsFrom start) n)) := by
  have divides := intervalsFrom_divides wf live
  obtain ⟨i, found, member⟩ := divides.exists_interval reached
  obtain ⟨a, name⟩ := derives.collapsed.exists_node found
  simp only [Level.absorber?, wf.find?_label (reached.live wf live), Option.bind_eq_bind,
    Option.bind_some, find?_interval divides found member, Option.pure_def]
  rw [repIn_eq divides found name member, derives.collapsed.wf.label_of_find? name]

/-- A graph has no more intervals than nodes. -/
theorem length_intervalsFrom_le (wf : g.WellFormed) (live : start ∈ g.nodeIds) :
    (g.intervalsFrom start).length ≤ g.size := by
  obtain ⟨nodup, headersLive, -⟩ := intervalsFrom_headers wf live
  have inside : (g.intervalsFrom start).map Interval.header ⊆ g.nodeIds := by
    intro id listed
    obtain ⟨i, found, rfl⟩ := List.mem_map.mp listed
    exact headersLive i found
  have fewer := (nodup.subperm inside).length_le
  rwa [List.length_map, nodeIds, List.length_map] at fewer

/-! ## From level to level -/

/-- What the levels that were passed make of a graph: a quotient whose nodes have the labels of the
representatives. -/
structure Descends (g : FlowGraph) (start : NodeId) (passed : List Level) (h : FlowGraph)
    (entry : NodeId) : Prop where
  entered : h.entry? = some entry
  quotient : ∃ rep top, g.IsQuotient start h entry rep top ∧
    ∀ u ∈ g.nodeIds, Level.representative? passed (g.label u) = some (h.label (rep u))
  loopless : passed ≠ [] → ∀ a, ¬h.Step a a

namespace Descends

theorem refl (wf : g.WellFormed) (entered : g.entry? = some start)
    (all : ∀ n ∈ g.nodeIds, g.Reaches start n) : Descends g start [] g start where
  entered := entered
  quotient := ⟨id, id, .refl wf (entry_live entered) all, fun _ _ => rfl⟩
  loopless none := absurd rfl none

variable (descends : Descends g start passed h start')
  (all : ∀ n ∈ g.nodeIds, g.Reaches start n)
include descends all

/-- The next level. -/
theorem derive (derives : h.Derives start' k start'') :
    Descends g start (passed ++ [⟨h, h.intervalsFrom start'⟩]) k start'' where
  entered := derives.entered
  quotient := by
    obtain ⟨rep, top, quotient, represented⟩ := descends.quotient
    have next := derives.isQuotient quotient.wf quotient.live
    refine ⟨_, _, quotient.trans next, ?_⟩
    intro u live
    rw [Level.representative?_concat, represented u live, Option.bind_some]
    exact derives.absorber?_eq quotient.wf quotient.live (quotient.reaches_rep (all u live))
  loopless _ := by
    obtain ⟨rep, top, quotient, -⟩ := descends.quotient
    exact derives.loopless quotient.wf quotient.live

/-- The edges of a level behind the first one, by the labels of their ends. -/
theorem step_iff (wf : g.WellFormed) (live : start ∈ g.nodeIds) (later : passed ≠ [])
    (left : a ∈ h.nodeIds) (right : b ∈ h.nodeIds) :
    h.Step a b ↔ a ≠ b ∧ ∃ u v, g.Step u v ∧
      Level.representative? passed (g.label u) = some (h.label a) ∧ g.label v = h.label b := by
  obtain ⟨rep, top, quotient, represented⟩ := descends.quotient
  rw [quotient.step_iff (descends.loopless later) all wf right]
  refine and_congr_right fun different => exists_congr fun u => ?_
  constructor
  · rintro ⟨enters, rfl⟩
    exact ⟨top b, enters, represented u (wf.source_live enters), quotient.label_top b right⟩
  · rintro ⟨v, enters, stands, name⟩
    -- Labels tell the nodes of both graphs apart.
    obtain rfl : v = top b := wf.label_inj (wf.target_live enters)
      ((quotient.top_reached b right).live wf live)
      (name.trans (quotient.label_top b right).symm)
    refine ⟨enters, ?_⟩
    have source := wf.source_live enters
    rw [represented u source, Option.some.injEq] at stands
    exact quotient.wf.label_inj (quotient.rep_live u (all u source)) left stands

/-- A level that is reached represents the graph. -/
theorem represents (wf : g.WellFormed) (live : start ∈ g.nodeIds) :
    Level.Represents ⟨h, h.intervalsFrom start'⟩ g start passed := by
  obtain ⟨rep, top, quotient, represented⟩ := descends.quotient
  refine {
    valid := ?_
    entered := ?_
    divided := intervals_eq_ok descends.entered
    represented := ?_
    named := ?_
    loopless := descends.loopless
    edges := fun later a left b right => descends.step_iff all wf live later left right }
  · exact (validate_eq_ok_iff quotient.wf).mpr
      ⟨start', descends.entered, fun n inside => quotient.reaches inside⟩
  · rw [descends.entered, Option.map_some, ← quotient.label_top start' quotient.live,
      quotient.top_start]
  · intro u inside
    exact ⟨rep u, quotient.rep_live u (all u inside), represented u inside⟩
  · intro a inside
    have same := quotient.label_top a inside
    have source := (quotient.top_reached a inside).live wf live
    refine ⟨top a, source, same, ?_⟩
    rw [← same, represented _ source, quotient.rep_top a inside, same]

end Descends

/-! ## The whole sequence -/

namespace Derivation

/-- Every level behind those that were passed represents the graph. -/
theorem represents (derivation : Derivation h start' levels) (wf : g.WellFormed)
    (live : start ∈ g.nodeIds) (all : ∀ n ∈ g.nodeIds, g.Reaches start n)
    (descends : Descends g start passed h start') :
    ∀ before level after, levels = before ++ level :: after →
      Level.Represents level g start (passed ++ before) := by
  induction derivation generalizing passed with
  | last derives same =>
    intro before level after split
    obtain ⟨rfl, only⟩ | ⟨-, none⟩ := List.singleton_eq_append_iff.mp split
    · obtain ⟨rfl, -⟩ := List.cons.inj only
      rw [List.append_nil]
      exact descends.represents all wf live
    · cases none
  | more derives smaller rest ih =>
    intro before level after split
    cases before with
    | nil =>
      obtain ⟨rfl, -⟩ := List.cons.inj split
      rw [List.append_nil]
      exact descends.represents all wf live
    | cons first before =>
      obtain ⟨rfl, rest⟩ := List.cons.inj split
      have next := ih (descends.derive all derives) before level after rest
      rwa [List.append_assoc] at next

/-- A sequence begins with its graph. -/
theorem head?_graph (derivation : Derivation g start levels) :
    levels.head?.map Level.graph = some g := by
  cases derivation <;> rfl

/-- Every level is smaller than the one before it. -/
theorem decreases (derivation : Derivation g start levels) :
    levels.IsChain fun upper lower => lower.graph.size < upper.graph.size := by
  induction derivation with
  | last derives same => exact .singleton _
  | more derives smaller rest ih =>
    cases rest with
    | last derives' same => exact .cons_cons smaller ih
    | more derives' smaller' rest' => exact .cons_cons smaller ih

/-- The last level has an interval for every node. -/
theorem fixed (derivation : Derivation g start levels) (wf : g.WellFormed)
    (live : start ∈ g.nodeIds) :
    ∃ limit, levels.getLast? = some limit ∧ limit.intervals.length = limit.graph.size := by
  induction derivation with
  | @last g h start start' derives same =>
    refine ⟨⟨g, g.intervalsFrom start⟩, rfl, ?_⟩
    show (g.intervalsFrom start).length = g.size
    have few := length_intervalsFrom_le wf live
    have size := derives.collapsed.size_eq wf live (intervalsFrom_divides wf live)
    omega
  | more derives smaller rest ih =>
    have quotient := derives.isQuotient wf live
    obtain ⟨limit, last, fixed⟩ := ih quotient.wf quotient.live
    refine ⟨limit, ?_, fixed⟩
    rw [List.getLast?_cons, last]
    rfl

end Derivation

/-- The derived sequence of a valid graph begins with the graph and gets smaller with every level, until
it has an interval for every node. All its levels are exact quotients of the graph. -/
theorem derivedSequence_represents (wf : g.WellFormed) (valid : g.validate = .ok ()) :
    ∃ entry levels, g.entry? = some entry ∧ g.derivedSequence = .ok levels ∧
      levels.head?.map Level.graph = some g ∧
      (levels.IsChain fun upper lower => lower.graph.size < upper.graph.size) ∧
      (∀ before level after, levels = before ++ level :: after →
        Level.Represents level g entry before) ∧
      ∃ limit, levels.getLast? = some limit ∧ limit.intervals.length = limit.graph.size := by
  obtain ⟨entry, entered, all⟩ := (validate_eq_ok_iff wf).mp valid
  have live := entry_live entered
  obtain ⟨levels, derived, derivation⟩ := derivedSequence_eq_ok wf entered
  exact ⟨entry, levels, entered, derived, derivation.head?_graph, derivation.decreases,
    derivation.represents wf live all (.refl wf entered all), derivation.fixed wf live⟩

/-- A loop, behind it a block that repeats itself, and a way around both. -/
def bypassed : FlowGraph where
  name := "bypassed"
  attrs := .empty
  nodes := [⟨0, "A", .ofList [("entry", "true")], .ofAttrs .empty⟩,
    ⟨1, "B", .empty, .ofAttrs .empty⟩, ⟨2, "C", .empty, .ofAttrs .empty⟩,
    ⟨3, "D", .empty, .ofAttrs .empty⟩, ⟨4, "E", .empty, .ofAttrs .empty⟩]
  edges := [⟨0, 1, .empty⟩, ⟨1, 2, .empty⟩, ⟨2, 1, .empty⟩, ⟨2, 3, .empty⟩, ⟨3, 3, .empty⟩,
    ⟨3, 4, .empty⟩, ⟨0, 4, .empty⟩]
  nextNode := 5
  nextEdge := 7

/-- B takes C in at the first level, and A takes B in at the second. -/
example : bypassed.derivedSequence.map (fun levels =>
      (Level.representative? (levels.take 1) "C", Level.representative? (levels.take 2) "C")) =
    .ok (some "B", some "A") := by
  rfl

theorem bypassed_represents : bypassed.WellFormed ∧ bypassed.validate = .ok () ∧
    ∃ levels, bypassed.derivedSequence = .ok levels ∧
      levels.map (fun level => level.graph.nodeIds.map level.graph.label) =
        [["A", "B", "C", "D", "E"], ["A", "B", "D", "E"], ["A"]] ∧
      ∀ before level after, levels = before ++ level :: after →
        Level.Represents level bypassed 0 before := by
  have wf : bypassed.WellFormed := by decide
  have valid : bypassed.validate = .ok () := by rfl
  have labels : bypassed.derivedSequence.map
      (List.map fun level => level.graph.nodeIds.map level.graph.label) =
        .ok [["A", "B", "C", "D", "E"], ["A", "B", "D", "E"], ["A"]] := by rfl
  obtain ⟨entry, levels, entered, derived, -, -, represents, -⟩ :=
    derivedSequence_represents wf valid
  obtain rfl : entry = 0 := (Option.some.inj entered).symm
  rw [derived] at labels
  exact ⟨wf, valid, levels, derived, Except.ok.inj labels, represents⟩

end FlowGraph

end ControlFlow
