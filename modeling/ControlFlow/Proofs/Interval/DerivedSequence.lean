import ControlFlow.Interval.DerivedSequence
import ControlFlow.Proofs.Graph.Annotations
import ControlFlow.Proofs.Interval.Partition

/-! Derived sequences exist. The intervals of a graph have different headers, so their graph has no
two nodes of one label, one entry and no parallel edges: building it never fails. -/
namespace ControlFlow.FlowGraph

variable {g derived : FlowGraph} {intervals : List Interval}

theorem intervals_eq_ok {entry : NodeId} (entered : g.entry? = some entry) :
    g.intervals = .ok (g.intervalsFrom entry) := by
  rw [FlowGraph.intervals, FlowGraph.entry, entered]
  rfl

/-- Whether an interval stands for the entry. -/
def isEntryInterval (g : FlowGraph) (interval : Interval) : Bool :=
  g.entry? == some interval.header

/-- The attributes of the node that stands for an interval. -/
def intervalAttrs (g : FlowGraph) (interval : Interval) : AttrMap :=
  if g.isEntryInterval interval then .ofList [("entry", "true")] else .empty

theorem intervalAttrs_marksEntry (interval : Interval) :
    (g.intervalAttrs interval).marksEntry = g.isEntryInterval interval := by
  unfold intervalAttrs
  cases g.isEntryInterval interval <;> rfl

theorem addInterval_eq_ok {interval : Interval}
    (fresh : derived.find? (g.label interval.header) = none)
    (single : g.isEntryInterval interval = true → derived.entry? = none) :
    derived.addInterval g interval =
      .ok (derived.insertNode (g.label interval.header) (g.intervalAttrs interval)) := by
  have marked : (g.intervalAttrs interval).marksEntry = true → derived.entry? = none := by
    rw [intervalAttrs_marksEntry]
    exact single
  have added := addNode_eq_ok_iff.mpr ⟨fresh, marked, rfl⟩
  unfold intervalAttrs isEntryInterval at added
  simp only [addInterval, added]
  rfl

/-- Of different intervals at most one stands for the entry. -/
theorem isEntryInterval_eq_false {i j : Interval} (entering : g.isEntryInterval i = true)
    (different : i.header ≠ j.header) : g.isEntryInterval j = false := by
  rw [isEntryInterval, beq_iff_eq] at entering
  rw [isEntryInterval, entering, beq_eq_false_iff_ne]
  exact fun same => different (Option.some.inj same)

/-- What `insertNode` adds for an interval. -/
theorem mem_insertNode_interval {interval : Interval} {label : String} {marked : Bool} :
    (∃ n ∈ (derived.insertNode (g.label interval.header) (g.intervalAttrs interval)).nodes,
      n.label = label ∧ n.isEntry = marked) ↔
        (∃ n ∈ derived.nodes, n.label = label ∧ n.isEntry = marked) ∨
          g.label interval.header = label ∧ g.isEntryInterval interval = marked := by
  have entering : (derived.newNode (g.label interval.header)
      (g.intervalAttrs interval)).isEntry = g.isEntryInterval interval :=
    intervalAttrs_marksEntry interval
  simp only [mem_insertNode, or_and_right, exists_or, exists_eq_left, entering]
  exact or_comm

/-- Nodes for different intervals can be added one after the other. -/
theorem addIntervals_eq_ok (wf : g.WellFormed) (wfDerived : derived.WellFormed)
    (live : ∀ i ∈ intervals, i.header ∈ g.nodeIds) (nodup : (intervals.map Interval.header).Nodup)
    (fresh : ∀ i ∈ intervals, derived.find? (g.label i.header) = none)
    (single : ∀ i ∈ intervals, g.isEntryInterval i = true → derived.entry? = none) :
    ∃ h, intervals.foldlM (fun derived i => derived.addInterval g i) derived = .ok h ∧
      h.WellFormed ∧ h.edges = derived.edges ∧
      ∀ label marked, (∃ n ∈ h.nodes, n.label = label ∧ n.isEntry = marked) ↔
        (∃ n ∈ derived.nodes, n.label = label ∧ n.isEntry = marked) ∨
          ∃ i ∈ intervals, g.label i.header = label ∧ g.isEntryInterval i = marked := by
  induction intervals generalizing derived with
  | nil => exact ⟨derived, rfl, wfDerived, rfl, by simp⟩
  | cons interval rest ih =>
    obtain ⟨liveHead, live⟩ := List.forall_mem_cons.mp live
    obtain ⟨other, nodup⟩ := List.nodup_cons.mp nodup
    obtain ⟨freshHead, fresh⟩ := List.forall_mem_cons.mp fresh
    obtain ⟨singleHead, single⟩ := List.forall_mem_cons.mp single
    have different (i : Interval) (member : i ∈ rest) : i.header ≠ interval.header := by
      intro same
      exact other (same ▸ List.mem_map_of_mem member)
    have wfNext : (derived.insertNode (g.label interval.header)
        (g.intervalAttrs interval)).WellFormed :=
      wfDerived.insertNode freshHead (by rwa [intervalAttrs_marksEntry])
    have freshNext (i : Interval) (member : i ∈ rest) :
        (derived.insertNode (g.label interval.header) (g.intervalAttrs interval)).find?
          (g.label i.header) = none := by
      refine find?_insertNode_eq_none (fresh i member) fun same => ?_
      exact different i member (wf.label_inj (live i member) liveHead same.symm)
    have singleNext (i : Interval) (member : i ∈ rest) (entering : g.isEntryInterval i = true) :
        FlowGraph.entry? (derived.insertNode (g.label interval.header)
          (g.intervalAttrs interval)) = none := by
      refine entry?_insertNode_eq_none (single i member entering) ?_
      rw [intervalAttrs_marksEntry]
      exact isEntryInterval_eq_false entering (different i member)
    obtain ⟨h, ran, wellFormed, edges, nodes⟩ := ih wfNext live nodup freshNext singleNext
    refine ⟨h, ?_, wellFormed, edges, ?_⟩
    · rw [List.foldlM_cons, addInterval_eq_ok freshHead singleHead]
      exact ran
    · intro label marked
      rw [nodes, mem_insertNode_interval, or_assoc, List.exists_mem_cons_iff]

/-- The nodes that stand for two intervals. -/
def AreNodesOf (derived g : FlowGraph) (pair : Interval × Interval) (a b : NodeId) : Prop :=
  derived.find? (g.label pair.1.header) = some a ∧ derived.find? (g.label pair.2.header) = some b

/-- Only the headers of the same two intervals have the same two nodes. -/
theorem AreNodesOf.headers_eq (wf : g.WellFormed) (wfDerived : derived.WellFormed)
    {pair other : Interval × Interval} {a b : NodeId}
    (live : pair.1.header ∈ g.nodeIds ∧ pair.2.header ∈ g.nodeIds)
    (liveOther : other.1.header ∈ g.nodeIds ∧ other.2.header ∈ g.nodeIds)
    (nodes : derived.AreNodesOf g pair a b) (nodesOther : derived.AreNodesOf g other a b) :
    (pair.1.header, pair.2.header) = (other.1.header, other.2.header) := by
  have first : g.label pair.1.header = g.label other.1.header := by
    rw [← wfDerived.label_of_find? nodes.1, wfDerived.label_of_find? nodesOther.1]
  have second : g.label pair.2.header = g.label other.2.header := by
    rw [← wfDerived.label_of_find? nodes.2, wfDerived.label_of_find? nodesOther.2]
  exact Prod.ext (wf.label_inj live.1 liveOther.1 first) (wf.label_inj live.2 liveOther.2 second)

theorem addIntervalEdge_eq_ok {pair : Interval × Interval} {a b : NodeId}
    (nodes : derived.AreNodesOf g pair a b) (free : b ∉ derived.succs a) :
    derived.addIntervalEdge g pair = .ok (derived.insertEdge ⟨a, b, .empty⟩) := by
  have edge : derived.addEdge a b .empty =
      .ok (derived.nextEdge, derived.insertEdge ⟨a, b, .empty⟩) :=
    addEdge_eq_ok_iff.mpr ⟨find?_live nodes.1, find?_live nodes.2, free, rfl⟩
  simp only [addIntervalEdge, nodes.1, nodes.2, edge]
  rfl

theorem addIntervalEdge_skips {pair : Interval × Interval}
    (missing : ∀ a b, ¬derived.AreNodesOf g pair a b) :
    derived.addIntervalEdge g pair = .ok derived := by
  unfold addIntervalEdge
  split
  · next source target first second => exact absurd ⟨first, second⟩ (missing source target)
  · rfl

/-- Edges for different pairs of intervals can be added one after the other. -/
theorem addIntervalEdges_eq_ok (wf : g.WellFormed) (wfDerived : derived.WellFormed)
    {pairs : List (Interval × Interval)}
    (live : ∀ p ∈ pairs, p.1.header ∈ g.nodeIds ∧ p.2.header ∈ g.nodeIds)
    (nodup : (pairs.map fun p => (p.1.header, p.2.header)).Nodup)
    (free : ∀ p ∈ pairs, ∀ a b, derived.AreNodesOf g p a b → b ∉ derived.succs a) :
    ∃ h, pairs.foldlM (fun derived p => derived.addIntervalEdge g p) derived = .ok h ∧
      h.WellFormed ∧ h.nodes = derived.nodes ∧
      ∀ a b, h.Step a b ↔ derived.Step a b ∨ ∃ p ∈ pairs, derived.AreNodesOf g p a b := by
  induction pairs generalizing derived with
  | nil => exact ⟨derived, rfl, wfDerived, rfl, by simp⟩
  | cons pair rest ih =>
    obtain ⟨liveHead, live⟩ := List.forall_mem_cons.mp live
    obtain ⟨other, nodup⟩ := List.nodup_cons.mp nodup
    obtain ⟨freeHead, free⟩ := List.forall_mem_cons.mp free
    by_cases present : ∃ a b, derived.AreNodesOf g pair a b
    · obtain ⟨source, target, nodes⟩ := present
      have wfNext : (derived.insertEdge ⟨source, target, .empty⟩).WellFormed :=
        wfDerived.insertEdge (find?_live nodes.1) (find?_live nodes.2)
          (freeHead source target nodes)
      have freeNext : ∀ p ∈ rest, ∀ a b, derived.AreNodesOf g p a b →
          b ∉ (derived.insertEdge ⟨source, target, .empty⟩).succs a := by
        intro p member a b nodes' taken
        rcases mem_insertEdge_succs.mp taken with ⟨rfl, rfl⟩ | taken
        · have same := nodes.headers_eq wf wfDerived liveHead (live p member) nodes'
          exact other (List.mem_map.mpr ⟨p, member, same.symm⟩)
        · exact free p member a b nodes' taken
      obtain ⟨h, ran, wellFormed, sameNodes, steps⟩ := ih wfNext live nodup freeNext
      refine ⟨h, ?_, wellFormed, sameNodes, ?_⟩
      · rw [List.foldlM_cons, addIntervalEdge_eq_ok nodes (freeHead source target nodes)]
        exact ran
      · intro a b
        have newcomer : derived.AreNodesOf g pair a b ↔ a = source ∧ b = target := by
          unfold AreNodesOf
          rw [nodes.1, nodes.2, Option.some.injEq, Option.some.injEq, eq_comm, eq_comm (a := b)]
        rw [steps, Step, mem_insertEdge_succs, List.exists_mem_cons_iff, newcomer]
        exact (or_congr_left or_comm).trans or_assoc
    · have missing (a b : NodeId) : ¬derived.AreNodesOf g pair a b :=
        fun nodes => present ⟨a, b, nodes⟩
      obtain ⟨h, ran, wellFormed, sameNodes, steps⟩ := ih wfDerived live nodup free
      refine ⟨h, ?_, wellFormed, sameNodes, ?_⟩
      · rw [List.foldlM_cons, addIntervalEdge_skips missing]
        exact ran
      · intro a b
        rw [steps, List.exists_mem_cons_iff, or_iff_right (missing a b)]

/-- The pairs of intervals that get an edge differ in their headers. -/
theorem intervalEdges_nodup (nodup : (intervals.map Interval.header).Nodup) :
    ((g.intervalEdges intervals).map fun p => (p.1.header, p.2.header)).Nodup := by
  rw [intervalEdges, List.map_flatMap, List.nodup_flatMap]
  simp only [List.map_map, Function.comp_def]
  constructor
  · intro source _
    have targets := nodup.sublist (List.filter_sublist (p := fun target =>
      source.header != target.header && (g.preds target.header).any source.nodes.contains)
        |>.map Interval.header)
    have paired := targets.map (Prod.mk_right_injective source.header)
    rwa [List.map_map] at paired
  · refine (List.pairwise_map.mp nodup).imp ?_
    intro first second different pair left right
    obtain ⟨_, _, rfl⟩ := List.mem_map.mp left
    obtain ⟨_, _, same⟩ := List.mem_map.mp right
    exact different (Prod.mk.inj same).1.symm

theorem mem_intervalEdges {pair : Interval × Interval} : pair ∈ g.intervalEdges intervals ↔
    pair.1 ∈ intervals ∧ pair.2 ∈ intervals ∧ pair.1.header ≠ pair.2.header ∧
      ∃ p ∈ pair.1.nodes, g.Step p pair.2.header := by
  have entered (i j : Interval) : (g.preds j.header).any i.nodes.contains = true ↔
      ∃ p ∈ i.nodes, g.Step p j.header := by
    simp only [Step, ← mem_preds_iff_mem_succs, List.any_eq_true, List.contains_iff_mem, and_comm]
  simp only [intervalEdges, List.mem_flatMap, List.mem_map, List.mem_filter, Bool.and_eq_true,
    bne_iff_ne, entered]
  constructor
  · rintro ⟨source, first, target, ⟨second, different, edge⟩, rfl⟩
    exact ⟨first, second, different, edge⟩
  · rintro ⟨first, second, different, edge⟩
    exact ⟨pair.1, first, pair.2, ⟨second, different, edge⟩, rfl⟩

/-- A graph has a node for each of some intervals of another one, with the label of the header, and
an edge from one to another wherever control passes between their intervals. -/
structure Collapsed (g : FlowGraph) (intervals : List Interval) (h : FlowGraph) : Prop where
  wf : h.WellFormed
  nodes : ∀ label marked, (∃ n ∈ h.nodes, n.label = label ∧ n.isEntry = marked) ↔
    ∃ i ∈ intervals, g.label i.header = label ∧ g.isEntryInterval i = marked
  steps : ∀ a b, h.Step a b ↔ ∃ pair ∈ g.intervalEdges intervals, h.AreNodesOf g pair a b

/-- The graph of the intervals of a graph with an entry can be built. -/
theorem collapse_eq_ok (wf : g.WellFormed) {entry : NodeId} (live : entry ∈ g.nodeIds) :
    ∃ h, g.collapse (g.intervalsFrom entry) = .ok h ∧ g.Collapsed (g.intervalsFrom entry) h := by
  obtain ⟨nodup, headersLive, -⟩ := intervalsFrom_headers wf live
  obtain ⟨nodes, ranNodes, wfNodes, bare, nodesIff⟩ := addIntervals_eq_ok wf
    (wellFormed_empty g.name) headersLive nodup (fun _ _ => rfl) (fun _ _ _ => rfl)
  have liveEnds : ∀ p ∈ g.intervalEdges (g.intervalsFrom entry),
      p.1.header ∈ g.nodeIds ∧ p.2.header ∈ g.nodeIds := by
    intro p pair
    obtain ⟨source, target, -⟩ := mem_intervalEdges.mp pair
    exact ⟨headersLive _ source, headersLive _ target⟩
  have edgeless (a b : NodeId) : ¬nodes.Step a b := by
    intro edge
    rw [Step, mem_succs, bare] at edge
    simp [empty] at edge
  obtain ⟨h, ran, wfAll, sameNodes, stepsIff⟩ := addIntervalEdges_eq_ok wf wfNodes liveEnds
    (intervalEdges_nodup nodup) (fun _ _ a b _ => edgeless a b)
  refine ⟨h, ?_, wfAll, ?_, ?_⟩
  · rw [collapse, ranNodes]
    exact ran
  · intro label marked
    rw [sameNodes, nodesIff]
    simp [empty]
  · intro a b
    have same (label : String) : h.find? label = nodes.find? label := by
      rw [find?, sameNodes, find?]
    rw [stepsIff, or_iff_right (edgeless a b)]
    simp only [AreNodesOf, same]

namespace Collapsed

variable {h : FlowGraph} (collapsed : g.Collapsed intervals h)
include collapsed

/-- Every interval has a node. -/
theorem exists_node {i : Interval} (member : i ∈ intervals) :
    ∃ a, h.find? (g.label i.header) = some a := by
  obtain ⟨n, present, named, -⟩ :=
    (collapsed.nodes (g.label i.header) (g.isEntryInterval i)).mpr ⟨i, member, rfl, rfl⟩
  exact ⟨n.id, collapsed.wf.find?_eq_some_iff.mpr ⟨n, present, named, rfl⟩⟩

/-- Every node has an interval. -/
theorem exists_interval {a : NodeId} (live : a ∈ h.nodeIds) :
    ∃ i ∈ intervals, h.find? (g.label i.header) = some a := by
  obtain ⟨n, present, rfl⟩ := mem_nodeIds.mp live
  obtain ⟨i, member, named, -⟩ :=
    (collapsed.nodes n.label n.isEntry).mp ⟨n, present, rfl, rfl⟩
  exact ⟨i, member, collapsed.wf.find?_eq_some_iff.mpr ⟨n, present, named.symm, rfl⟩⟩

/-- The node for the interval of the entry is the entry. -/
theorem exists_entry {entry : NodeId} (entered : g.entry? = some entry)
    (starts : ∃ i ∈ intervals, i.header = entry) :
    ∃ a, h.entry? = some a ∧ h.find? (g.label entry) = some a := by
  obtain ⟨i, member, rfl⟩ := starts
  have marked : g.isEntryInterval i = true := by simp [isEntryInterval, entered]
  obtain ⟨n, present, named, entering⟩ :=
    (collapsed.nodes (g.label i.header) true).mpr ⟨i, member, rfl, marked⟩
  exact ⟨n.id, collapsed.wf.entry?_eq_some_iff.mpr ⟨n, present, entering, rfl⟩,
    collapsed.wf.find?_eq_some_iff.mpr ⟨n, present, named, rfl⟩⟩

end Collapsed

/-- One graph is derived from another one by making its intervals nodes. -/
structure Derives (g : FlowGraph) (start : NodeId) (h : FlowGraph) (start' : NodeId) : Prop where
  collapsed : g.Collapsed (g.intervalsFrom start) h
  entered : h.entry? = some start'
  starts : h.find? (g.label start) = some start'

/-- The levels of a derived sequence: each graph is derived from the one before it and smaller, and
the graph derived from the last one is not. -/
inductive Derivation : FlowGraph → NodeId → List Level → Prop where
  | last {g h : FlowGraph} {start start' : NodeId} (derives : g.Derives start h start')
      (same : ¬h.size < g.size) : Derivation g start [⟨g, g.intervalsFrom start⟩]
  | more {g h : FlowGraph} {start start' : NodeId} {levels : List Level}
      (derives : g.Derives start h start') (smaller : h.size < g.size)
      (rest : Derivation h start' levels) : Derivation g start (⟨g, g.intervalsFrom start⟩ :: levels)

theorem exists_derives (wf : g.WellFormed) {entry : NodeId} (entered : g.entry? = some entry) :
    ∃ h entry', g.collapse (g.intervalsFrom entry) = .ok h ∧ g.Derives entry h entry' := by
  obtain ⟨h, ran, collapsed⟩ := collapse_eq_ok wf (entry_live entered)
  obtain ⟨entry', entered', starts⟩ := collapsed.exists_entry entered
    (intervalsFrom_headers wf (entry_live entered)).2.2
  exact ⟨h, entry', ran, collapsed, entered', starts⟩

/-- The bound on the number of levels is never reached. -/
theorem levelsWithin_eq_ok (wf : g.WellFormed) {entry : NodeId} (entered : g.entry? = some entry)
    {bound : Nat} (enough : g.size ≤ bound) :
    ∃ levels, levelsWithin bound g = .ok levels ∧ Derivation g entry levels := by
  induction bound generalizing g entry with
  | zero => exact absurd (size_pos_of_entry entered) (Nat.not_lt.mpr enough)
  | succ bound ih =>
    obtain ⟨h, entry', collapsed, derives⟩ := exists_derives wf entered
    by_cases smaller : h.size < g.size
    · obtain ⟨levels, ran, derivation⟩ := ih derives.collapsed.wf derives.entered (by omega)
      refine ⟨_, ?_, .more derives smaller derivation⟩
      simp only [levelsWithin, intervals_eq_ok entered, bind, Except.bind, collapsed, smaller, ran,
        ↓reduceIte]
      rfl
    · refine ⟨_, ?_, .last derives smaller⟩
      simp only [levelsWithin, intervals_eq_ok entered, bind, Except.bind, collapsed, smaller,
        ↓reduceIte]
      rfl

/-- Every graph with an entry has a derived sequence. -/
theorem derivedSequence_eq_ok (wf : g.WellFormed) {entry : NodeId}
    (entered : g.entry? = some entry) :
    ∃ levels, g.derivedSequence = .ok levels ∧ Derivation g entry levels := by
  obtain ⟨levels, ran, derivation⟩ := levelsWithin_eq_ok wf entered (Nat.le_refl _)
  refine ⟨levels, ?_, derivation⟩
  rw [derivedSequence, FlowGraph.entry, entered]
  exact ran

end ControlFlow.FlowGraph
