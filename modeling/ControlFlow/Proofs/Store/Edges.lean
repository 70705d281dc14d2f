import ControlFlow.Proofs.Store.Holds
import ControlFlow.Proofs.Store.Lookups
import ControlFlow.Store.Update

/-! Edges in the tables. A graph lists its edges in one order, of which the tables keep the part for each
node: among edges that leave one node it is the order of their branches and targets, and among edges
that enter one node that of their sources. So an edge that is put into two lists, taken out of them or
moved in one of them stands where the graph has it. -/
namespace ControlFlow.Store

variable {s : Store} {g : FlowGraph} {i j : EdgeId} {e f : Edge}

/-! ## Comparing by number -/

theorem compareOutgoing_eq (labels : s.label = g.label) (left : s.edgeAt? i = some e)
    (right : s.edgeAt? j = some f) (same : e.source = f.source) :
    s.compareOutgoing i j = g.compareEdges e f := by
  simp only [compareOutgoing, left, right, labels, FlowGraph.compareEdges_of_source same]

theorem compareIncoming_eq (labels : s.label = g.label) (wf : g.WellFormed)
    (left : s.edgeAt? i = some e) (right : s.edgeAt? j = some f) (leftLive : e.source ∈ g.nodeIds)
    (rightLive : f.source ∈ g.nodeIds) (different : e.source ≠ f.source) :
    s.compareIncoming i j = g.compareEdges e f := by
  simp only [compareIncoming, left, right, labels,
    wf.compareEdges_of_sources leftLive rightLive different]

/-! ## Adding an edge -/

theorem edgeAt?_push (s : Store) (edge : Edge) (i : EdgeId) :
    (s.pushEdge edge).edgeAt? i =
      if i = s.edges.size then some edge else s.edgeAt? i := by
  simp only [edgeAt?, pushEdge, Array.getElem?_push]
  split <;> rfl

theorem edgeAt?_size (s : Store) : s.edgeAt? s.edges.size = none := by
  simp [edgeAt?]

/-- Listed edges stay where they are when an edge is added to the arena. -/
theorem edgeAt?_push_of_listed {table : Adjacency} {side : Edge → NodeId} {edges : List Edge}
    (lists : table.Lists s.edgeAt? side edges) (edge : Edge) {id : NodeId}
    (member : i ∈ table.listAt id) :
    (s.pushEdge edge).edgeAt? i = s.edgeAt? i := by
  rw [edgeAt?_push, if_neg]
  rintro rfl
  exact lists.not_mem_of_unused s.edgeAt?_size id member

namespace Holds

variable (holds : s.Holds g) (sound : g.Sound)
include holds sound

theorem insertEdge {edge : Edge} (source : edge.source ∈ g.nodeIds)
    (target : edge.target ∈ g.nodeIds) (free : edge.target ∉ g.succs edge.source) :
    (s.insertEdge edge).Holds (g.insertEdge edge) := by
  have pushed := s.edgeAt?_push edge
  have last := (pushed s.edges.size).trans (if_pos rfl)
  have labels : (s.pushEdge edge).label = g.label := holds.label
  have parted := parted_of_sorted sound.ordered.edges edge
  exact {
    name := holds.name
    attrs := holds.attrs
    node? := holds.node?
    order := holds.order
    find? := holds.find?
    entry := holds.entry
    outgoing := by
      refine holds.outgoing.insert s.edgeAt?_size
        (holds.outgoingSize.symm ▸ sound.wf.idsBelow _ source) pushed parted fun i member => ?_
      obtain ⟨e, -, found, atSource⟩ := holds.outgoing.live member
      have here := (edgeAt?_push_of_listed holds.outgoing edge member).trans found
      rw [compareOutgoing_eq labels here last atSource, found]
      rfl
    incoming := by
      refine holds.incoming.insert s.edgeAt?_size
        (holds.incomingSize.symm ▸ sound.wf.idsBelow _ target) pushed parted fun i member => ?_
      obtain ⟨e, there, found, atTarget⟩ := holds.incoming.live member
      have here := (edgeAt?_push_of_listed holds.incoming edge member).trans found
      have different : e.source ≠ edge.source := fun same =>
        free (FlowGraph.mem_succs.mpr ⟨e, there, same, atTarget⟩)
      rw [compareIncoming_eq labels sound.wf here last (sound.wf.edgesLive e there).1 source
        different, found]
      rfl
    nodesSize := holds.nodesSize
    edgesSize := (Array.size_push _).trans (congrArg (· + 1) holds.edgesSize)
    outgoingSize := Array.size_modify.trans holds.outgoingSize
    incomingSize := Array.size_modify.trans holds.incomingSize }

theorem addEdge (source target : NodeId) (attrs : AttrMap) :
    s.Mirrors (addEdge source target attrs) (g.addEdge source target attrs) := by
  have taken : (s.edgeId? source target).isSome = g.hasEdge source target := by
    have found := congrArg Option.isSome (holds.edgeId? source target)
    rwa [Option.isSome_map, Option.isSome_map] at found
  refine mirrors_of_runOn (a := s.edges.size) (t := s.insertEdge { source, target, attrs }) ?_ ?_
  · rw [Store.addEdge, Procedure.runOn_get_bind, holds.contains, holds.contains, holds.label, taken,
      FlowGraph.addEdge]
    cases !g.contains source || !g.contains target <;> cases g.hasEdge source target <;> rfl
  · intro id h added
    obtain ⟨sourceLive, targetLive, free, result⟩ := FlowGraph.addEdge_eq_ok_iff.mp added
    obtain ⟨rfl, rfl⟩ := Prod.mk.inj result
    exact ⟨holds.edgesSize.symm, holds.insertEdge sound sourceLive targetLive free⟩

/-! ## Removing an edge -/

omit sound in
/-- What is found for two ends is the number of an edge between them. -/
theorem edge?_of_edgeId? {source target : NodeId} (found : s.edgeId? source target = some i) :
    ∃ e, s.edgeAt? i = some e ∧ g.edge? source target = some e := by
  have same := holds.edgeId? source target
  rw [found, Option.map_some] at same
  obtain ⟨e, there, here⟩ := Option.map_eq_some_iff.mp same.symm
  exact ⟨e, here.symm, there⟩

omit sound in
theorem edge?_of_edgeId?_none {source target : NodeId} (none : s.edgeId? source target = none) :
    g.edge? source target = Option.none := by
  have same := holds.edgeId? source target
  rw [none, Option.map_none] at same
  exact Option.map_eq_none_iff.mp same.symm

/-- A number is that of the edge between two nodes when the edge that it stands for has these ends. -/
theorem eq_of_ends (found : s.edgeAt? i = some e) (other : s.edgeAt? j = some f)
    (source : f.source = e.source) (target : f.target = e.target) : j = i := by
  have left := holds.outgoing.mem_edges_iff.mpr ⟨i, found⟩
  have right := holds.outgoing.mem_edges_iff.mpr ⟨j, other⟩
  obtain rfl := sound.wf.eq_of_ends right left (Prod.ext source target)
  exact holds.outgoing.number_inj sound.wf.edges_nodup other found

theorem eraseEdge (found : s.edgeAt? i = some e) :
    (s.eraseEdge e.source e.target i).Holds (g.removeEdge e.source e.target) := by
  have after (j : EdgeId) : (s.eraseEdge e.source e.target i).edgeAt? j =
      if j = i then none else s.edgeAt? j :=
    joined_set_none s.edges i j
  have kept (j : EdgeId) : (s.eraseEdge e.source e.target i).edgeAt? j =
      (s.edgeAt? j).filter fun f => !(f.source == e.source && f.target == e.target) := by
    rw [after]
    cases other : s.edgeAt? j with
    | none => simp
    | some f =>
      split
      · next same =>
        subst same
        obtain rfl := Option.some.inj (found.symm.trans other)
        rw [Option.filter_some, if_neg (by simp)]
      · next different =>
        have apart : ¬(f.source = e.source ∧ f.target = e.target) := fun ⟨source, target⟩ =>
          different (holds.eq_of_ends sound found other source target)
        rw [Option.filter_some, if_pos (by simpa [-not_and, not_and_or] using apart)]
  exact {
    name := holds.name
    attrs := holds.attrs
    node? := holds.node?
    order := holds.order
    find? := holds.find?
    entry := holds.entry
    outgoing := holds.outgoing.restrict kept (holds.outgoing.listAt_drop found after)
    incoming := holds.incoming.restrict kept (holds.incoming.listAt_drop found after)
    nodesSize := holds.nodesSize
    edgesSize := Array.size_setIfInBounds.trans holds.edgesSize
    outgoingSize := Array.size_modify.trans holds.outgoingSize
    incomingSize := Array.size_modify.trans holds.incomingSize }

theorem removeEdge (source target : NodeId) :
    s.Mirrors (removeEdge source target)
      (.ok (g.edge? source target, g.removeEdge source target)) := by
  cases found : s.edgeId? source target with
  | none =>
    have absent := holds.edge?_of_edgeId?_none found
    refine ⟨s, ?_, ?_⟩
    · rw [Store.removeEdge, Procedure.runOn_get_bind, found, absent]
      rfl
    · rw [FlowGraph.removeEdge_of_absent absent]
      exact holds
  | some i =>
    obtain ⟨e, here, there⟩ := holds.edge?_of_edgeId? found
    obtain ⟨-, rfl, rfl⟩ := sound.wf.edge?_eq_some_iff.mp there
    refine ⟨s.eraseEdge e.source e.target i, ?_, holds.eraseEdge sound here⟩
    rw [Store.removeEdge, Procedure.runOn_get_bind, found, there, ← here]
    rfl

end Holds

end ControlFlow.Store
