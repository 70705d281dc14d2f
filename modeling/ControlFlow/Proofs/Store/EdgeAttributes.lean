import ControlFlow.Proofs.Store.Edges

/-! Attributes of edges in the tables. An edge keeps its number and its ends when an attribute of it is
set, so it stays in its two lists, and the one of its target stays in order. A new condition can put it
at another place among the edges that leave its source; these are sorted anew, and come out as the graph
lists them, which takes the edge out and puts it back where it belongs. -/
namespace ControlFlow

namespace FlowGraph

variable {g h : FlowGraph} {source target : NodeId} {key value : String}

/-- Sets an attribute of the edge between two nodes, and leaves every other edge alone. -/
def setAttrBetween (source target : NodeId) (key value : String) (e : Edge) : Edge :=
  if e.source = source ∧ e.target = target then { e with attrs := e.attrs.insert key value } else e

@[simp] theorem setAttrBetween_source (e : Edge) :
    (setAttrBetween source target key value e).source = e.source := by
  unfold setAttrBetween
  split <;> rfl

@[simp] theorem setAttrBetween_target (e : Edge) :
    (setAttrBetween source target key value e).target = e.target := by
  unfold setAttrBetween
  split <;> rfl

/-- Only a condition tells a branch. -/
theorem setAttrBetween_branch (other : key ≠ "cond") (e : Edge) :
    (setAttrBetween source target key value e).branch = e.branch := by
  unfold setAttrBetween
  split
  · rw [Edge.branch, Edge.branch, Edge.cond, Edge.cond, AttrMap.get?_insert_of_ne _ (Ne.symm other)]
  · rfl

theorem setEdgeAttr_eq_ok (changed : g.setEdgeAttr source target key value = .ok h) :
    ∃ e, g.edge? source target = some e ∧ h = { g with
      edges := g.placeEdge { e with attrs := e.attrs.insert key value }
        (g.removeEdge source target).edges } := by
  unfold setEdgeAttr at changed
  split at changed
  · cases changed
  · next e found => exact ⟨e, found, (Except.ok.inj changed).symm⟩

/-- The edges afterwards are those before, with the attribute of one of them set. -/
theorem mem_setEdgeAttr_edges (wf : g.WellFormed)
    (changed : g.setEdgeAttr source target key value = .ok h) {e : Edge} :
    e ∈ h.edges ↔ e ∈ g.edges.map (setAttrBetween source target key value) := by
  obtain ⟨old, found, rfl⟩ := setEdgeAttr_eq_ok changed
  obtain ⟨member, atSource, atTarget⟩ := wf.edge?_eq_some_iff.mp found
  show e ∈ insertBefore _ _ _ ↔ _
  rw [(insertBefore_perm _ _ _).mem_iff, List.mem_cons, List.mem_map]
  constructor
  · rintro (rfl | kept)
    · exact ⟨old, member, if_pos ⟨atSource, atTarget⟩⟩
    · obtain ⟨there, apart⟩ := List.mem_filter.mp kept
      exact ⟨e, there, if_neg (by simpa [-not_and, not_and_or] using apart)⟩
  · rintro ⟨f, there, rfl⟩
    by_cases ends : f.source = source ∧ f.target = target
    · obtain rfl := wf.eq_of_ends there member
        (Prod.ext (ends.1.trans atSource.symm) (ends.2.trans atTarget.symm))
      exact .inl (if_pos ends)
    · refine .inr ?_
      rw [setAttrBetween, if_neg ends]
      exact List.mem_filter.mpr ⟨there, by simpa [-not_and, not_and_or] using ends⟩

/-! ## The order afterwards -/

/-- The edges before, with the attribute of one of them set. -/
def altered (g : FlowGraph) (source target : NodeId) (key value : String) : List Edge :=
  g.edges.map (setAttrBetween source target key value)

theorem altered_filter {side : Edge → NodeId}
    (sameSide : ∀ e, side (setAttrBetween source target key value e) = side e) (id : NodeId) :
    (g.altered source target key value).filter (side · == id) =
      (g.edges.filter (side · == id)).map (setAttrBetween source target key value) := by
  have sameKey : (side · == id) ∘ setAttrBetween source target key value = (side · == id) :=
    funext fun e => congrArg (· == id) (sameSide e)
  rw [altered, List.filter_map, sameKey]

/-- The edges that enter a node keep their order, for that is one of their sources. -/
theorem altered_inEdges_sorted (sound : g.Sound) (id : NodeId) :
    ((g.altered source target key value).filter (·.target == id)).Pairwise
      fun e f => g.compareEdges e f = .lt := by
  rw [altered_filter setAttrBetween_target, List.pairwise_map]
  refine (sound.ordered.inEdges sound.wf id).imp_of_mem fun {e f} left right less => ?_
  have leftLive := (sound.wf.edgesLive e (List.mem_of_mem_filter left)).1
  have rightLive := (sound.wf.edgesLive f (List.mem_of_mem_filter right)).1
  rw [sound.wf.compareEdges_of_sources]
  all_goals simp only [setAttrBetween_source]
  · exact less
  · exact leftLive
  · exact rightLive
  · intro same
    rw [same] at less
    exact Std.OrientedCmp.not_lt_of_lt less less

/-- The edges that leave a node keep their order unless one of them gets a new condition. -/
theorem altered_outEdges_sorted (sound : g.Sound) {id : NodeId}
    (kept : key ≠ "cond" ∨ id ≠ source) :
    ((g.altered source target key value).filter (·.source == id)).Pairwise
      fun e f => g.compareEdges e f = .lt := by
  rw [altered_filter setAttrBetween_source, List.pairwise_map]
  refine (sound.ordered.edges.sublist List.filter_sublist).imp_of_mem fun {e f} left right less => ?_
  have branch (e : Edge) (member : e ∈ g.outEdges id) :
      (setAttrBetween source target key value e).branch = e.branch := by
    rcases kept with other | other
    · exact setAttrBetween_branch other e
    · have atSource := beq_iff_eq.mp (List.mem_filter.mp member).2
      rw [setAttrBetween, if_neg fun ends => other (atSource.symm.trans ends.1)]
  rw [compareEdges] at less ⊢
  rwa [setAttrBetween_source, setAttrBetween_source, setAttrBetween_target, setAttrBetween_target,
    branch e left, branch f right]

/-- Setting an attribute moves no edge to other ends. -/
theorem altered_ends :
    (g.altered source target key value).map Edge.ends = g.edges.map Edge.ends := by
  rw [altered, List.map_map]
  refine List.map_congr_left fun e _ => ?_
  simp only [Function.comp_apply, Edge.ends, setAttrBetween_source, setAttrBetween_target]

theorem altered_live (wf : g.WellFormed) {e : Edge}
    (member : e ∈ g.altered source target key value) :
    e.source ∈ g.nodeIds ∧ e.target ∈ g.nodeIds := by
  obtain ⟨f, there, rfl⟩ := List.mem_map.mp member
  rw [setAttrBetween_source, setAttrBetween_target]
  exact wf.edgesLive f there

/-- Sorting brings the edges of a node into their strict order, for no two of them stand at one
place. -/
theorem altered_mergeSort_sorted (wf : g.WellFormed) (id : NodeId) :
    (((g.altered source target key value).filter (·.source == id)).mergeSort
      fun e f => (g.compareEdges e f).isLE).Pairwise fun e f => g.compareEdges e f = .lt := by
  have endsNodup : ((g.altered source target key value).map Edge.ends).Nodup := by
    rw [altered_ends]
    exact wf.endsNodup
  have total (e f : Edge) : ((g.compareEdges e f).isLE || (g.compareEdges f e).isLE) = true := by
    cases order : g.compareEdges e f with
    | lt => rfl
    | eq => rfl
    | gt =>
      rw [Std.OrientedCmp.lt_of_gt order]
      rfl
  have weak := List.pairwise_mergeSort (fun _ _ _ => Std.TransCmp.isLE_trans) total
    ((g.altered source target key value).filter (·.source == id))
  have distinct : (((g.altered source target key value).filter (·.source == id)).mergeSort
      fun e f => (g.compareEdges e f).isLE).Nodup :=
    (List.mergeSort_perm _ _).nodup_iff.mpr ((endsNodup.of_map _).filter _)
  -- Sorting alone leaves open which of two equal edges comes first, but equal edges have equal ends.
  refine (weak.and distinct).imp_of_mem fun {e f} left right ⟨order, different⟩ => ?_
  have left := List.mem_of_mem_filter (List.mem_mergeSort.mp left)
  have right := List.mem_of_mem_filter (List.mem_mergeSort.mp right)
  cases relation : g.compareEdges e f with
  | lt => rfl
  | gt =>
    rw [relation] at order
    cases order
  | eq =>
    have ends := wf.ends_of_compareEdges (altered_live wf left) (altered_live wf right) relation
    exact absurd (List.inj_on_of_nodup_map endsNodup left right ends) different

variable (sound : g.Sound) (changed : g.setEdgeAttr source target key value = .ok h)
include sound changed

/-- The edges of a node are listed in the one order that there is for them. -/
theorem setEdgeAttr_filter_eq {keep : Edge → Bool} {items : List Edge}
    (sorted : items.Pairwise fun e f => g.compareEdges e f = .lt)
    (members : ∀ e, e ∈ items ↔ e ∈ (g.altered source target key value).filter keep) :
    h.edges.filter keep = items := by
  have after := (sound.setEdgeAttr changed).ordered.edges
  have same (e : Edge) := mem_setEdgeAttr_edges sound.wf changed (e := e)
  obtain ⟨old, -, rfl⟩ := setEdgeAttr_eq_ok changed
  refine eq_of_sorted (after.sublist List.filter_sublist) sorted fun e => ?_
  rw [members, List.mem_filter, List.mem_filter, same, altered]

end FlowGraph

namespace Store

variable {s : Store} {g h : FlowGraph} {source target : NodeId} {key value : String} {i : EdgeId}

/-- The number at which an attribute is written is that of the edge between the two nodes. -/
theorem Holds.edgeAt?_writeEdge (holds : s.Holds g) (sound : g.Sound)
    (found : s.edgeId? source target = some i) (key value : String) (j : EdgeId) :
    (s.writeEdge i key value).edgeAt? j =
      (s.edgeAt? j).map (FlowGraph.setAttrBetween source target key value) := by
  obtain ⟨e, here, there⟩ := holds.edge?_of_edgeId? found
  obtain ⟨-, rfl, rfl⟩ := sound.wf.edge?_eq_some_iff.mp there
  have written : (s.writeEdge i key value).edgeAt? j =
      if j = i then (s.edgeAt? j).map fun e => { e with attrs := e.attrs.insert key value }
      else s.edgeAt? j := by
    simp only [edgeAt?, writeEdge, Array.getElem?_modify, eq_comm (a := i)]
    split
    · cases s.edges[j]? <;> rfl
    · rfl
  rw [written]
  cases other : s.edgeAt? j with
  | none => simp
  | some f =>
    rw [Option.map_some, Option.map_some]
    split
    · next same =>
      subst same
      obtain rfl := Option.some.inj (here.symm.trans other)
      rw [FlowGraph.setAttrBetween, if_pos ⟨rfl, rfl⟩]
    · next different =>
      rw [FlowGraph.setAttrBetween, if_neg]
      rintro ⟨atSource, atTarget⟩
      exact different (holds.eq_of_ends sound here other atSource atTarget)

namespace Holds

variable (holds : s.Holds g) (sound : g.Sound)
  (changed : g.setEdgeAttr source target key value = .ok h)
  (found : s.edgeId? source target = some i)
include holds sound changed found

theorem incoming_writeEdge :
    s.incoming.Lists (s.writeEdge i key value).edgeAt? Edge.target h.edges := by
  have lists := holds.incoming.alter (holds.edgeAt?_writeEdge sound found key value)
    FlowGraph.setAttrBetween_target
  exact lists.congr fun id => FlowGraph.setEdgeAttr_filter_eq sound changed
    (FlowGraph.altered_inEdges_sorted sound id) fun _ => Iff.rfl

theorem outgoing_writeEdge (kept : key ≠ "cond") :
    s.outgoing.Lists (s.writeEdge i key value).edgeAt? Edge.source h.edges := by
  have lists := holds.outgoing.alter (holds.edgeAt?_writeEdge sound found key value)
    FlowGraph.setAttrBetween_source
  exact lists.congr fun id => FlowGraph.setEdgeAttr_filter_eq sound changed
    (FlowGraph.altered_outEdges_sorted sound (.inl kept)) fun _ => Iff.rfl

theorem outgoing_sortOutgoing :
    ((s.writeEdge i key value).sortOutgoing source).outgoing.Lists
      (s.writeEdge i key value).edgeAt? Edge.source h.edges := by
  have lists := holds.outgoing.alter (holds.edgeAt?_writeEdge sound found key value)
    FlowGraph.setAttrBetween_source
  refine lists.sort (fun e f => (g.compareEdges e f).isLE) ?_ ?_ ?_
  · intro j left k right e f here there
    have atSource {j : EdgeId} {e : Edge} (member : j ∈ s.outgoing.listAt source)
        (here : (s.writeEdge i key value).edgeAt? j = some e) : e.source = source := by
      obtain ⟨f, there, atSource⟩ := lists.mem_listAt_iff.mp member
      rwa [Option.some.inj (here.symm.trans there)]
    have labels : (s.writeEdge i key value).label = g.label := holds.label
    rw [compareOutgoing_eq labels here there ((atSource left here).trans (atSource right there).symm)]
  · exact FlowGraph.setEdgeAttr_filter_eq sound changed
      (FlowGraph.altered_mergeSort_sorted sound.wf source) fun e => List.mem_mergeSort
  · intro id other
    exact FlowGraph.setEdgeAttr_filter_eq sound changed
      (FlowGraph.altered_outEdges_sorted sound (.inr other)) fun _ => Iff.rfl

omit sound found in
/-- Nothing but edges and the lists of those that leave a node are touched. -/
theorem of_written {edges : Array (Option Edge)} {outgoing : Adjacency}
    (size : edges.size = s.edges.size) (outgoingSize : outgoing.size = s.outgoing.size)
    (out : outgoing.Lists (edgeAt? { s with edges }) Edge.source h.edges)
    (into : s.incoming.Lists (edgeAt? { s with edges }) Edge.target h.edges) :
    Holds { s with edges, outgoing } h := by
  obtain ⟨e, -, rfl⟩ := FlowGraph.setEdgeAttr_eq_ok changed
  exact {
    name := holds.name
    attrs := holds.attrs
    node? := holds.node?
    order := holds.order
    find? := holds.find?
    entry := holds.entry
    outgoing := out
    incoming := into
    nodesSize := holds.nodesSize
    edgesSize := size.trans holds.edgesSize
    outgoingSize := outgoingSize.trans holds.outgoingSize
    incomingSize := holds.incomingSize }

end Holds

theorem Holds.setEdgeAttr (holds : s.Holds g) (sound : g.Sound) (source target : NodeId)
    (key value : String) :
    s.Mirrors (setEdgeAttr source target key value)
      (((), ·) <$> g.setEdgeAttr source target key value) := by
  cases found : s.edgeId? source target with
  | none =>
    have absent := holds.edge?_of_edgeId?_none found
    simp only [FlowGraph.setEdgeAttr, absent]
    show Procedure.runOn _ s = _
    rw [Store.setEdgeAttr, Procedure.runOn_get_bind, found]
    rfl
  | some i =>
    obtain ⟨e, -, there⟩ := holds.edge?_of_edgeId? found
    cases changed : g.setEdgeAttr source target key value with
    | error error => simp [FlowGraph.setEdgeAttr, there] at changed
    | ok h =>
      have into := holds.incoming_writeEdge sound changed found
      by_cases cond : key = "cond"
      · refine ⟨(s.writeEdge i key value).sortOutgoing source, ?_,
          holds.of_written changed Array.size_modify Array.size_modify
            (holds.outgoing_sortOutgoing sound changed found) into⟩
        rw [Store.setEdgeAttr, Procedure.runOn_get_bind, found, cond]
        rfl
      · refine ⟨s.writeEdge i key value, ?_,
          holds.of_written changed Array.size_modify rfl
            (holds.outgoing_writeEdge sound changed found cond) into⟩
        have other : (key == "cond") = false := beq_eq_false_iff_ne.mpr cond
        rw [Store.setEdgeAttr, Procedure.runOn_get_bind, found, other]
        rfl

end Store

end ControlFlow
