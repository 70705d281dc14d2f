import ControlFlow.Proofs.InPlace

/-! Merging, edge by edge. Nodes are merged exactly when there is one at all, all of them are live
and none is listed twice; any other list is refused before the graph is touched. Of several edges
between the merged nodes and one node outside, that of the first merged node stays and keeps its
attributes, where the head counts as the first and the others follow in the order of the graph. -/
namespace ControlFlow

namespace FlowGraph

variable {g h : FlowGraph} {head merged : NodeId} {ids : List NodeId}
variable {loopEdge : Option (NodeId × NodeId)}

/-- Nodes that can be merged: some at all, all of them live, none listed twice. -/
structure Mergeable (g : FlowGraph) (ids : List NodeId) : Prop where
  nonempty : ids ≠ []
  live : ∀ id ∈ ids, id ∈ g.nodeIds
  nodup : ids.Nodup

/-- What a merge makes of every node and every edge. -/
structure Rewired (g : FlowGraph) (head : NodeId) (ids : List NodeId)
    (loopEdge : Option (NodeId × NodeId)) (merged : NodeId) (h : FlowGraph) : Prop where
  wf : h.WellFormed
  fresh : merged ∉ g.nodeIds
  nodeIds : ∀ id, id ∈ h.nodeIds ↔ (id ∈ g.nodeIds ∧ id ∉ ids) ∨ id = merged
  outside : ∀ id ∈ g.nodeIds, id ∉ ids → h.node? id = g.node? id
  label : h.label merged = g.label head
  between : ∀ a ∈ g.nodeIds, ∀ b ∈ g.nodeIds, a ∉ ids → b ∉ ids → h.edge? a b = g.edge? a b
  entering : ∀ p ∈ g.nodeIds, p ∉ ids →
    (h.edge? p merged).map Edge.attrs =
      ((g.mergeOrder head ids).findSome? (g.edge? p)).map Edge.attrs
  leaving : ∀ q ∈ g.nodeIds, q ∉ ids →
    (h.edge? merged q).map Edge.attrs =
      ((g.mergeOrder head ids).findSome? (g.edge? · q)).map Edge.attrs
  /-- An edge back to the head becomes a loop, unless it is the one that the merge explains. -/
  loop : (h.edge? merged merged).map Edge.attrs =
    (((g.mergeOrder head ids).filter fun s => loopEdge != some (s, head)).findSome?
      (g.edge? · head)).map Edge.attrs
  entry : h.entry? = if g.entry?.any ids.contains then some merged else g.entry?
  valid : g.validate = .ok () → h.validate = .ok ()

/-! ## Which lists are refused -/

theorem checkMembers_iff_mergeable :
    g.checkMembers [] (head :: ids) = .ok () ↔ g.Mergeable (head :: ids) := by
  rw [checkMembers_eq_ok_iff]
  constructor
  · rintro ⟨each, nodup⟩
    exact ⟨List.cons_ne_nil _ _, fun id member => (each id member).1, nodup⟩
  · intro mergeable
    exact ⟨fun id member => ⟨mergeable.live id member, List.not_mem_nil⟩, mergeable.nodup⟩

/-- A list that cannot be merged is refused, and the graph stays as it was. -/
theorem mergeNodes_refused (refused : ¬g.Mergeable ids)
    (loopEdge : Option (NodeId × NodeId)) :
    ∃ error, g.mergeNodes ids loopEdge = .error error ∧
      (InPlace.mergeNodes ids loopEdge).runOn g = (.error error, g) := by
  cases ids with
  | nil => exact ⟨.nothingToMerge, rfl, rfl⟩
  | cons head rest =>
    cases checked : g.checkMembers [] (head :: rest) with
    | ok accepted => exact absurd (checkMembers_iff_mergeable.mp checked) refused
    | error error =>
      refine ⟨error, ?_, ?_⟩
      · simp only [mergeNodes, checked, bind, Except.bind]
      · simp only [InPlace.mergeNodes, Procedure.runOn_bind, Procedure.runOn_check, checked]

/-! ## Which edges a merge adds -/

theorem find?_inEdges (a b : NodeId) : (g.inEdges b).find? (·.source == a) = g.edge? a b := by
  simp only [inEdges, edge?, List.find?_filter, Bool.decide_and, Bool.decide_eq_true]
  congr 1
  funext e
  exact Bool.and_comm _ _

theorem find?_outEdges (a b : NodeId) : (g.outEdges a).find? (·.target == b) = g.edge? a b := by
  simp only [outEdges, edge?, List.find?_filter, Bool.decide_and, Bool.decide_eq_true]

section

variable {members : List NodeId} {a b : NodeId} {attrs : AttrMap}

private theorem find?_entering :
    (g.rewiring head members loopEdge).entering.find? (·.source == a) =
      if a ∈ members then none else members.findSome? (g.edge? a) := by
  have kept := @find?_filter_key Edge NodeId _ _ Edge.source (fun n => !members.contains n)
    (members.flatMap g.inEdges) a
  rw [rewiring, find?_firstOfEach, kept, List.find?_flatMap]
  simp only [find?_inEdges]
  by_cases inside : a ∈ members <;> simp [inside]

private theorem find?_leaving :
    (g.rewiring head members loopEdge).leaving.find? (·.target == b) =
      if b ∈ members then none else members.findSome? (g.edge? · b) := by
  have kept := @find?_filter_key Edge NodeId _ _ Edge.target (fun n => !members.contains n)
    (members.flatMap g.outEdges) b
  rw [rewiring, find?_firstOfEach, kept, List.find?_flatMap]
  simp only [find?_outEdges]
  by_cases inside : b ∈ members <;> simp [inside]

private theorem loop_eq : (g.rewiring head members loopEdge).loop =
    (members.filter fun s => loopEdge != some (s, head)).findSome? (g.edge? · head) := by
  have each (s : NodeId) : ((g.outEdges s).find? fun e =>
      e.target == head && loopEdge != some (e.source, e.target)) =
        if loopEdge != some (s, head) then g.edge? s head else none := by
    split
    · next unexplained =>
      rw [← find?_outEdges]
      refine List.find?_congr fun e member => ?_
      have source : e.source = s := by simpa using (List.mem_filter.mp member).2
      by_cases target : e.target = head <;> simp [source, target, unexplained]
    · next explained =>
      refine List.find?_eq_none.mpr fun e member => ?_
      have source : e.source = s := by simpa using (List.mem_filter.mp member).2
      simp only [Bool.and_eq_true, beq_iff_eq, source, not_and]
      rintro rfl
      exact explained
  simp only [rewiring, List.find?_flatMap, each]
  rw [← List.head?_filterMap, ← List.head?_filterMap, List.filterMap_filter]

private theorem map_attrs_find? {key : Edge → NodeId} {edges : List Edge}
    (nodup : (edges.map key).Nodup) {n : NodeId} :
    (edges.find? (key · == n)).map Edge.attrs = some attrs ↔
      ∃ e ∈ edges, key e = n ∧ e.attrs = attrs := by
  simp only [Option.map_eq_some_iff, find?_key nodup, and_assoc]

/-- What is added at the new node, with its attributes. -/
private theorem mem_rewiring_edges : (a, b, attrs) ∈ (g.rewiring head members loopEdge).edges merged ↔
    (b = merged ∧ ((g.rewiring head members loopEdge).entering.find? (·.source == a)).map
      Edge.attrs = some attrs) ∨
    (a = merged ∧ ((g.rewiring head members loopEdge).leaving.find? (·.target == b)).map
      Edge.attrs = some attrs) ∨
    (a = merged ∧ b = merged ∧
      (g.rewiring head members loopEdge).loop.map Edge.attrs = some attrs) := by
  have sources : ((g.rewiring head members loopEdge).entering.map Edge.source).Nodup :=
    nodup_firstOfEach _ _
  have targets : ((g.rewiring head members loopEdge).leaving.map Edge.target).Nodup :=
    nodup_firstOfEach _ _
  rw [map_attrs_find? sources, map_attrs_find? targets]
  simp only [Rewiring.edges, List.mem_append, List.mem_map, Prod.mk.injEq, or_assoc,
    Option.mem_toList, Option.map_eq_some_iff]
  refine or_congr ?_ (or_congr ?_ ?_)
  · constructor
    · rintro ⟨e, member, source, target, same⟩
      exact ⟨target.symm, e, member, source, same⟩
    · rintro ⟨target, e, member, source, same⟩
      exact ⟨e, member, source, target.symm, same⟩
  · constructor
    · rintro ⟨e, member, source, target, same⟩
      exact ⟨source.symm, e, member, target, same⟩
    · rintro ⟨source, e, member, target, same⟩
      exact ⟨e, member, source.symm, target, same⟩
  · constructor
    · rintro ⟨e, kept, source, target, same⟩
      exact ⟨source.symm, target.symm, e, kept, same⟩
    · rintro ⟨source, target, e, kept, same⟩
      exact ⟨e, kept, source.symm, target.symm, same⟩

/-! ## What a merge does -/

/-- Adding edges changes nothing but the edges. -/
theorem addEdges_exact {edges : List (NodeId × NodeId × AttrMap)} (ran : g.addEdges edges = .ok h) :
    h.nodes = g.nodes ∧ h.nextNode = g.nextNode ∧ ∀ a b attrs,
      ⟨a, b, attrs⟩ ∈ h.edges ↔ (a, b, attrs) ∈ edges ∨ ⟨a, b, attrs⟩ ∈ g.edges := by
  induction edges generalizing g with
  | nil =>
    cases ran
    simp
  | cons edge rest ih =>
    rw [addEdges, List.foldlM_cons] at ran
    obtain ⟨next, added, ran⟩ := bind_eq_ok_iff.mp ran
    obtain ⟨result, one, same⟩ := bind_eq_ok_iff.mp added
    cases same
    obtain ⟨-, -, -, rfl⟩ := addEdge_eq_ok_iff.mp one
    obtain ⟨nodes, next, edges⟩ := ih ran
    refine ⟨nodes, next, fun a b attrs => ?_⟩
    rw [edges, mem_insertEdge_edges, List.mem_cons]
    obtain ⟨source, target, label⟩ := edge
    simp only [Edge.mk.injEq, Prod.mk.injEq]
    tauto

/-- A merge takes its members out, adds the new node and then the edges that are kept. -/
theorem mergeNodes_steps (ran : g.mergeNodes (head :: ids) loopEdge = .ok (merged, h)) :
    ∃ model rest, g.node? head = some model ∧
      ((g.mergeOrder head (head :: ids)).foldl removeNode g).addNode model.label
        (g.mergedAttrs model (g.mergeOrder head (head :: ids))) = .ok (merged, rest) ∧
      rest.addEdges ((g.rewiring head (g.mergeOrder head (head :: ids)) loopEdge).edges merged) =
        .ok h := by
  obtain ⟨accepted, -, ran⟩ := bind_eq_ok_iff.mp ran
  cases found : g.node? head with
  | none => simp [found] at ran
  | some model =>
    rw [found] at ran
    obtain ⟨⟨id, rest⟩, added, ran⟩ := bind_eq_ok_iff.mp ran
    obtain ⟨result, edges, same⟩ := bind_eq_ok_iff.mp ran
    cases same
    exact ⟨model, rest, rfl, added, edges⟩

/-- An edge with its attributes, told by what is found between its ends. -/
theorem WellFormed.map_edge?_eq_some_iff (wf : g.WellFormed) :
    (g.edge? a b).map Edge.attrs = some attrs ↔ ⟨a, b, attrs⟩ ∈ g.edges := by
  simp only [Option.map_eq_some_iff, wf.edge?_eq_some_iff]
  constructor
  · rintro ⟨e, ⟨member, rfl, rfl⟩, rfl⟩
    exact member
  · intro member
    exact ⟨_, ⟨member, rfl, rfl⟩, rfl⟩

theorem WellFormed.edge?_of_dead_source (wf : g.WellFormed) (dead : a ∉ g.nodeIds) :
    g.edge? a b = none := by
  refine Option.eq_none_iff_forall_ne_some.mpr fun e found => dead ?_
  obtain ⟨member, rfl, -⟩ := wf.edge?_eq_some_iff.mp found
  exact (wf.edgesLive e member).1

theorem WellFormed.edge?_of_dead_target (wf : g.WellFormed) (dead : b ∉ g.nodeIds) :
    g.edge? a b = none := by
  refine Option.eq_none_iff_forall_ne_some.mpr fun e found => dead ?_
  obtain ⟨member, -, rfl⟩ := wf.edge?_eq_some_iff.mp found
  exact (wf.edgesLive e member).2

/-- Well-formed graphs that have the same attributes between two nodes have the same edge there. -/
theorem edge?_congr (wf : g.WellFormed) (wf' : h.WellFormed)
    (same : (h.edge? a b).map Edge.attrs = (g.edge? a b).map Edge.attrs) :
    h.edge? a b = g.edge? a b := by
  cases before : g.edge? a b with
  | none =>
    rw [before] at same
    exact Option.map_eq_none_iff.mp same
  | some e =>
    rw [before, Option.map_some, wf'.map_edge?_eq_some_iff] at same
    obtain ⟨-, rfl, rfl⟩ := wf.edge?_eq_some_iff.mp before
    exact wf'.edge?_eq_some_iff.mpr ⟨same, rfl, rfl⟩

section

variable {model : Node} {inserted : FlowGraph}
variable (added : (members.foldl removeNode g).addNode model.label (g.mergedAttrs model members) =
  .ok (merged, inserted))
variable (ran : inserted.addEdges ((g.rewiring head members loopEdge).edges merged) = .ok h)
include added ran

/-- What is found between two nodes after a merge. -/
private theorem attrs_after_merge (wf : g.WellFormed) (wf' : h.WellFormed) :
    (h.edge? a b).map Edge.attrs = some attrs ↔
      ((b = merged ∧ (if a ∈ members then none
        else members.findSome? (g.edge? a)).map Edge.attrs = some attrs) ∨
      (a = merged ∧ (if b ∈ members then none
        else members.findSome? (g.edge? · b)).map Edge.attrs = some attrs) ∨
      (a = merged ∧ b = merged ∧
        ((members.filter fun s => loopEdge != some (s, head)).findSome?
          (g.edge? · head)).map Edge.attrs = some attrs)) ∨
      ((g.edge? a b).map Edge.attrs = some attrs ∧ a ∉ members ∧ b ∉ members) := by
  obtain ⟨-, -, edges⟩ := addEdges_exact ran
  obtain ⟨-, -, result⟩ := addNode_eq_ok_iff.mp added
  obtain ⟨rfl, rfl⟩ := Prod.mk.inj result
  rw [wf'.map_edge?_eq_some_iff, wf.map_edge?_eq_some_iff, edges, mem_rewiring_edges,
    find?_entering, find?_leaving, loop_eq]
  exact or_congr_right mem_removeAll_edges

/-- The nodes after a merge are the new one and those outside. -/
theorem mem_merged_nodes {n : Node} :
    n ∈ h.nodes ↔
      n = (members.foldl removeNode g).newNode model.label (g.mergedAttrs model members) ∨
        n ∈ g.nodes ∧ n.id ∉ members := by
  obtain ⟨nodes, -, -⟩ := addEdges_exact ran
  obtain ⟨-, -, result⟩ := addNode_eq_ok_iff.mp added
  obtain ⟨rfl, rfl⟩ := Prod.mk.inj result
  rw [nodes, mem_insertNode, mem_removeAll_nodes]

/-- Nodes outside stay as they are. -/
private theorem node?_after_merge (wf : g.WellFormed) (wf' : h.WellFormed) {id : NodeId}
    (outside : id ∉ members) (old : id ≠ merged) : h.node? id = g.node? id := by
  obtain ⟨-, -, result⟩ := addNode_eq_ok_iff.mp added
  have newId : (members.foldl removeNode g).nextNode = merged := (Prod.mk.inj result).1.symm
  refine Option.ext fun n => ?_
  rw [wf'.node?_eq_some_iff, wf.node?_eq_some_iff, mem_merged_nodes added ran]
  constructor
  · rintro ⟨rfl | ⟨member, -⟩, rfl⟩
    · exact absurd newId old
    · exact ⟨member, rfl⟩
  · rintro ⟨member, rfl⟩
    exact ⟨.inr ⟨member, outside⟩, rfl⟩

/-- A merge makes nothing the entry of a graph that has none. -/
private theorem entry?_after_merge (unentered : g.entry? = none) : h.entry? = none := by
  refine entry?_eq_none_iff.mpr fun n live => ?_
  rcases (mem_merged_nodes added ran).mp live with rfl | ⟨old, -⟩
  · rw [Node.isEntry, ← Bool.not_eq_true]
    intro marked
    obtain ⟨entry, entered, -⟩ := mergedAttrs_marksEntry.mp marked
    rw [unentered] at entered
    cases entered
  · exact entry?_eq_none_iff.mp unentered n old

end

/-- A way through the graph is one through what the merge has made of its nodes. -/
theorem Merged.reaches (done : Merged g head members loopEdge merged h) (reaches : g.Reaches a b) :
    h.Reaches (if a ∈ members then merged else a) (if b ∈ members then merged else b) := by
  obtain ⟨passed, walk⟩ := reaches
  induction walk with
  | here => exact .refl _
  | @step c passed b walk edge ih =>
    by_cases source : c ∈ members <;> by_cases target : b ∈ members <;>
      simp only [source, target, if_true, if_false] at ih ⊢
    · exact ih
    · exact ih.step (done.step_iff.mpr (.inr (.inr (.inl ⟨rfl, target, c, source, edge⟩))))
    · exact ih.step (done.step_iff.mpr (.inr (.inl ⟨rfl, source, b, target, edge⟩)))
    · exact ih.step (done.step_iff.mpr (.inl ⟨edge, source, target⟩))

/-- What is merged of a valid graph is valid. -/
theorem Merged.validate (done : Merged g head members loopEdge merged h) (wf : g.WellFormed)
    (headLive : head ∈ g.nodeIds) (headInside : head ∈ members) (valid : g.validate = .ok ()) :
    h.validate = .ok () := by
  obtain ⟨entry, entered, all⟩ := (validate_eq_ok_iff wf).mp valid
  refine (validate_eq_ok_iff done.wf).mpr ⟨_, done.entry entered, fun id live => ?_⟩
  rcases done.nodeIds.mp live with ⟨old, outside⟩ | rfl
  · have way := done.reaches (all id old)
    rwa [if_neg outside] at way
  · have way := done.reaches (all head headLive)
    rwa [if_pos headInside] at way

/-! ## The result -/

/-- What is merged is rewired as the first of its members has it. -/
theorem mergeNodes_rewired (wf : g.WellFormed) (mergeable : g.Mergeable (head :: ids))
    (loopEdge : Option (NodeId × NodeId)) :
    ∃ merged h, g.mergeNodes (head :: ids) loopEdge = .ok (merged, h) ∧
      g.Rewired head (head :: ids) loopEdge merged h := by
  obtain ⟨merged, h, ran, done⟩ := mergeNodes_merged wf mergeable.live mergeable.nodup loopEdge
  refine ⟨merged, h, ran, ?_⟩
  obtain ⟨model, inserted, found, added, edges⟩ := mergeNodes_steps ran
  have order {id : NodeId} : id ∈ g.mergeOrder head (head :: ids) ↔ id ∈ head :: ids :=
    mem_mergeOrder mergeable.live List.mem_cons_self
  have after {a b : NodeId} {attrs : AttrMap} :=
    @attrs_after_merge g h head merged loopEdge _ a b attrs model inserted added edges wf done.wf
  -- The new node was not there before, so that no edge of the old graph is at it.
  have noSource (n : NodeId) : g.edge? merged n = none := wf.edge?_of_dead_source done.fresh
  have noTarget (n : NodeId) : g.edge? n merged = none := wf.edge?_of_dead_target done.fresh
  exact {
    wf := done.wf
    fresh := done.fresh
    nodeIds := fun id => done.nodeIds
    outside := fun id live outside => node?_after_merge added edges wf done.wf
      (mt order.mp outside) (done.ne_merged live)
    label := done.labelMerged
    between := by
      intro a left b right outsideA outsideB
      refine edge?_congr wf done.wf (Option.ext fun attrs => ?_)
      rw [after]
      simp only [done.ne_merged left, done.ne_merged right, order, outsideA, outsideB,
        false_and, false_or, not_false_eq_true, and_true]
    entering := by
      intro p live outside
      refine Option.ext fun attrs => ?_
      rw [after]
      simp only [done.ne_merged live, order, outside, noTarget, if_false, Option.map_none,
        reduceCtorEq, true_and, false_and, or_false]
    leaving := by
      intro q live outside
      refine Option.ext fun attrs => ?_
      rw [after]
      simp only [done.ne_merged live, order, outside, noSource, if_false, Option.map_none,
        reduceCtorEq, true_and, false_and, false_or, or_false]
    loop := by
      refine Option.ext fun attrs => ?_
      have noneFrom : (g.mergeOrder head (head :: ids)).findSome? (g.edge? merged) = none :=
        List.findSome?_eq_none_iff.mpr fun n _ => noSource n
      have noneTo : (g.mergeOrder head (head :: ids)).findSome? (g.edge? · merged) = none :=
        List.findSome?_eq_none_iff.mpr fun n _ => noTarget n
      rw [after, noneFrom, noneTo]
      simp only [noTarget, ite_self, Option.map_none, reduceCtorEq, true_and, and_false, false_and,
        false_or, or_false]
    entry := by
      cases entered : g.entry? with
      | some entry =>
        rw [done.entry entered, apply_ite some]
        simp
      | none => exact entry?_after_merge added edges entered
    valid := done.validate wf (mergeable.live head List.mem_cons_self) List.mem_cons_self }

/-- Nodes are merged exactly when they can be. Then every edge is rewired as the first of them has
it; a list that cannot be merged leaves the graph as it was. -/
theorem mergeNodes_exact (wf : g.WellFormed) (ids : List NodeId)
    (loopEdge : Option (NodeId × NodeId)) :
    (g.Mergeable ids → ∃ head merged h, ids.head? = some head ∧
      g.mergeNodes ids loopEdge = .ok (merged, h) ∧
      (InPlace.mergeNodes ids loopEdge).runOn g = (.ok merged, h) ∧
      g.Rewired head ids loopEdge merged h) ∧
    (¬g.Mergeable ids → ∃ error, g.mergeNodes ids loopEdge = .error error ∧
      (InPlace.mergeNodes ids loopEdge).runOn g = (.error error, g)) := by
  refine ⟨fun mergeable => ?_, fun refused => mergeNodes_refused refused loopEdge⟩
  cases ids with
  | nil => exact absurd rfl mergeable.nonempty
  | cons head rest =>
    obtain ⟨merged, h, ran, rewired⟩ := mergeNodes_rewired wf mergeable loopEdge
    have performs : InPlace.Performs _ g _ := .mergeNodes (head :: rest) loopEdge
    rw [ran] at performs
    exact ⟨head, merged, h, rfl, ran, performs, rewired⟩

end

/-- Two blocks that lead to each other, both of them entered from the first block and both left for
the last one. -/
def forked : FlowGraph where
  name := "forked"
  attrs := .empty
  nodes := [⟨0, "A", .ofList [("entry", "true")], .ofAttrs .empty⟩,
    ⟨1, "B", .empty, .ofAttrs .empty⟩, ⟨2, "C", .empty, .ofAttrs .empty⟩,
    ⟨3, "D", .empty, .ofAttrs .empty⟩]
  edges := [⟨0, 1, .ofList [("cond", "true")]⟩, ⟨0, 2, .ofList [("cond", "false")]⟩,
    ⟨1, 2, .ofList [("cond", "true")]⟩, ⟨1, 3, .ofList [("cond", "false")]⟩,
    ⟨2, 1, .ofList [("cond", "1")]⟩, ⟨2, 3, .ofList [("cond", "default")]⟩]
  nextNode := 4
  nextEdge := 6

theorem forked_merges_exactly : forked.WellFormed ∧
    (forked.Mergeable [2, 1] ∧ ∃ head merged h, [2, 1].head? = some head ∧
      forked.mergeNodes [2, 1] none = .ok (merged, h) ∧
      (InPlace.mergeNodes [2, 1] none).runOn forked = (.ok merged, h) ∧
      forked.Rewired head [2, 1] none merged h) ∧
    ¬forked.Mergeable [1, 2, 1] ∧ ∃ error, forked.mergeNodes [1, 2, 1] none = .error error ∧
      (InPlace.mergeNodes [1, 2, 1] none).runOn forked = (.error error, forked) := by
  have wf : forked.WellFormed := by decide
  have mergeable : forked.Mergeable [2, 1] := ⟨List.cons_ne_nil _ _, by decide, by decide⟩
  have repeated : ¬forked.Mergeable [1, 2, 1] := fun mergeable =>
    absurd mergeable.nodup (by decide)
  exact ⟨wf, ⟨mergeable, (mergeNodes_exact wf [2, 1] none).1 mergeable⟩, repeated,
    (mergeNodes_exact wf [1, 2, 1] none).2 repeated⟩

/-- The second block is the head here, so that its edges stay and those of the first one go. -/
example : (forked.mergeNodes [2, 1] none).map (fun (_, h) => h.edges) =
    .ok [⟨0, 4, .ofList [("cond", "false")]⟩, ⟨4, 4, .ofList [("cond", "true")]⟩,
      ⟨4, 3, .ofList [("cond", "default")]⟩] := by
  rfl

end FlowGraph

end ControlFlow
