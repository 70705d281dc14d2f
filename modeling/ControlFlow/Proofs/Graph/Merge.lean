import ControlFlow.Graph.Merge
import ControlFlow.Proofs.AttrMap
import ControlFlow.Proofs.Graph.Walk

/-! What a merge does. The merged nodes are replaced by a new one with the label of their head. The
edges among the other nodes stay, those between them and the merged nodes are moved to the new one,
and an edge back to the head is kept as a loop unless the merge explains it. -/
namespace ControlFlow

section

variable {α β : Type} [BEq β] [LawfulBEq β] (key : α → β)

omit [LawfulBEq β] in
theorem firstOfEach_subset (items : List α) : firstOfEach key items ⊆ items := by
  induction items with
  | nil => exact List.Subset.refl _
  | cons a rest ih =>
    rw [firstOfEach]
    exact List.cons_subset_cons a fun b member => ih (List.mem_of_mem_filter member)

theorem nodup_firstOfEach (items : List α) : ((firstOfEach key items).map key).Nodup := by
  induction items with
  | nil => exact List.nodup_nil
  | cons a rest ih =>
    rw [firstOfEach, List.map_cons, List.nodup_cons]
    refine ⟨fun member => ?_, ih.sublist (List.filter_sublist.map key)⟩
    obtain ⟨b, kept, same⟩ := List.mem_map.mp member
    have different := (List.mem_filter.mp kept).2
    simp [same] at different

/-- No key is lost. -/
theorem mem_map_firstOfEach {items : List α} {b : β} :
    b ∈ (firstOfEach key items).map key ↔ b ∈ items.map key := by
  refine ⟨fun member => List.map_subset key (firstOfEach_subset key items) member, ?_⟩
  induction items with
  | nil => exact id
  | cons a rest ih =>
    intro member
    rw [firstOfEach, List.map_cons, List.mem_cons]
    by_cases same : b = key a
    · exact .inl same
    · rcases List.mem_cons.mp member with first | later
      · exact absurd first same
      · obtain ⟨c, kept, rfl⟩ := List.mem_map.mp (ih later)
        exact .inr (List.mem_map_of_mem (List.mem_filter.mpr ⟨kept, by simpa using same⟩))

/-- A search for a key in what is kept by key. -/
theorem find?_filter_key {keep : β → Bool} {items : List α} {b : β} :
    (items.filter fun a => keep (key a)).find? (key · == b) =
      if keep b then items.find? (key · == b) else none := by
  rw [List.find?_filter]
  split
  · next kept =>
    refine List.find?_congr fun a _ => ?_
    by_cases same : key a = b <;> simp [same, kept]
  · next dropped =>
    refine List.find?_eq_none.mpr fun a _ => ?_
    simp only [decide_eq_true_eq, beq_iff_eq, not_and]
    rintro kept rfl
    exact dropped kept

/-- What stays of a key is its first element. -/
theorem find?_firstOfEach {items : List α} {b : β} :
    (firstOfEach key items).find? (key · == b) = items.find? (key · == b) := by
  induction items with
  | nil => rfl
  | cons a rest ih =>
    by_cases same : key a = b
    · simp [firstOfEach, same]
    · have kept := @find?_filter_key α β _ _ key (· != key a) (firstOfEach key rest) b
      simp [firstOfEach, same, kept, Ne.symm same, ih]

end

namespace FlowGraph

variable {g h : FlowGraph} {members : List NodeId}

/-! ## Checking the members -/

/-- Members are accepted exactly when they are live, new and all different. -/
theorem checkMembers_eq_ok_iff {seen : List NodeId} :
    g.checkMembers seen members = .ok () ↔
      (∀ id ∈ members, id ∈ g.nodeIds ∧ id ∉ seen) ∧ members.Nodup := by
  induction members generalizing seen with
  | nil => simp [checkMembers]
  | cons id rest ih =>
    rw [List.forall_mem_cons, List.nodup_cons]
    by_cases known : id ∈ g.nodeIds ∧ id ∉ seen
    · have live : g.contains id = true := contains_iff.mpr known.1
      have new : seen.contains id = false := by simpa using known.2
      simp only [checkMembers, live, new, Bool.not_true, Bool.false_eq_true, if_false, ih,
        List.mem_cons, not_or]
      constructor
      · rintro ⟨others, nodup⟩
        exact ⟨⟨known, fun other member => ⟨(others other member).1, (others other member).2.2⟩⟩,
          fun member => (others id member).2.1 rfl, nodup⟩
      · rintro ⟨⟨-, others⟩, missing, nodup⟩
        refine ⟨fun other member => ⟨(others other member).1, ?_, (others other member).2⟩, nodup⟩
        rintro rfl
        exact missing member
    · have refused : g.checkMembers seen (id :: rest) ≠ .ok () := by
        rw [not_and_or, not_not] at known
        rcases known with dead | again
        · simp [checkMembers, contains_eq_false_iff.mpr dead]
        · rw [checkMembers]
          split
          · exact nofun
          · simp [again]
      exact iff_of_false refused fun accepted => known accepted.1.1

/-! ## Removing the members -/

theorem mem_removeAll_nodes {n : Node} :
    n ∈ (members.foldl removeNode g).nodes ↔ n ∈ g.nodes ∧ n.id ∉ members := by
  induction members generalizing g with
  | nil => simp
  | cons id rest ih =>
    rw [List.foldl_cons, ih]
    simp [removeNode, and_assoc]

theorem mem_removeAll_edges {e : Edge} :
    e ∈ (members.foldl removeNode g).edges ↔
      e ∈ g.edges ∧ e.source ∉ members ∧ e.target ∉ members := by
  induction members generalizing g with
  | nil => simp
  | cons id rest ih =>
    rw [List.foldl_cons, ih, mem_removeNode_edges]
    simp only [List.mem_cons, not_or]
    tauto

theorem WellFormed.removeAll (wf : g.WellFormed) :
    (members.foldl FlowGraph.removeNode g).WellFormed := by
  induction members generalizing g with
  | nil => exact wf
  | cons id rest ih => exact ih (wf.removeNode id)

theorem removeAll_nextNode : (members.foldl removeNode g).nextNode = g.nextNode := by
  induction members generalizing g with
  | nil => rfl
  | cons id rest ih => exact ih

theorem mem_removeAll_nodeIds {id : NodeId} :
    id ∈ (members.foldl removeNode g).nodeIds ↔ id ∈ g.nodeIds ∧ id ∉ members := by
  simp only [mem_nodeIds, mem_removeAll_nodes]
  constructor
  · rintro ⟨n, ⟨member, outside⟩, rfl⟩
    exact ⟨⟨n, member, rfl⟩, outside⟩
  · rintro ⟨⟨n, member, rfl⟩, outside⟩
    exact ⟨n, ⟨member, outside⟩, rfl⟩

/-! ## Adding the edges -/

/-- Edges can be added if they join live nodes and no two nodes have two of them. -/
theorem addEdges_eq_ok (wf : g.WellFormed) {edges : List (NodeId × NodeId × AttrMap)}
    (live : ∀ e ∈ edges, e.1 ∈ g.nodeIds ∧ e.2.1 ∈ g.nodeIds)
    (nodup : (edges.map fun e => (e.1, e.2.1)).Nodup)
    (free : ∀ e ∈ edges, e.2.1 ∉ g.succs e.1) :
    ∃ h, g.addEdges edges = .ok h ∧ h.WellFormed ∧ h.nodes = g.nodes ∧
      ∀ a b, b ∈ h.succs a ↔ (a, b) ∈ edges.map (fun e => (e.1, e.2.1)) ∨ b ∈ g.succs a := by
  induction edges generalizing g with
  | nil => exact ⟨g, rfl, wf, rfl, by simp⟩
  | cons edge rest ih =>
    obtain ⟨source, target, attrs⟩ := edge
    obtain ⟨⟨sourceLive, targetLive⟩, live⟩ := List.forall_mem_cons.mp live
    obtain ⟨single, nodup⟩ := List.nodup_cons.mp nodup
    obtain ⟨freeHead, free⟩ := List.forall_mem_cons.mp free
    have added : g.addEdge source target attrs = .ok _ :=
      addEdge_eq_ok_iff.mpr ⟨sourceLive, targetLive, freeHead, rfl⟩
    have freeRest : ∀ e ∈ rest, e.2.1 ∉ (g.insertEdge ⟨source, target, attrs⟩).succs e.1 := by
      intro e member taken
      rcases mem_insertEdge_succs.mp taken with ⟨sameSource, sameTarget⟩ | taken
      · exact single (List.mem_map.mpr ⟨e, member, Prod.ext sameSource sameTarget⟩)
      · exact free e member taken
    obtain ⟨h, ran, wellFormed, nodes, succs⟩ :=
      ih (wf.insertEdge sourceLive targetLive freeHead) live nodup freeRest
    refine ⟨h, ?_, wellFormed, nodes, fun a b => ?_⟩
    · simp only [addEdges, List.foldlM_cons, added]
      exact ran
    · rw [succs, mem_insertEdge_succs, List.map_cons, List.mem_cons, Prod.mk.injEq]
      tauto

/-! ## Which edges are kept -/

section

variable {head a b : NodeId} {loopEdge : Option (NodeId × NodeId)}

private theorem mem_entering_sources :
    a ∈ (g.rewiring head members loopEdge).entering.map Edge.source ↔
      a ∉ members ∧ ∃ m ∈ members, g.Step a m := by
  rw [rewiring, mem_map_firstOfEach]
  simp only [List.mem_map, List.mem_filter, List.mem_flatMap, inEdges, Step, mem_succs,
    beq_iff_eq, Bool.not_eq_true', List.contains_eq_mem, decide_eq_false_iff_not]
  constructor
  · rintro ⟨e, ⟨⟨m, member, edge, target⟩, outside⟩, rfl⟩
    exact ⟨outside, m, member, e, edge, rfl, target⟩
  · rintro ⟨outside, m, member, e, edge, rfl, target⟩
    exact ⟨e, ⟨⟨m, member, edge, target⟩, outside⟩, rfl⟩

private theorem mem_leaving_targets :
    b ∈ (g.rewiring head members loopEdge).leaving.map Edge.target ↔
      b ∉ members ∧ ∃ m ∈ members, g.Step m b := by
  rw [rewiring, mem_map_firstOfEach]
  simp only [List.mem_map, List.mem_filter, List.mem_flatMap, outEdges, Step, mem_succs,
    beq_iff_eq, Bool.not_eq_true', List.contains_eq_mem, decide_eq_false_iff_not]
  constructor
  · rintro ⟨e, ⟨⟨m, member, edge, source⟩, outside⟩, rfl⟩
    exact ⟨outside, m, member, e, edge, source, rfl⟩
  · rintro ⟨outside, m, member, e, edge, source, rfl⟩
    exact ⟨e, ⟨⟨m, member, edge, source⟩, outside⟩, rfl⟩

private theorem loop_isSome_iff :
    (g.rewiring head members loopEdge).loop.isSome = true ↔
      ∃ m ∈ members, g.Step m head ∧ loopEdge ≠ some (m, head) := by
  simp only [rewiring, List.find?_isSome, List.mem_flatMap, outEdges, List.mem_filter, beq_iff_eq,
    Bool.and_eq_true, bne_iff_ne, Step, mem_succs]
  constructor
  · rintro ⟨e, ⟨m, member, edge, rfl⟩, rfl, unexplained⟩
    exact ⟨_, member, ⟨e, edge, rfl, rfl⟩, unexplained⟩
  · rintro ⟨m, member, ⟨e, edge, rfl, rfl⟩, unexplained⟩
    exact ⟨e, ⟨_, member, edge, rfl⟩, rfl, unexplained⟩

/-- The ends of the edges that a merge adds. -/
private def keptEnds (kept : Rewiring) (merged : NodeId) : List (NodeId × NodeId) :=
  (kept.edges merged).map fun e => (e.1, e.2.1)

private theorem keptEnds_eq (kept : Rewiring) (merged : NodeId) :
    keptEnds kept merged = kept.entering.map (fun e => (e.source, merged)) ++
      kept.leaving.map (fun e => (merged, e.target)) ++
      kept.loop.toList.map fun _ => (merged, merged) := by
  simp [keptEnds, Rewiring.edges, Function.comp_def]

private theorem nodup_keptEnds {merged : NodeId} (fresh : merged ∉ g.nodeIds) (wf : g.WellFormed) :
    (keptEnds (g.rewiring head members loopEdge) merged).Nodup := by
  have entering : ∀ e ∈ (g.rewiring head members loopEdge).entering, e.source ≠ merged := by
    intro e member same
    obtain ⟨-, m, -, edge⟩ := mem_entering_sources.mp (List.mem_map_of_mem member)
    exact fresh (same ▸ wf.source_live edge)
  have leaving : ∀ e ∈ (g.rewiring head members loopEdge).leaving, e.target ≠ merged := by
    intro e member same
    obtain ⟨-, m, -, edge⟩ := mem_leaving_targets.mp (List.mem_map_of_mem member)
    exact fresh (same ▸ wf.target_live edge)
  have first : ((g.rewiring head members loopEdge).entering.map
      fun e => (e.source, merged)).Nodup := by
    have keyed := nodup_firstOfEach Edge.source
      ((members.flatMap g.inEdges).filter fun e => !members.contains e.source)
    have paired := keyed.map (f := fun a => (a, merged)) fun _ _ same => (Prod.mk.inj same).1
    rwa [List.map_map] at paired
  have second : ((g.rewiring head members loopEdge).leaving.map
      fun e => (merged, e.target)).Nodup := by
    have keyed := nodup_firstOfEach Edge.target
      ((members.flatMap g.outEdges).filter fun e => !members.contains e.target)
    have paired := keyed.map (f := fun b => (merged, b)) fun _ _ same => (Prod.mk.inj same).2
    rwa [List.map_map] at paired
  have third : ((g.rewiring head members loopEdge).loop.toList.map
      fun _ => (merged, merged)).Nodup := by
    cases (g.rewiring head members loopEdge).loop <;> simp
  rw [keptEnds_eq]
  refine List.nodup_append.mpr ⟨List.nodup_append.mpr ⟨first, second, ?_⟩, third, ?_⟩
  · rintro x left y right rfl
    obtain ⟨e, member, rfl⟩ := List.mem_map.mp left
    obtain ⟨f, -, same⟩ := List.mem_map.mp right
    exact entering e member (Prod.mk.inj same).1.symm
  · rintro x left y right rfl
    obtain ⟨-, -, rfl⟩ := List.mem_map.mp right
    rcases List.mem_append.mp left with left | left
    · obtain ⟨e, member, same⟩ := List.mem_map.mp left
      exact entering e member (Prod.mk.inj same).1
    · obtain ⟨e, member, same⟩ := List.mem_map.mp left
      exact leaving e member (Prod.mk.inj same).2

private theorem mem_keptEnds {merged : NodeId} :
    (a, b) ∈ keptEnds (g.rewiring head members loopEdge) merged ↔
      (b = merged ∧ a ∉ members ∧ ∃ m ∈ members, g.Step a m) ∨
      (a = merged ∧ b ∉ members ∧ ∃ m ∈ members, g.Step m b) ∨
      (a = merged ∧ b = merged ∧ ∃ m ∈ members, g.Step m head ∧ loopEdge ≠ some (m, head)) := by
  rw [← @mem_entering_sources g members head a loopEdge,
    ← @mem_leaving_targets g members head b loopEdge, ← loop_isSome_iff]
  simp only [keptEnds_eq, List.mem_append, List.mem_map, Prod.mk.injEq, or_assoc]
  refine or_congr ?_ (or_congr ?_ ?_)
  · exact ⟨fun ⟨e, member, source, target⟩ => ⟨target.symm, e, member, source⟩,
      fun ⟨target, e, member, source⟩ => ⟨e, member, source, target.symm⟩⟩
  · exact ⟨fun ⟨e, member, source, target⟩ => ⟨source.symm, e, member, target⟩,
      fun ⟨source, e, member, target⟩ => ⟨e, member, source.symm, target⟩⟩
  · rw [Option.isSome_iff_exists]
    exact ⟨fun ⟨e, member, source, target⟩ =>
        ⟨source.symm, target.symm, e, Option.mem_toList.mp member⟩,
      fun ⟨source, target, e, kept⟩ =>
        ⟨e, Option.mem_toList.mpr kept, source.symm, target.symm⟩⟩

end

/-! ## Merging -/

/-- One graph is the other with some nodes, a head among them, merged into a new one. -/
structure Merged (g : FlowGraph) (head : NodeId) (members : List NodeId)
    (loopEdge : Option (NodeId × NodeId)) (merged : NodeId) (h : FlowGraph) : Prop where
  wf : h.WellFormed
  fresh : merged ∉ g.nodeIds
  nodeIds : ∀ {n}, n ∈ h.nodeIds ↔ (n ∈ g.nodeIds ∧ n ∉ members) ∨ n = merged
  labelOutside : ∀ {n}, n ∈ g.nodeIds → n ∉ members → h.label n = g.label n
  labelMerged : h.label merged = g.label head
  entry : ∀ {e}, g.entry? = some e → h.entry? = some (if e ∈ members then merged else e)
  step_iff : ∀ {a b}, h.Step a b ↔
    (g.Step a b ∧ a ∉ members ∧ b ∉ members) ∨
    (b = merged ∧ a ∉ members ∧ ∃ m ∈ members, g.Step a m) ∨
    (a = merged ∧ b ∉ members ∧ ∃ m ∈ members, g.Step m b) ∨
    (a = merged ∧ b = merged ∧ ∃ m ∈ members, g.Step m head ∧ loopEdge ≠ some (m, head))

theorem Merged.ne_merged {head merged n : NodeId} {loopEdge : Option (NodeId × NodeId)}
    (done : Merged g head members loopEdge merged h) (old : n ∈ g.nodeIds) : n ≠ merged := by
  rintro rfl
  exact done.fresh old

/-- What a merge does depends on its members but not on their order. -/
theorem Merged.of_mem_iff {head merged : NodeId} {ids : List NodeId}
    {loopEdge : Option (NodeId × NodeId)} (done : Merged g head members loopEdge merged h)
    (same : ∀ {id}, id ∈ members ↔ id ∈ ids) : Merged g head ids loopEdge merged h where
  wf := done.wf
  fresh := done.fresh
  nodeIds {n} := by simpa only [same] using done.nodeIds (n := n)
  labelOutside {n} := by simpa only [same] using done.labelOutside (n := n)
  labelMerged := done.labelMerged
  entry {e} := by simpa only [same] using done.entry (e := e)
  step_iff {a b} := by simpa only [same] using done.step_iff (a := a) (b := b)

section

variable {model : Node}

theorem mem_mergeOrder {ids : List NodeId} (live : ∀ id ∈ ids, id ∈ g.nodeIds)
    {head id : NodeId} (first : head ∈ ids) : id ∈ g.mergeOrder head ids ↔ id ∈ ids := by
  simp only [mergeOrder, List.mem_cons, List.mem_filter, Bool.and_eq_true, bne_iff_ne,
    List.contains_iff_mem]
  constructor
  · rintro (rfl | ⟨-, -, member⟩)
    · exact first
    · exact member
  · intro member
    by_cases same : id = head
    · exact .inl same
    · exact .inr ⟨live id member, same, member⟩

theorem mergedAttrs_marksEntry :
    (g.mergedAttrs model members).marksEntry = true ↔ ∃ e, g.entry? = some e ∧ e ∈ members := by
  unfold mergedAttrs
  split
  · next marked => simpa [AttrMap.marksEntry, Option.any_eq_true] using marked
  · next unmarked => simpa [AttrMap.marksEntry, Option.any_eq_true] using unmarked

private theorem addNode_merged (wf : g.WellFormed) (member : model ∈ g.nodes)
    (head : model.id ∈ members) :
    (members.foldl removeNode g).addNode model.label (g.mergedAttrs model members) =
      .ok (g.nextNode, (members.foldl removeNode g).insertNode model.label
        (g.mergedAttrs model members)) := by
  refine addNode_eq_ok_iff.mpr ⟨find?_eq_none_iff.mpr fun n kept same => ?_, fun marks => ?_, ?_⟩
  · obtain ⟨live, outside⟩ := mem_removeAll_nodes.mp kept
    exact outside (List.inj_on_of_nodup_map wf.labelsNodup live member same ▸ head)
  · obtain ⟨e, entered, inside⟩ := mergedAttrs_marksEntry.mp marks
    obtain ⟨entry, entryMember, marked, rfl⟩ := exists_of_entry_eq entered
    refine entry?_eq_none_iff.mpr fun n kept => ?_
    obtain ⟨live, outside⟩ := mem_removeAll_nodes.mp kept
    by_contra entering
    exact outside (wf.oneEntry n live entry entryMember (by simpa using entering) marked ▸ inside)
  · rw [removeAll_nextNode]

end

/-- The edges that a merge adds can be added. -/
private theorem addEdges_merged (wf : g.WellFormed) {label : String} {attrs : AttrMap}
    {loopEdge : Option (NodeId × NodeId)} {head : NodeId}
    (wfInserted : ((members.foldl removeNode g).insertNode label attrs).WellFormed) :
    ∃ h, ((members.foldl removeNode g).insertNode label attrs).addEdges
        ((g.rewiring head members loopEdge).edges g.nextNode) = .ok h ∧
      h.WellFormed ∧ h.nodes = ((members.foldl removeNode g).insertNode label attrs).nodes ∧
      ∀ a b, h.Step a b ↔
        (a, b) ∈ keptEnds (g.rewiring head members loopEdge) g.nextNode ∨
          (members.foldl removeNode g).Step a b := by
  have fresh : g.nextNode ∉ g.nodeIds := fun live => Nat.lt_irrefl _ (wf.idsBelow _ live)
  have inserted {id : NodeId} : id ∈ ((members.foldl removeNode g).insertNode label attrs).nodeIds ↔
      id = g.nextNode ∨ id ∈ g.nodeIds ∧ id ∉ members := by
    rw [mem_insertNode_nodeIds, removeAll_nextNode, mem_removeAll_nodeIds]
  have kept {e : NodeId × NodeId × AttrMap}
      (member : e ∈ (g.rewiring head members loopEdge).edges g.nextNode) :
      (e.1, e.2.1) ∈ keptEnds (g.rewiring head members loopEdge) g.nextNode :=
    List.mem_map_of_mem member
  have live (e : NodeId × NodeId × AttrMap)
      (member : e ∈ (g.rewiring head members loopEdge).edges g.nextNode) :
      e.1 ∈ ((members.foldl removeNode g).insertNode label attrs).nodeIds ∧
        e.2.1 ∈ ((members.foldl removeNode g).insertNode label attrs).nodeIds := by
    rw [inserted, inserted]
    rcases mem_keptEnds.mp (kept member) with
      ⟨target, outside, m, -, edge⟩ | ⟨source, outside, m, -, edge⟩ | ⟨source, target, -⟩
    · exact ⟨.inr ⟨wf.source_live edge, outside⟩, .inl target⟩
    · exact ⟨.inl source, .inr ⟨wf.target_live edge, outside⟩⟩
    · exact ⟨.inl source, .inl target⟩
  have free (e : NodeId × NodeId × AttrMap)
      (member : e ∈ (g.rewiring head members loopEdge).edges g.nextNode) :
      e.2.1 ∉ ((members.foldl removeNode g).insertNode label attrs).succs e.1 := by
    intro taken
    obtain ⟨edge, present, source, target⟩ := mem_succs.mp taken
    obtain ⟨old, -, -⟩ := mem_removeAll_edges.mp present
    obtain ⟨sourceLive, targetLive⟩ := wf.edgesLive edge old
    rcases mem_keptEnds.mp (kept member) with ⟨same, -⟩ | ⟨same, -⟩ | ⟨same, -⟩
    · exact fresh (target.trans same ▸ targetLive)
    · exact fresh (source.trans same ▸ sourceLive)
    · exact fresh (source.trans same ▸ sourceLive)
  obtain ⟨h, ran, wfAll, nodes, succs⟩ :=
    addEdges_eq_ok wfInserted live (nodup_keptEnds fresh wf) free
  refine ⟨h, ran, wfAll, nodes, fun a b => ?_⟩
  rw [Step, succs]
  rfl

/-- The steps of a merge, whatever the order of the members. -/
private theorem exists_merged (wf : g.WellFormed) {model : Node} (modelMember : model ∈ g.nodes)
    (head : model.id ∈ members) (loopEdge : Option (NodeId × NodeId)) :
    ∃ h, ((members.foldl removeNode g).insertNode model.label
        (g.mergedAttrs model members)).addEdges
          ((g.rewiring model.id members loopEdge).edges g.nextNode) = .ok h ∧
      Merged g model.id members loopEdge g.nextNode h := by
  obtain ⟨label, single, -⟩ := addNode_eq_ok_iff.mp (addNode_merged wf modelMember head)
  obtain ⟨h, ran, wfAll, nodes, steps⟩ :=
    @addEdges_merged g members wf _ _ loopEdge model.id (wf.removeAll.insertNode label single)
  have newId : ((members.foldl removeNode g).newNode model.label
      (g.mergedAttrs model members)).id = g.nextNode := removeAll_nextNode
  have member {n : Node} : n ∈ h.nodes ↔
      n = (members.foldl removeNode g).newNode model.label (g.mergedAttrs model members) ∨
        n ∈ g.nodes ∧ n.id ∉ members := by
    rw [nodes, mem_insertNode, mem_removeAll_nodes]
  have newMember := member.mpr (.inl rfl)
  refine ⟨h, ran, wfAll, ?_, ?_, ?_, ?_, ?_, ?_⟩
  · exact fun live => Nat.lt_irrefl _ (wf.idsBelow _ live)
  · intro n
    simp only [mem_nodeIds, member]
    constructor
    · rintro ⟨m, rfl | ⟨old, outside⟩, rfl⟩
      · exact .inr newId
      · exact .inl ⟨⟨m, old, rfl⟩, outside⟩
    · rintro (⟨⟨m, old, rfl⟩, outside⟩ | rfl)
      · exact ⟨m, .inr ⟨old, outside⟩, rfl⟩
      · exact ⟨_, .inl rfl, newId⟩
  · intro n live outside
    obtain ⟨m, old, rfl⟩ := mem_nodeIds.mp live
    rw [wfAll.label_node (member.mpr (.inr ⟨old, outside⟩)), wf.label_node old]
  · rw [← newId, wfAll.label_node newMember, wf.label_node modelMember]
    rfl
  · intro e entered
    obtain ⟨m, old, marked, rfl⟩ := exists_of_entry_eq entered
    refine wfAll.entry?_eq_some_iff.mpr ?_
    by_cases inside : m.id ∈ members
    · rw [if_pos inside]
      exact ⟨_, newMember, mergedAttrs_marksEntry.mpr ⟨m.id, entered, inside⟩, newId⟩
    · rw [if_neg inside]
      exact ⟨m, member.mpr (.inr ⟨old, inside⟩), marked, rfl⟩
  · intro a b
    have removed : (members.foldl removeNode g).Step a b ↔
        g.Step a b ∧ a ∉ members ∧ b ∉ members := by
      simp only [Step, mem_succs, mem_removeAll_edges]
      constructor
      · rintro ⟨e, ⟨edge, source, target⟩, rfl, rfl⟩
        exact ⟨⟨e, edge, rfl, rfl⟩, source, target⟩
      · rintro ⟨⟨e, edge, rfl, rfl⟩, source, target⟩
        exact ⟨e, ⟨edge, source, target⟩, rfl, rfl⟩
    rw [steps, removed, mem_keptEnds, or_comm]

/-- Different live nodes can be merged. -/
theorem mergeNodes_merged (wf : g.WellFormed) {head : NodeId} {rest : List NodeId}
    (live : ∀ id ∈ head :: rest, id ∈ g.nodeIds) (nodup : (head :: rest).Nodup)
    (loopEdge : Option (NodeId × NodeId)) :
    ∃ merged h, g.mergeNodes (head :: rest) loopEdge = .ok (merged, h) ∧
      Merged g head (head :: rest) loopEdge merged h := by
  obtain ⟨model, modelMember, rfl⟩ := mem_nodeIds.mp (live head List.mem_cons_self)
  have found : g.node? model.id = some model := wf.node?_eq_some_iff.mpr ⟨modelMember, rfl⟩
  have checked := checkMembers_eq_ok_iff.mpr
    ⟨fun id member => ⟨live id member, List.not_mem_nil⟩, nodup⟩
  have order {id : NodeId} :
      id ∈ g.mergeOrder model.id (model.id :: rest) ↔ id ∈ model.id :: rest :=
    mem_mergeOrder live List.mem_cons_self
  have headInside := order.mpr List.mem_cons_self
  have added := addNode_merged wf modelMember headInside
  obtain ⟨h, ran, merged⟩ := exists_merged wf modelMember headInside loopEdge
  refine ⟨g.nextNode, h, ?_, merged.of_mem_iff order⟩
  simp only [mergeNodes, checked, found, bind, Except.bind, added, ran]
  rfl

theorem findAll_label (wf : g.WellFormed) {ids : List NodeId} (live : ∀ id ∈ ids, id ∈ g.nodeIds) :
    g.findAll (ids.map g.label) = .ok ids := by
  induction ids with
  | nil => rfl
  | cons id rest ih =>
    obtain ⟨first, live⟩ := List.forall_mem_cons.mp live
    have others := ih live
    simp only [findAll] at others
    simp only [findAll, List.map_cons, List.mapM_cons, wf.find?_label first, others]
    rfl

end FlowGraph

end ControlFlow
