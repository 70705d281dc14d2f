import ControlFlow.Proofs.Store.Nodes

/-! Nodes that are rewritten where they lie. A change that keeps the numbers and the labels of nodes
touches the arena alone, and the entry when it is a mark that is written. Tables are changed one node
after the other and a graph all at once; as every node comes once, the outcome is the same. -/
namespace ControlFlow

namespace FlowGraph

variable {g : FlowGraph} {change : Node → Node}

theorem find?_map (ids : ∀ n, (change n).id = n.id) (labels : ∀ n, (change n).label = n.label)
    (label : String) :
    FlowGraph.find? { g with nodes := g.nodes.map change } label = g.find? label := by
  have sameKey : (fun n : Node => n.label == label) ∘ change = fun n => n.label == label :=
    funext fun n => congrArg (· == label) (labels n)
  have sameId : Node.id ∘ change = Node.id := funext ids
  simp only [find?, List.find?_map, sameKey, Option.map_map, sameId]

theorem entry?_map (ids : ∀ n, (change n).id = n.id) (marks : ∀ n, (change n).isEntry = n.isEntry) :
    FlowGraph.entry? { g with nodes := g.nodes.map change } = g.entry? := by
  have sameMark : Node.isEntry ∘ change = Node.isEntry := funext marks
  have sameId : Node.id ∘ change = Node.id := funext ids
  simp only [ entry?, List.find?_map, sameMark, Option.map_map, sameId]

end FlowGraph

namespace Store

variable {s t : Store} {g : FlowGraph}

theorem modifyNode_node? (id : NodeId) (change : StoredNode → StoredNode) (other : NodeId) :
    (s.modifyNode id change).node? other =
      if other = id then (s.node? other).map change else s.node? other := by
  simp only [Store.node?, modifyNode, Array.getElem?_modify, eq_comm (a := id)]
  split
  · cases s.nodes[other]? with
    | none => rfl
    | some slot => rfl
  · rfl

/-- Tables in which nodes have been rewritten hold the graph whose nodes have been. -/
theorem Holds.mapNodes (holds : s.Holds g) {change : Node → Node}
    (ids : ∀ n, (change n).id = n.id) (labels : ∀ n, (change n).label = n.label)
    {nodes : Array (Option StoredNode)} (size : nodes.size = s.nodes.size)
    (rewritten : ∀ id, (nodes[id]?).join = (g.node? id).map (Node.stored ∘ change))
    {entry : Option NodeId}
    (entered : entry = FlowGraph.entry? { g with nodes := g.nodes.map change }) :
    Holds { s with nodes, entry } { g with nodes := g.nodes.map change } where
  name := holds.name
  attrs := holds.attrs
  node? id := by
    rw [FlowGraph.node?_map ids, Option.map_map]
    exact rewritten id
  order := holds.order.trans (FlowGraph.nodeIds_map ids).symm
  find? label := (holds.find? label).trans (FlowGraph.find?_map ids labels label).symm
  entry := entered
  outgoing := holds.outgoing
  incoming := holds.incoming
  nodesSize := size.trans holds.nodesSize
  edgesSize := holds.edgesSize
  outgoingSize := holds.outgoingSize
  incomingSize := holds.incomingSize

/-! ## One node after the other -/

section

variable {ι : Type} {key : ι → NodeId} {change : ι → StoredNode → StoredNode} {items : List ι}

/-- Tables in which some nodes have been rewritten. -/
structure Rewritten (key : ι → NodeId) (change : ι → StoredNode → StoredNode) (items : List ι)
    (s t : Store) : Prop where
  frame : t = { s with nodes := t.nodes }
  size : t.nodes.size = s.nodes.size
  changed : ∀ item ∈ items, t.node? (key item) = (s.node? (key item)).map (change item)
  others : ∀ id ∉ items.map key, t.node? id = s.node? id

theorem foldl_modifyNode (nodup : (items.map key).Nodup) (s : Store) :
    Rewritten key change items s
      (items.foldl (fun s item => s.modifyNode (key item) (change item)) s) := by
  induction items generalizing s with
  | nil => exact ⟨rfl, rfl, nofun, fun _ _ => rfl⟩
  | cons item rest ih =>
    obtain ⟨once, nodup⟩ := List.nodup_cons.mp nodup
    have later := ih nodup (s.modifyNode (key item) (change item))
    refine ⟨later.frame, later.size.trans Array.size_modify, fun other member => ?_,
      fun id different => ?_⟩
    · rcases List.mem_cons.mp member with rfl | member
      -- No later item has the same node, so what has been written stays.
      · rw [List.foldl_cons, later.others _ once, modifyNode_node?, if_pos rfl]
      · have apart : key other ≠ key item := fun same =>
          once (same ▸ List.mem_map_of_mem member)
        rw [List.foldl_cons, later.changed other member, modifyNode_node?, if_neg apart]
    · rw [List.map_cons, List.mem_cons, not_or] at different
      rw [List.foldl_cons, later.others id different.2, modifyNode_node?, if_neg different.1]

/-- Tables that were rewritten node by node hold the graph that was rewritten all at once, if both
changes agree on every node and none touches the mark of the entry. -/
theorem Rewritten.holds (rewritten : Rewritten key change items s t) (holds : s.Holds g)
    (wf : g.WellFormed) {whole : Node → Node} (ids : ∀ n, (whole n).id = n.id)
    (labels : ∀ n, (whole n).label = n.label) (marks : ∀ n, (whole n).isEntry = n.isEntry)
    (agrees : ∀ n ∈ g.nodes, ∀ item ∈ items, key item = n.id →
      change item n.stored = (whole n).stored)
    (skipped : ∀ n ∈ g.nodes, n.id ∉ items.map key → whole n = n) :
    t.Holds { g with nodes := g.nodes.map whole } := by
  rw [rewritten.frame]
  refine holds.mapNodes ids labels rewritten.size (fun id => ?_)
    (holds.entry.trans (FlowGraph.entry?_map ids marks).symm)
  show t.node? id = _
  cases found : g.node? id with
  | none =>
    have absent : s.node? id = none := by rw [holds.node?, found, Option.map_none]
    by_cases listed : id ∈ items.map key
    · obtain ⟨item, member, rfl⟩ := List.mem_map.mp listed
      rw [rewritten.changed item member, absent, Option.map_none, Option.map_none]
    · rw [rewritten.others id listed, absent, Option.map_none]
  | some n =>
    obtain ⟨member, rfl⟩ := wf.node?_eq_some_iff.mp found
    have present : s.node? n.id = some n.stored := by rw [holds.node?, found, Option.map_some]
    rw [Option.map_some, Function.comp_apply]
    by_cases listed : n.id ∈ items.map key
    · obtain ⟨item, itemMember, same⟩ := List.mem_map.mp listed
      rw [← same, rewritten.changed item itemMember, same, present, Option.map_some,
        agrees n member item itemMember same]
    · rw [rewritten.others n.id listed, present, skipped n member listed]

end

/-! ## The changes -/

namespace Holds

variable (holds : s.Holds g) (sound : g.Sound)
include holds sound

theorem markEntry {id : NodeId} {h : FlowGraph} (changed : g.setEntry id = .ok h) :
    (s.markEntry id).Holds h := by
  have after := (sound.setEntry changed).wf
  have live : id ∈ g.nodeIds := by
    by_contra absent
    simp [FlowGraph.setEntry, FlowGraph.contains_eq_false_iff.mpr absent] at changed
  obtain ⟨-, rfl⟩ := FlowGraph.setEntry_eq_ok changed
  refine holds.mapNodes (fun n => by split <;> rfl) (fun n => by split <;> rfl)
    Array.size_modify (fun other => ?_) ?_
  · refine (modifyNode_node? id _ other).trans ?_
    show (if other = id then (s.node? other).map _ else s.node? other) = _
    cases found : g.node? other with
    | none => simp [holds.node?, found]
    | some n =>
      obtain ⟨-, rfl⟩ := sound.wf.node?_eq_some_iff.mp found
      rw [holds.node?, found]
      by_cases same : n.id = id <;> simp [same, Node.stored]
  · obtain ⟨n, member, rfl⟩ := FlowGraph.mem_nodeIds.mp live
    refine (after.entry?_eq_some_iff.mpr ⟨_, List.mem_map_of_mem member, ?_, ?_⟩).symm
    · simp [Node.isEntry, AttrMap.marksEntry]
    · simp

theorem setEntry (id : NodeId) : s.Mirrors (setEntry id) (((), ·) <$> g.setEntry id) := by
  refine mirrors_of_runOn (a := ()) (t := s.markEntry id) ?_ ?_
  · rw [Store.setEntry, Procedure.runOn_get_bind, holds.contains, holds.entry, holds.label,
      FlowGraph.setEntry]
    cases g.contains id with
    | false => rfl
    | true =>
      cases g.entry? with
      | none => rfl
      | some entry =>
        cases same : entry == id <;> simp [bne, same] <;> rfl
  · intro a h changed
    cases ran : g.setEntry id with
    | error error => simp [ran] at changed
    | ok result =>
      rw [ran] at changed
      cases changed
      exact ⟨rfl, holds.markEntry sound ran⟩

omit sound in
theorem resetAnnotations : s.Mirrors resetAnnotations (.ok ((), g.resetAnnotations)) := by
  have reset (id : NodeId) : ((s.nodes.map (Option.map fun n =>
      { n with notes := .ofAttrs n.attrs }))[id]?).join =
        (g.node? id).map (Node.stored ∘ fun n => { n with notes := .ofAttrs n.attrs }) := by
    have here := congrArg (Option.map fun n : StoredNode => { n with notes := .ofAttrs n.attrs })
      (holds.node? id)
    rw [Option.map_map] at here
    refine Eq.trans ?_ here
    rw [Array.getElem?_map, Store.node?]
    cases s.nodes[id]? <;> rfl
  refine ⟨_, rfl, holds.mapNodes ?_ ?_ Array.size_map reset (holds.entry.trans ?_)⟩
  · exact fun _ => rfl
  · exact fun _ => rfl
  · refine (FlowGraph.entry?_map ?_ ?_).symm
    · exact fun _ => rfl
    · exact fun _ => rfl

omit sound in
theorem numbering (start : NodeId) : s.numbering start = g.numbering start := by
  rw [Store.numbering, holds.succs, holds.order]
  rfl

theorem number : s.Mirrors number g.number := by
  refine mirrors_of_runOn (a := g.numbering (s.entry.getD 0))
    (t := s.order.foldl (recordNumber (g.numbering (s.entry.getD 0))) s) ?_ ?_
  · rw [Store.number, Procedure.runOn_get_bind, FlowGraph.number, FlowGraph.entry, ← holds.entry,
      ← holds.name]
    cases s.entry with
    | none => rfl
    | some entry =>
      rw [← holds.numbering]
      rfl
  · intro numbering h ran
    obtain ⟨entry, entered, rfl, rfl⟩ := FlowGraph.number_eq_ok_iff.mp ran
    rw [holds.entry, entered, Option.getD_some]
    refine ⟨rfl, ?_⟩
    have listed : (s.order.map id).Nodup := by
      rw [List.map_id, holds.order]
      exact sound.wf.idsNodup
    refine (foldl_modifyNode listed s).holds holds sound.wf (fun n => ?_) (fun n => ?_) (fun n => ?_)
      (fun n member id there same => ?_) (fun n member absent => ?_)
    · split <;> rfl
    · split <;> rfl
    · split <;> rfl
    · obtain rfl : id = n.id := same
      cases (g.numbering entry).preNum? n.id <;> cases (g.numbering entry).postNum? n.id <;>
        cases (g.numbering entry).revPostNum? n.id <;> rfl
    · have live := FlowGraph.mem_nodeIds.mpr ⟨n, member, rfl⟩
      rw [List.map_id, holds.order] at absent
      exact absurd live absent

theorem mem_findings_iff (finding : NodeId × List (String × String)) :
    finding ∈ s.findings ↔ finding.2 ≠ [] ∧
      ∃ n, g.node? finding.1 = some n ∧ n.notes.findings g.label = finding.2 := by
  obtain ⟨id, entries⟩ := finding
  simp only [Store.findings, List.mem_filter, List.mem_filterMap, holds.node?, holds.label,
    holds.order, Option.map_map, Option.map_eq_some_iff, Function.comp_apply, Prod.mk.injEq,
    Bool.not_eq_true', List.isEmpty_eq_false_iff]
  constructor
  · rintro ⟨⟨other, -, n, found, rfl, written⟩, some⟩
    exact ⟨some, n, found, written⟩
  · rintro ⟨some, n, found, written⟩
    have live := FlowGraph.mem_nodeIds.mpr ⟨n, sound.wf.node?_eq_some_iff.mp found⟩
    exact ⟨⟨id, live, n, found, rfl, written⟩, some⟩

theorem findings_nodup : (s.findings.map Prod.fst).Nodup := by
  refine List.Nodup.sublist (List.filter_sublist.map _) ?_
  rw [List.map_filterMap, holds.order]
  refine sound.wf.idsNodup.filterMap fun a b id left right => ?_
  simp only [Option.map_map, Option.mem_def, Option.map_eq_some_iff, Function.comp_apply] at left right
  obtain ⟨-, -, rfl⟩ := left
  obtain ⟨-, -, rfl⟩ := right
  rfl

theorem exportAnnotations : s.Mirrors exportAnnotations (.ok ((), g.exportAnnotations)) := by
  have rewritten : Rewritten Prod.fst
      (fun finding n => { n with attrs := n.attrs.insertAll finding.2 }) s.findings s
      (s.findings.foldl writeFinding s) :=
    foldl_modifyNode (holds.findings_nodup sound) s
  refine ⟨_, rfl, rewritten.holds holds sound.wf (fun _ => rfl) (fun _ => rfl)
    FlowGraph.isEntry_insertFindings (fun n member finding there same => ?_)
    (fun n member absent => ?_)⟩
  · obtain ⟨-, m, found, written⟩ := (holds.mem_findings_iff sound finding).mp there
    rw [same, sound.wf.node?_eq_some_iff.mpr ⟨member, rfl⟩] at found
    obtain rfl := Option.some.inj found
    rw [← written]
    rfl
  · have nothing : n.notes.findings g.label = [] := by
      by_contra some
      have there := (holds.mem_findings_iff sound (n.id, _)).mpr
        ⟨some, n, sound.wf.node?_eq_some_iff.mpr ⟨member, rfl⟩, rfl⟩
      exact absent (List.mem_map_of_mem there)
    rw [nothing]
    rfl

end Holds

end Store

end ControlFlow
