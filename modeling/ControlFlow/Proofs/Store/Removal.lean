import ControlFlow.Proofs.Store.Holds
import ControlFlow.Proofs.Store.Lookups
import ControlFlow.Store.Update

/-! Removing a node from the tables. The numbers in both of its lists are gone through one by one. Each
takes its edge out of the arena and out of the list at the other end, and the number of a loop, which
comes twice, does nothing the second time. Once all are gone through, just the edges at the node are out
of the arena and of every list. -/
namespace ControlFlow.Store

variable {s t u : Store} {gone id : NodeId} {numbers : List EdgeId} {i : EdgeId}

/-! ## Going through the numbers -/

/-- A table lists edges that are there, each for the node at its side, and none for the node that is
going away. -/
def Spares (gone : NodeId) (edgeAt? : EdgeId → Option Edge) (side : Edge → NodeId)
    (table : Adjacency) : Prop :=
  ∀ id i, i ∈ table.listAt id → id ≠ gone ∧ ∃ e, edgeAt? i = some e ∧ side e = id

/-- What has become of the tables once some numbers have been gone through. -/
structure Cut (numbers : List EdgeId) (s t : Store) : Prop where
  name : t.name = s.name
  attrs : t.attrs = s.attrs
  nodes : t.nodes = s.nodes
  order : t.order = s.order
  labels : t.labels = s.labels
  entry : t.entry = s.entry
  edgeAt? : ∀ i, t.edgeAt? i = if i ∈ numbers then none else s.edgeAt? i
  outgoing : ∀ id, t.outgoing.listAt id = (s.outgoing.listAt id).filter (· ∉ numbers)
  incoming : ∀ id, t.incoming.listAt id = (s.incoming.listAt id).filter (· ∉ numbers)
  edgesSize : t.edges.size = s.edges.size
  outgoingSize : t.outgoing.size = s.outgoing.size
  incomingSize : t.incoming.size = s.incoming.size

theorem Spares.after_cut {edgeAt? edgeAt?' : EdgeId → Option Edge} {side : Edge → NodeId}
    {table table' : Adjacency} (spares : Spares gone edgeAt? side table)
    (edges : ∀ i, edgeAt?' i = if i ∈ numbers then none else edgeAt? i)
    (lists : ∀ id, table'.listAt id = (table.listAt id).filter (· ∉ numbers)) :
    Spares gone edgeAt?' side table' := by
  intro id i member
  rw [lists, List.mem_filter] at member
  obtain ⟨listed, kept⟩ := member
  rw [edges, if_neg (by simpa using kept)]
  exact spares id i listed

theorem filter_of_unlisted {listed : List EdgeId} (unlisted : i ∉ listed) :
    listed.filter (· ∉ [i]) = listed := by
  refine List.filter_eq_self.mpr fun j member => ?_
  simp only [List.mem_singleton, decide_not, Bool.not_eq_true', decide_eq_false_iff_not]
  rintro rfl
  exact unlisted member

/-- A number is dropped from the one list that has it. -/
theorem Spares.listAt_drop {edgeAt? : EdgeId → Option Edge} {side : Edge → NodeId}
    {table : Adjacency} (spares : Spares gone edgeAt? side table) {e : Edge}
    (found : edgeAt? i = some e) (id : NodeId) :
    Adjacency.listAt (if side e != gone then table.drop (side e) i else table) id =
      (table.listAt id).filter (· ∉ [i]) := by
  have elsewhere (other : id ≠ side e ∨ side e = gone) :
      (table.listAt id).filter (· ∉ [i]) = table.listAt id := by
    refine filter_of_unlisted fun member => ?_
    obtain ⟨apart, f, there, atSide⟩ := spares id i member
    obtain rfl := Option.some.inj (found.symm.trans there)
    rcases other with other | other
    · exact other atSide.symm
    · exact apart (atSide.symm.trans other)
  split
  · rw [Adjacency.listAt_drop]
    split
    · exact List.filter_congr fun j _ => by rw [Bool.eq_iff_iff]; simp
    · next other => exact (elsewhere (.inl other)).symm
  · next same => exact (elsewhere (.inr (by simpa using same))).symm

theorem detach_cut (outgoing : Spares gone s.edgeAt? Edge.source s.outgoing)
    (incoming : Spares gone s.edgeAt? Edge.target s.incoming) (i : EdgeId) :
    Cut [i] s (detach gone s i) := by
  unfold detach
  split
  · next unused =>
    -- The number of a loop comes a second time. Its edge is gone, and so it stands in no list.
    have nowhere {side : Edge → NodeId} {table : Adjacency}
        (spares : Spares gone s.edgeAt? side table) (id : NodeId) :
        table.listAt id = (table.listAt id).filter (· ∉ [i]) := by
      refine (filter_of_unlisted fun member => ?_).symm
      obtain ⟨-, e, there, -⟩ := spares id i member
      rw [unused] at there
      cases there
    refine ⟨rfl, rfl, rfl, rfl, rfl, rfl, fun j => ?_, nowhere outgoing, nowhere incoming,
      rfl, rfl, rfl⟩
    split
    · next same => rw [List.mem_singleton.mp same, unused]
    · rfl
  · next e found =>
    refine ⟨rfl, rfl, rfl, rfl, rfl, rfl, fun j => ?_, outgoing.listAt_drop found,
      incoming.listAt_drop found, Array.size_setIfInBounds, ?_, ?_⟩
    · simp only [List.mem_singleton]
      exact joined_set_none s.edges i j
    · dsimp only
      split <;> simp [Adjacency.drop]
    · dsimp only
      split <;> simp [Adjacency.drop]

theorem Cut.trans {more : List EdgeId} (first : Cut numbers s t) (second : Cut more t u) :
    Cut (numbers ++ more) s u where
  name := second.name.trans first.name
  attrs := second.attrs.trans first.attrs
  nodes := second.nodes.trans first.nodes
  order := second.order.trans first.order
  labels := second.labels.trans first.labels
  entry := second.entry.trans first.entry
  edgeAt? i := by
    rw [second.edgeAt?, first.edgeAt?]
    simp only [List.mem_append]
    split <;> split <;> simp_all
  outgoing id := by
    rw [second.outgoing, first.outgoing, List.filter_filter]
    exact List.filter_congr fun i _ => by simp [Bool.and_comm]
  incoming id := by
    rw [second.incoming, first.incoming, List.filter_filter]
    exact List.filter_congr fun i _ => by simp [Bool.and_comm]
  edgesSize := second.edgesSize.trans first.edgesSize
  outgoingSize := second.outgoingSize.trans first.outgoingSize
  incomingSize := second.incomingSize.trans first.incomingSize

theorem foldl_detach_cut (numbers : List EdgeId)
    (outgoing : Spares gone s.edgeAt? Edge.source s.outgoing)
    (incoming : Spares gone s.edgeAt? Edge.target s.incoming) :
    Cut numbers s (numbers.foldl (detach gone) s) := by
  induction numbers generalizing s with
  | nil =>
    refine ⟨rfl, rfl, rfl, rfl, rfl, rfl, fun i => ?_, fun id => ?_, fun id => ?_, rfl, rfl,
      rfl⟩ <;> simp
  | cons i rest ih =>
    have one := detach_cut outgoing incoming i
    exact one.trans (ih (outgoing.after_cut one.edgeAt? one.outgoing)
      (incoming.after_cut one.edgeAt? one.incoming))

/-! ## The whole removal -/

/-- Where both lists of a node have been emptied, all others still list edges that are there. -/
theorem spares_clear {edgeAt? : EdgeId → Option Edge} {side : Edge → NodeId} {table : Adjacency}
    {edges : List Edge} (lists : table.Lists edgeAt? side edges) (gone : NodeId) :
    Spares gone edgeAt? side (table.clear gone) := by
  intro id i member
  rw [Adjacency.listAt_clear] at member
  split at member
  · cases member
  · next other => exact ⟨other, lists.mem_listAt_iff.mp member⟩

/-- A list that was not emptied has lost the numbers at the node, and so has one that was. -/
theorem listAt_of_cut {id : NodeId} {side : Edge → NodeId} {table : Adjacency}
    {edges : List Edge} {edgeAt? edgeAt?' : EdgeId → Option Edge}
    (lists : table.Lists edgeAt? side edges) {attached : List EdgeId}
    (all : ∀ i ∈ table.listAt id, i ∈ attached)
    (cut : ∀ i, edgeAt?' i = if i ∈ attached then none else edgeAt? i) (other : NodeId) :
    ((table.clear id).listAt other).filter (· ∉ attached) =
      (table.listAt other).filter fun i => (edgeAt?' i).isSome := by
  have kept : (table.listAt other).filter (fun i => (edgeAt?' i).isSome) =
      (table.listAt other).filter (· ∉ attached) := by
    refine List.filter_congr fun i member => ?_
    obtain ⟨e, -, found, -⟩ := lists.live member
    by_cases gone : i ∈ attached <;> simp [cut, gone, found]
  rw [kept, Adjacency.listAt_clear]
  split
  · next same =>
    subst same
    refine (List.filter_eq_nil_iff.mpr fun i member => ?_).symm
    simp [all i member]
  · rfl

namespace Holds

variable {g : FlowGraph} (holds : s.Holds g)
include holds

/-- The edges that the lists of a node have are those at the node. -/
theorem mem_attached_iff {e : Edge} (found : s.edgeAt? i = some e) (id : NodeId) :
    i ∈ s.outgoing.listAt id ++ s.incoming.listAt id ↔ e.source = id ∨ e.target = id := by
  rw [List.mem_append, holds.outgoing.mem_listAt_iff, holds.incoming.mem_listAt_iff]
  simp [found]

/-- What is left of an edge table once the edges at a node are out of it. -/
theorem edgeAt?_of_cut (id : NodeId) {edgeAt?' : EdgeId → Option Edge}
    (cut : ∀ i, edgeAt?' i =
      if i ∈ s.outgoing.listAt id ++ s.incoming.listAt id then none else s.edgeAt? i) :
    ∀ i, edgeAt?' i = (s.edgeAt? i).filter fun e => e.source != id && e.target != id := by
  intro i
  rw [cut]
  cases found : s.edgeAt? i with
  | none => simp
  | some e =>
    rw [Option.filter_some]
    by_cases atNode : e.source = id ∨ e.target = id
    · have dropped : (e.source != id && e.target != id) = false := by grind
      rw [if_pos ((holds.mem_attached_iff found id).mpr atNode), dropped]
      rfl
    · have kept : (e.source != id && e.target != id) = true := by grind
      rw [if_neg (mt (holds.mem_attached_iff found id).mp atNode), kept, if_pos rfl]

theorem eraseNode (sound : g.Sound) {n : Node} (member : n ∈ g.nodes) :
    (s.eraseNode n.id n.label).Holds (g.removeNode n.id) := by
  have cut : Cut _ _ ((s.outgoing.listAt n.id ++ s.incoming.listAt n.id).foldl
      (detach n.id) (s.hollow n.id)) :=
    foldl_detach_cut _ (spares_clear holds.outgoing n.id) (spares_clear holds.incoming n.id)
  have edges := holds.edgeAt?_of_cut n.id cut.edgeAt?
  exact {
    name := cut.name.trans holds.name
    attrs := cut.attrs.trans holds.attrs
    node? := fun id => by
      have emptied := (congrArg (fun nodes => (nodes[id]?).join) cut.nodes).trans
        (joined_set_none s.nodes n.id id)
      refine emptied.trans ?_
      split
      · next same => rw [same, FlowGraph.removeNode_node?_self, Option.map_none]
      · next other =>
        rw [FlowGraph.removeNode_node? other]
        exact holds.node? id
    order := by
      rw [FlowGraph.removeNode_nodeIds, ← holds.order]
      exact congrArg (List.filter (· != n.id)) cut.order
    find? := fun label => by
      have erased := congrArg (fun labels => (labels.erase n.label)[label]?) cut.labels
      refine erased.trans ?_
      rw [Std.HashMap.getElem?_erase, FlowGraph.removeNode_find? sound.wf member, ← holds.find?]
      simp only [beq_iff_eq]
      rfl
    entry := by
      rw [ FlowGraph.removeNode_entry? sound.wf, ← holds.entry]
      exact congrArg (fun entry => if entry == some n.id then none else entry) cut.entry
    outgoing := holds.outgoing.restrict edges fun id => (cut.outgoing id).trans
      (listAt_of_cut holds.outgoing (fun i => List.mem_append_left _) cut.edgeAt? id)
    incoming := holds.incoming.restrict edges fun id => (cut.incoming id).trans
      (listAt_of_cut holds.incoming (fun i => List.mem_append_right _) cut.edgeAt? id)
    nodesSize := (congrArg Array.size cut.nodes).trans
      (Array.size_setIfInBounds.trans holds.nodesSize)
    edgesSize := cut.edgesSize.trans holds.edgesSize
    outgoingSize := cut.outgoingSize.trans (Array.size_modify.trans holds.outgoingSize)
    incomingSize := cut.incomingSize.trans (Array.size_modify.trans holds.incomingSize) }

end Holds

end ControlFlow.Store
