import ControlFlow.Proofs.Store.Insertion

/-! Lists of edges by their numbers. A table lists edges for each node at one side of them, their source
or their target. It tells the edges of a graph when the numbers listed for a node stand for just the
edges that the graph has there, in the same order, and no edge is listed at a wrong place. This survives
every way in which lists change: an edge put where it belongs, edges taken out, edges that are altered
where they lie, and a list sorted anew. -/
namespace ControlFlow

open FlowGraph (insertBefore map_insertBefore)

namespace Adjacency

variable {table : Adjacency}

@[simp] theorem listAt_push_nil (id : NodeId) :
    listAt (table.push []) id = table.listAt id := by
  simp only [listAt, Array.getElem?_push]
  split
  · next last => simp [last]
  · rfl

theorem listAt_modify {at? : NodeId} {change : List EdgeId → List EdgeId} (empty : change [] = [])
    (id : NodeId) :
    listAt (Array.modify table at? change) id =
      if id = at? then change (table.listAt id) else table.listAt id := by
  simp only [listAt, Array.getElem?_modify, eq_comm (a := at?)]
  split
  · cases table[id]? with
    | none => exact empty.symm
    | some list => rfl
  · rfl

@[simp] theorem listAt_drop (other : NodeId) (edge : EdgeId) (id : NodeId) :
    (table.drop other edge).listAt id =
      if id = other then (table.listAt id).filter (· != edge) else table.listAt id :=
  listAt_modify rfl id

@[simp] theorem listAt_clear (other id : NodeId) :
    (table.clear other).listAt id = if id = other then [] else table.listAt id :=
  listAt_modify rfl id

theorem listAt_insertAt {other : NodeId} (present : other < table.size) (place : Nat)
    (edge : EdgeId) (id : NodeId) :
    (table.insertAt other place edge).listAt id =
      if id = other then (table.listAt id).insertIdx place edge else table.listAt id := by
  simp only [insertAt, listAt, Array.getElem?_modify, eq_comm (a := other)]
  split
  · next same =>
    subst same
    simp [Array.getElem?_eq_getElem present]
  · rfl

/-- A table lists the edges of a graph: for each node those that have it at one side, by numbers that
stand for them. -/
structure Lists (table : Adjacency) (edgeAt? : EdgeId → Option Edge) (side : Edge → NodeId)
    (edges : List Edge) : Prop where
  values : ∀ id, (table.listAt id).map edgeAt? = (edges.filter (side · == id)).map some
  listed : ∀ i e, edgeAt? i = some e → i ∈ table.listAt (side e)

namespace Lists

variable {table table' : Adjacency} {edgeAt? edgeAt?' : EdgeId → Option Edge}
  {side : Edge → NodeId} {edges : List Edge} {i j : EdgeId} {e : Edge} {id : NodeId}

variable (lists : table.Lists edgeAt? side edges)
include lists

theorem live (member : i ∈ table.listAt id) : ∃ e ∈ edges, edgeAt? i = some e ∧ side e = id := by
  have value : edgeAt? i ∈ (edges.filter (side · == id)).map some :=
    lists.values id ▸ List.mem_map_of_mem member
  obtain ⟨e, kept, same⟩ := List.mem_map.mp value
  obtain ⟨there, atSide⟩ := List.mem_filter.mp kept
  exact ⟨e, there, same.symm, beq_iff_eq.mp atSide⟩

theorem mem_listAt_iff : i ∈ table.listAt id ↔ ∃ e, edgeAt? i = some e ∧ side e = id := by
  constructor
  · intro member
    obtain ⟨e, -, found, atSide⟩ := lists.live member
    exact ⟨e, found, atSide⟩
  · rintro ⟨e, found, rfl⟩
    exact lists.listed i e found

theorem mem_edges_iff : e ∈ edges ↔ ∃ i, edgeAt? i = some e := by
  constructor
  · intro member
    have value : some e ∈ (table.listAt (side e)).map edgeAt? := by
      rw [lists.values]
      exact List.mem_map_of_mem (List.mem_filter.mpr ⟨member, beq_self_eq_true _⟩)
    obtain ⟨i, -, found⟩ := List.mem_map.mp value
    exact ⟨i, found⟩
  · rintro ⟨i, found⟩
    obtain ⟨f, member, same, -⟩ := lists.live (lists.listed i e found)
    rw [found] at same
    exact Option.some.inj same ▸ member

theorem values_nodup (nodup : edges.Nodup) (id : NodeId) : ((table.listAt id).map edgeAt?).Nodup := by
  rw [lists.values]
  exact (nodup.filter _).map (Option.some_injective _)

/-- An edge has one number. -/
theorem number_inj (nodup : edges.Nodup) (left : edgeAt? i = some e) (right : edgeAt? j = some e) :
    i = j :=
  List.inj_on_of_nodup_map (lists.values_nodup nodup (side e)) (lists.listed i e left)
    (lists.listed j e right) (left.trans right.symm)

theorem count_listAt (nodup : edges.Nodup) (id : NodeId) (i : EdgeId) :
    (table.listAt id).count i = if (edgeAt? i).any (side · == id) then 1 else 0 := by
  rw [((lists.values_nodup nodup id).of_map _).count]
  simp [lists.mem_listAt_iff, Option.any_eq_true]

theorem filterMap_listAt (id : NodeId) :
    (table.listAt id).filterMap edgeAt? = edges.filter (side · == id) := by
  have values := congrArg (List.filterMap fun e? => e?) (lists.values id)
  rw [List.filterMap_map, List.filterMap_map] at values
  exact values.trans (List.filterMap_some)

/-- The numbers of a node stand in the order of its edges. -/
theorem pairwise_listAt {R : Edge → Edge → Prop}
    (sorted : (edges.filter (side · == id)).Pairwise R) :
    (table.listAt id).Pairwise fun i j =>
      ∀ e f, edgeAt? i = some e → edgeAt? j = some f → R e f := by
  have values : ((edges.filter (side · == id)).map some).Pairwise fun left right =>
      ∀ e f, left = some e → right = some f → R e f := by
    refine List.pairwise_map.mpr (sorted.imp fun related e f left right => ?_)
    rwa [← Option.some.inj left, ← Option.some.inj right]
  rw [← lists.values] at values
  exact List.pairwise_map.mp values

/-- A search among the numbers of a node finds the number of what a search among its edges finds. -/
theorem find?_listAt (test : Edge → Bool) (id : NodeId) :
    ((table.listAt id).find? fun i => (edgeAt? i).any test).map edgeAt? =
      ((edges.filter (side · == id)).find? test).map some := by
  have values := congrArg (List.find? (Option.any test)) (lists.values id)
  rw [List.find?_map, List.find?_map] at values
  exact values

/-! ## Changes of the lists -/

/-- Numbers that were not in use stand in no list. -/
theorem not_mem_of_unused {k : EdgeId} (unused : edgeAt? k = none) (id : NodeId) :
    k ∉ table.listAt id := by
  intro member
  obtain ⟨e, -, found, -⟩ := lists.live member
  rw [unused] at found
  cases found

/-- A new node has an empty list. -/
theorem push : Lists (table.push []) edgeAt? side edges where
  values id := by
    rw [listAt_push_nil]
    exact lists.values id
  listed i e found := by
    rw [listAt_push_nil]
    exact lists.listed i e found

/-- A new edge is put at its place in the list of one node. -/
theorem insert {new : Edge} {k : EdgeId} {less : Edge → Bool} {test : EdgeId → Bool}
    (unused : edgeAt? k = none) (present : side new < table.size)
    (after : ∀ i, edgeAt?' i = if i = k then some new else edgeAt? i)
    (parted : edges.Pairwise fun e f => less f = true → less e = true)
    (tests : ∀ i ∈ table.listAt (side new), test i = (edgeAt? i).any less) :
    (table.insertAt (side new) (partitionPoint test (table.listAt (side new))) k).Lists edgeAt?'
      side (insertBefore less new edges) := by
  have kept (id : NodeId) : ∀ i ∈ table.listAt id, edgeAt?' i = edgeAt? i := fun i member => by
    rw [after, if_neg]
    rintro rfl
    exact lists.not_mem_of_unused unused id member
  have partedHere : (table.listAt (side new)).Pairwise fun i j => test j = true → test i = true := by
    have values : ((edges.filter (side · == side new)).map some).Pairwise fun e f =>
        Option.any less f = true → Option.any less e = true :=
      List.pairwise_map.mpr (parted.sublist List.filter_sublist)
    rw [← lists.values] at values
    refine (List.pairwise_map.mp values).imp_of_mem fun {i j} left right order => ?_
    rw [tests i left, tests j right]
    exact order
  have placed := insertIdx_partitionPoint partedHere k
  constructor
  · intro id
    rw [listAt_insertAt present]
    split
    · next same =>
      subst same
      have sameTests : ∀ i ∈ table.listAt (side new), test i = (edgeAt?' i).any less :=
        fun i member => (kept _ i member).symm ▸ tests i member
      rw [placed, map_insertBefore sameTests, List.map_congr_left (kept _), lists.values, after k,
        if_pos rfl, filter_insertBefore_of_kept parted (by simp)]
      have byValue (listed : List Edge) : (insertBefore less new listed).map some =
          insertBefore (Option.any less) (some new) (listed.map some) :=
        map_insertBefore (fun e _ => (Option.any_some : (some e).any less = less e).symm) new
      exact (byValue _).symm
    · next other =>
      rw [List.map_congr_left (kept id), lists.values,
        FlowGraph.filter_insertBefore (by simpa using Ne.symm other)]
  · intro i e found
    rw [listAt_insertAt present]
    rw [after] at found
    split at found
    · next same =>
      subst same
      obtain rfl := Option.some.inj found
      rw [if_pos rfl, placed, (FlowGraph.insertBefore_perm _ _ _).mem_iff]
      exact List.mem_cons_self
    · have old := lists.listed i e found
      split
      · next same =>
        rw [same] at old ⊢
        rw [placed, (FlowGraph.insertBefore_perm _ _ _).mem_iff]
        exact List.mem_cons_of_mem _ old
      · exact old

/-- Edges are taken out of the graph, and their numbers out of all lists. -/
theorem restrict {keep : Edge → Bool} (after : ∀ i, edgeAt?' i = (edgeAt? i).filter keep)
    (lists' : ∀ id, table'.listAt id =
      (table.listAt id).filter fun i => (edgeAt?' i).isSome) :
    table'.Lists edgeAt?' side (edges.filter keep) where
  values id := by
    obtain rfl : edgeAt?' = Option.filter keep ∘ edgeAt? := funext after
    have kept := congrArg (List.filter fun e? => (Option.filter keep e?).isSome) (lists.values id)
    rw [List.filter_map, List.filter_map] at kept
    rw [lists', ← List.map_map]
    refine (congrArg (List.map (Option.filter keep)) kept).trans ?_
    rw [List.map_map, List.filter_comm]
    have same : (fun e? => (Option.filter keep e?).isSome) ∘ some = keep := by
      funext e
      by_cases passes : keep e = true <;> simp [passes]
    rw [same]
    refine List.map_congr_left fun e member => ?_
    simp [(List.mem_filter.mp (List.mem_of_mem_filter member)).2]
  listed i e found := by
    rw [lists', List.mem_filter]
    refine ⟨?_, found ▸ rfl⟩
    rw [after, Option.filter_eq_some_iff] at found
    exact lists.listed i e found.1

/-- A number that is taken out of the arena is dropped from the one list that has it. -/
theorem listAt_drop (found : edgeAt? i = some e)
    (after : ∀ j, edgeAt?' j = if j = i then none else edgeAt? j) (id : NodeId) :
    (table.drop (side e) i).listAt id =
      (table.listAt id).filter fun j => (edgeAt?' j).isSome := by
  have kept : (table.listAt id).filter (fun j => (edgeAt?' j).isSome) =
      (table.listAt id).filter (· != i) := by
    refine List.filter_congr fun j member => ?_
    obtain ⟨f, -, there, -⟩ := lists.live member
    by_cases same : j = i <;> simp [after, same, there]
  rw [kept, Adjacency.listAt_drop]
  split
  · rfl
  · next other =>
    refine (List.filter_eq_self.mpr fun j member => bne_iff_ne.mpr ?_).symm
    rintro rfl
    obtain ⟨f, there, atSide⟩ := lists.mem_listAt_iff.mp member
    exact other (Option.some.inj (found.symm.trans there) ▸ atSide.symm)

/-- Edges are altered where they lie, but not at the side that they are listed by. -/
theorem alter {change : Edge → Edge} (after : ∀ i, edgeAt?' i = (edgeAt? i).map change)
    (sameSide : ∀ e, side (change e) = side e) :
    table.Lists edgeAt?' side (edges.map change) where
  values id := by
    obtain rfl : edgeAt?' = Option.map change ∘ edgeAt? := funext after
    have sameKey : (side · == id) ∘ change = (side · == id) := funext fun e => by simp [sameSide]
    rw [← List.map_map, lists.values, List.filter_map, sameKey, List.map_map, List.map_map]
    rfl
  listed i e found := by
    rw [after, Option.map_eq_some_iff] at found
    obtain ⟨old, there, rfl⟩ := found
    exact sameSide old ▸ lists.listed i old there

/-- A graph may list its edges otherwise, as long as those of each node stay in order. -/
theorem congr {edges' : List Edge}
    (same : ∀ id, edges'.filter (side · == id) = edges.filter (side · == id)) :
    table.Lists edgeAt? side edges' where
  values id := (lists.values id).trans (congrArg (List.map some) (same id).symm)
  listed := lists.listed

/-- The list of one node is sorted. -/
theorem sort {at? : NodeId} {le : EdgeId → EdgeId → Bool} (leEdge : Edge → Edge → Bool)
    {edges' : List Edge}
    (agrees : ∀ i ∈ table.listAt at?, ∀ j ∈ table.listAt at?, ∀ e f, edgeAt? i = some e →
      edgeAt? j = some f → le i j = leEdge e f)
    (sorted : edges'.filter (side · == at?) = (edges.filter (side · == at?)).mergeSort leEdge)
    (others : ∀ id, id ≠ at? → edges'.filter (side · == id) = edges.filter (side · == id)) :
    Lists (Array.modify table at? fun list => list.mergeSort le) edgeAt? side edges' where
  values id := by
    rw [listAt_modify List.mergeSort_nil]
    split
    · next same =>
      subst same
      have byNumber : ∀ i ∈ table.listAt id, ∀ j ∈ table.listAt id,
          le i j = (edgeAt? i).elim false fun e => (edgeAt? j).elim false (leEdge e) := by
        intro i left j right
        obtain ⟨e, -, foundLeft, -⟩ := lists.live left
        obtain ⟨f, -, foundRight, -⟩ := lists.live right
        rw [agrees i left j right e f foundLeft foundRight, foundLeft, foundRight]
        rfl
      have byValue (listed : List Edge) : (listed.mergeSort leEdge).map some =
          (listed.map some).mergeSort fun a b => a.elim false fun e => b.elim false (leEdge e) :=
        List.map_mergeSort fun _ _ _ _ => rfl
      rw [sorted, byValue, ← lists.values]
      exact List.map_mergeSort byNumber
    · next other => rw [lists.values, others id other]
  listed i e found := by
    rw [listAt_modify List.mergeSort_nil]
    split
    · exact List.mem_mergeSort.mpr (lists.listed i e found)
    · exact lists.listed i e found

end Lists

end Adjacency

end ControlFlow
