import ControlFlow.Interval.Partition
import ControlFlow.Proofs.Graph.Numbering

/-! The intervals of a graph divide the nodes that control reaches. The header of an interval comes
first and is the only way in: to every other node control comes from nodes before it in the interval,
and only from these. An interval takes in every node that it can. The invariant of the search is that
what control comes to from the intervals found so far is in one of them or waits to head one. -/
namespace ControlFlow

namespace Interval

variable {g : FlowGraph} {order taken : List NodeId} {id : NodeId}

/-- The header comes first, and every other node is entered, from nodes before it only. -/
structure SingleEntry (g : FlowGraph) (i : Interval) : Prop where
  head : i.nodes.head? = some i.header
  nodup : i.nodes.Nodup
  entered : ∀ n ∈ i.nodes, n ≠ i.header → ∃ p, g.Step p n
  before : ∀ n ∈ i.nodes, n ≠ i.header → ∀ p, g.Step p n → [p, n].Sublist i.nodes

/-! ## Growing one interval -/

theorem admits_iff {members : List NodeId} : admits g taken members id = true ↔
    id ∉ members ∧ id ∉ taken ∧ (∃ p, g.Step p id) ∧ ∀ p, g.Step p id → p ∈ members := by
  have some : (g.preds id).isEmpty = false ↔ ∃ p, g.Step p id := by
    simp only [FlowGraph.Step, ← FlowGraph.mem_preds_iff_mem_succs, ← Bool.not_eq_true,
      List.isEmpty_iff, List.eq_nil_iff_forall_not_mem, not_forall, not_not]
  have all : (g.preds id).all members.contains = true ↔ ∀ p, g.Step p id → p ∈ members := by
    simp only [FlowGraph.Step, ← FlowGraph.mem_preds_iff_mem_succs, List.all_eq_true,
      List.contains_iff_mem]
  simp only [admits, Bool.and_eq_true, Bool.not_eq_true', List.contains_eq_mem,
    decide_eq_false_iff_not, some, and_assoc]
  rw [← all]

theorem singleEntry_singleton (header : NodeId) : SingleEntry g ⟨header, [header]⟩ where
  head := rfl
  nodup := List.nodup_singleton header
  entered _ member different := absurd (List.mem_singleton.mp member) different
  before _ member different := absurd (List.mem_singleton.mp member) different

theorem SingleEntry.push {header : NodeId} {members : List NodeId}
    (single : SingleEntry g ⟨header, members⟩) (admitted : admits g taken members id = true) :
    SingleEntry g ⟨header, members ++ [id]⟩ := by
  obtain ⟨fresh, -, some, all⟩ := admits_iff.mp admitted
  obtain ⟨rest, listed⟩ := List.head?_eq_some_iff.mp single.head
  refine ⟨?_, ?_, ?_, ?_⟩
  · simp only at listed
    simp [listed]
  · exact List.nodup_append.mpr ⟨single.nodup, List.nodup_singleton id, fun a left b right same =>
      fresh (List.mem_singleton.mp right ▸ same ▸ left)⟩
  · intro n member different
    rcases List.mem_append.mp member with old | new
    · exact single.entered n old different
    · exact List.mem_singleton.mp new ▸ some
  · intro n member different p edge
    rcases List.mem_append.mp member with old | new
    · exact (single.before n old different p edge).trans (List.sublist_append_left _ _)
    · obtain rfl := List.mem_singleton.mp new
      exact (List.singleton_sublist.mpr (all p edge)).append (List.Sublist.refl [n])

/-- A sweep only adds nodes of the order that are not taken. -/
theorem mem_sweep {members : List NodeId} (member : id ∈ sweep g order taken members) :
    id ∈ members ∨ id ∈ order ∧ id ∉ taken := by
  unfold sweep at member
  induction order generalizing members with
  | nil => exact .inl member
  | cons first rest ih =>
    rw [List.foldl_cons] at member
    rcases ih member with present | ⟨later, free⟩
    · by_cases admitted : admits g taken members first
      · rw [if_pos admitted] at present
        rcases List.mem_append.mp present with present | added
        · exact .inl present
        · obtain rfl := List.mem_singleton.mp added
          exact .inr ⟨List.mem_cons_self, (admits_iff.mp admitted).2.1⟩
      · rw [if_neg admitted] at present
        exact .inl present
    · exact .inr ⟨List.mem_cons_of_mem _ later, free⟩

theorem prefix_sweep (g : FlowGraph) (order taken members : List NodeId) :
    members <+: sweep g order taken members := by
  unfold sweep
  induction order generalizing members with
  | nil => exact List.prefix_rfl
  | cons first rest ih =>
    rw [List.foldl_cons]
    refine List.IsPrefix.trans ?_ (ih _)
    split
    · exact List.prefix_append _ _
    · exact List.prefix_rfl

theorem SingleEntry.sweep {header : NodeId} {members : List NodeId}
    (single : SingleEntry g ⟨header, members⟩) :
    SingleEntry g ⟨header, sweep g order taken members⟩ := by
  unfold Interval.sweep
  induction order generalizing members with
  | nil => exact single
  | cons first rest ih =>
    rw [List.foldl_cons]
    apply ih
    split
    · next admitted => exact single.push admitted
    · exact single

/-- A sweep that adds nothing finds nothing that could be added. -/
theorem admits_eq_false_of_sweep {members : List NodeId}
    (same : (sweep g order taken members).length = members.length) (ordered : id ∈ order) :
    admits g taken members id = false := by
  unfold sweep at same
  induction order with
  | nil => cases ordered
  | cons first rest ih =>
    rw [List.foldl_cons] at same
    by_cases admitted : admits g taken members first
    · have grown := (prefix_sweep g rest taken (members ++ [first])).length_le
      rw [if_pos admitted] at same
      unfold sweep at grown
      rw [same, List.length_append, List.length_singleton] at grown
      omega
    · rw [if_neg admitted] at same
      rcases List.mem_cons.mp ordered with rfl | later
      · simpa using admitted
      · exact ih same later

theorem mem_grow {bound : Nat} {members : List NodeId}
    (member : id ∈ grow g order taken bound members) :
    id ∈ members ∨ id ∈ order ∧ id ∉ taken := by
  induction bound generalizing members with
  | zero => exact .inl member
  | succ bound ih =>
    simp only [grow] at member
    split at member
    · exact .inl member
    · rcases ih member with swept | added
      · exact mem_sweep swept
      · exact .inr added

theorem SingleEntry.grow {header : NodeId} {members : List NodeId}
    (single : SingleEntry g ⟨header, members⟩) (order taken : List NodeId) (bound : Nat) :
    SingleEntry g ⟨header, grow g order taken bound members⟩ := by
  induction bound generalizing members with
  | zero => exact single
  | succ bound ih =>
    simp only [Interval.grow]
    split
    · exact single
    · exact ih single.sweep

/-- An interval that has been grown could take in nothing more. -/
theorem admits_grow {bound : Nat} {members : List NodeId} {header : NodeId} (taken : List NodeId)
    (single : SingleEntry g ⟨header, members⟩) (inside : members ⊆ order)
    (enough : order.length ≤ bound + members.length) (ordered : id ∈ order) :
    admits g taken (grow g order taken bound members) id = false := by
  induction bound generalizing members with
  | zero =>
    have whole : id ∈ members := by
      have few : order.length ≤ members.length := by omega
      exact ((single.nodup.subperm inside).perm_of_length_le few).mem_iff.mpr ordered
    rw [grow, ← Bool.not_eq_true, admits_iff]
    exact fun admitted => admitted.1 whole
  | succ bound ih =>
    simp only [grow]
    split
    · next same => exact admits_eq_false_of_sweep (beq_iff_eq.mp same) ordered
    · next grown =>
      have longer := (prefix_sweep g order taken members).length_le
      have different : (sweep g order taken members).length ≠ members.length := by
        simpa using grown
      refine ih single.sweep ?_ (by omega)
      intro n member
      rcases mem_sweep member with old | new
      · exact inside old
      · exact new.1

theorem mem_newHeaders {members : List NodeId} : id ∈ newHeaders g order taken members ↔
    id ∈ order ∧ id ∉ members ∧ id ∉ taken ∧ ∃ p ∈ members, g.Step p id := by
  have entered : (g.preds id).any members.contains = true ↔ ∃ p ∈ members, g.Step p id := by
    simp only [FlowGraph.Step, ← FlowGraph.mem_preds_iff_mem_succs, List.any_eq_true,
      List.contains_iff_mem, and_comm]
  rw [newHeaders, List.mem_filter]
  simp only [Bool.and_eq_true, Bool.not_eq_true', List.contains_eq_mem, decide_eq_false_iff_not,
    and_assoc]
  rw [← entered]

/-! ## The search for intervals -/

/-- How the search for the intervals of what a start reaches stands: some nodes are in intervals,
and the headers in the queue wait. -/
structure Pending (g : FlowGraph) (start : NodeId) (placed queue : List NodeId) : Prop where
  nodup : (placed ++ queue).Nodup
  reached : ∀ n ∈ placed ++ queue, g.Reaches start n
  started : start ∈ placed ++ queue
  entered : ∀ n ∈ placed ++ queue, n ≠ start → ∃ p ∈ placed, g.Step p n
  closed : ∀ p ∈ placed, ∀ n, g.Step p n → n ∈ placed ++ queue

/-- Intervals that divide the nodes that a start reaches, as far as these have no place yet. -/
structure Divides (g : FlowGraph) (start : NodeId) (placed : List NodeId)
    (found : List Interval) : Prop where
  single : ∀ i ∈ found, i.SingleEntry g
  reached : ∀ i ∈ found, ∀ n ∈ i.nodes, g.Reaches start n
  fresh : ∀ i ∈ found, i.nodes.Disjoint placed
  disjoint : found.Pairwise fun i j => i.nodes.Disjoint j.nodes
  /-- The start is a header. -/
  started : ∀ i ∈ found, start ∈ i.nodes → i.header = start
  covers : ∀ n, g.Reaches start n → n ∈ placed ∨ ∃ i ∈ found, n ∈ i.nodes
  /-- An interval takes in every node that it can. -/
  maximal : ∀ i ∈ found, ∀ n, g.Reaches start n → n ≠ start → (∀ p, g.Step p n → p ∈ i.nodes) →
    n ∈ i.nodes

theorem SingleEntry.header_mem {i : Interval} (single : i.SingleEntry g) : i.header ∈ i.nodes :=
  List.mem_of_head? single.head

section

variable {start header : NodeId} {placed queue : List NodeId}

theorem Pending.first (start : NodeId) : Pending g start [] [start] where
  nodup := List.nodup_singleton start
  reached n member := by
    obtain rfl := List.mem_singleton.mp member
    exact .refl n
  started := List.mem_singleton_self start
  entered _ member different := absurd (List.mem_singleton.mp member) different
  closed := nofun

/-- What has a place or waits for one still does when the first header gets its interval. -/
theorem mem_places {members waiting : List NodeId} (headed : header ∈ members) {n : NodeId}
    (known : n ∈ placed ++ header :: queue) : n ∈ (placed ++ members) ++ (queue ++ waiting) := by
  simp only [List.mem_append, List.mem_cons] at known ⊢
  rcases known with old | rfl | queued
  · exact .inl (.inl old)
  · exact .inl (.inr headed)
  · exact .inr (.inl queued)

variable (pending : Pending g start placed (header :: queue))
include pending

/-- The interval of the next header has no node that has a place already. -/
theorem Pending.disjoint (order : List NodeId) (bound : Nat) :
    (grow g order (placed ++ header :: queue) bound [header]).Disjoint (placed ++ queue) := by
  have apart := List.nodup_middle.mp pending.nodup
  intro n member old
  rcases mem_grow member with same | ⟨-, free⟩
  · exact (List.nodup_cons.mp apart).1 (List.mem_singleton.mp same ▸ old)
  · refine free ?_
    simp only [List.mem_append, List.mem_cons] at old ⊢
    exact old.imp_right .inr

theorem Pending.nodup_places {members : List NodeId} (membersNodup : members.Nodup)
    (disjoint : members.Disjoint (placed ++ queue)) (orderNodup : order.Nodup) :
    ((placed ++ members) ++
      (queue ++ newHeaders g order (placed ++ header :: queue) members)).Nodup := by
  have apart := (List.nodup_cons.mp (List.nodup_middle.mp pending.nodup)).2
  obtain ⟨placedNodup, queueNodup, different⟩ := List.nodup_append.mp apart
  have newNodup : (newHeaders g order (placed ++ header :: queue) members).Nodup :=
    orderNodup.filter _
  have newFresh {n : NodeId} (new : n ∈ newHeaders g order (placed ++ header :: queue) members) :
      n ∉ members ∧ n ∉ placed ∧ n ∉ queue := by
    obtain ⟨-, outside, free, -⟩ := mem_newHeaders.mp new
    simp only [List.mem_append, List.mem_cons, not_or] at free
    exact ⟨outside, free.1, free.2.2⟩
  have done : (placed ++ members).Nodup :=
    List.Nodup.append placedNodup membersNodup fun n left right =>
      disjoint right (List.mem_append_left _ left)
  have waiting : (queue ++ newHeaders g order (placed ++ header :: queue) members).Nodup :=
    List.Nodup.append queueNodup newNodup fun n left right => (newFresh right).2.2 left
  refine List.Nodup.append done waiting ?_
  intro n left right
  rcases List.mem_append.mp left with old | member <;>
    rcases List.mem_append.mp right with queued | new
  · exact different n old n queued rfl
  · exact (newFresh new).2.1 old
  · exact disjoint member (List.mem_append_right _ queued)
  · exact (newFresh new).1 member

variable (ordered : ∀ n, n ∈ order ↔ g.Reaches start n)
include ordered

/-- Where the interval of the next header leads to has a place or waits. -/
theorem Pending.closed_places {members : List NodeId} (headed : header ∈ members)
    (reached : ∀ n ∈ members, g.Reaches start n) {p n : NodeId} (member : p ∈ placed ++ members)
    (edge : g.Step p n) : n ∈ (placed ++ members) ++
      (queue ++ newHeaders g order (placed ++ header :: queue) members) := by
  by_cases known : n ∈ placed ++ header :: queue
  · exact mem_places headed known
  rcases List.mem_append.mp member with old | inside
  · exact absurd (pending.closed p old n edge) known
  by_cases within : n ∈ members
  · exact List.mem_append_left _ (List.mem_append_right _ within)
  · have new := mem_newHeaders.mpr
      ⟨(ordered n).mpr ((reached p inside).step edge), within, known, p, inside, edge⟩
    exact List.mem_append_right _ (List.mem_append_right _ new)

/-- The search goes on with the next header: its interval gets a place, and what control comes to
from there waits to head an interval. -/
theorem Pending.next (orderNodup : order.Nodup) (bound : Nat) :
    Pending g start (placed ++ grow g order (placed ++ header :: queue) bound [header])
      (queue ++ newHeaders g order (placed ++ header :: queue)
        (grow g order (placed ++ header :: queue) bound [header])) := by
  have disjoint := pending.disjoint order bound
  have single := (singleEntry_singleton (g := g) header).grow order (placed ++ header :: queue)
    bound
  have reached : ∀ n ∈ grow g order (placed ++ header :: queue) bound [header],
      g.Reaches start n := by
    intro n member
    rcases mem_grow member with same | ⟨listed, -⟩
    · rw [List.mem_singleton.mp same]
      exact pending.reached header (by simp)
    · exact (ordered n).mp listed
  generalize grow g order (placed ++ header :: queue) bound [header] = members at *
  have headed : header ∈ members := single.header_mem
  refine ⟨pending.nodup_places single.nodup disjoint orderNodup, ?_,
    mem_places headed pending.started, ?_,
    fun p member n edge => pending.closed_places ordered headed reached member edge⟩
  · intro n member
    simp only [List.mem_append] at member
    rcases member with (old | member) | (queued | new)
    · exact pending.reached n (List.mem_append_left _ old)
    · exact reached n member
    · exact pending.reached n (List.mem_append_right _ (List.mem_cons_of_mem _ queued))
    · exact (ordered n).mp (mem_newHeaders.mp new).1
  · have known {n : NodeId} (old : n ∈ placed ++ header :: queue) (different : n ≠ start) :
        ∃ p ∈ placed ++ members, g.Step p n := by
      obtain ⟨p, inside, edge⟩ := pending.entered n old different
      exact ⟨p, List.mem_append_left _ inside, edge⟩
    intro n member different
    simp only [List.mem_append] at member
    rcases member with (old | member) | (queued | new)
    · exact known (List.mem_append_left _ old) different
    · by_cases same : n = header
      · exact known (by simp [same]) different
      · obtain ⟨p, edge⟩ := single.entered n member same
        have inside : p ∈ members := (single.before n member same p edge).subset (by simp)
        exact ⟨p, List.mem_append_right _ inside, edge⟩
    · exact known (List.mem_append_right _ (List.mem_cons_of_mem _ queued)) different
    · obtain ⟨-, -, -, p, inside, edge⟩ := mem_newHeaders.mp new
      exact ⟨p, List.mem_append_right _ inside, edge⟩

/-- The interval of the next header takes in every node that it can. -/
theorem Pending.maximal {n : NodeId} (reached : g.Reaches start n) (different : n ≠ start)
    (all : ∀ p, g.Step p n →
      p ∈ grow g order (placed ++ header :: queue) order.length [header]) :
    n ∈ grow g order (placed ++ header :: queue) order.length [header] := by
  have inside : [header] ⊆ order := by
    intro id member
    obtain rfl := List.mem_singleton.mp member
    exact (ordered id).mpr (pending.reached id (by simp))
  have settled := admits_grow (placed ++ header :: queue) (singleEntry_singleton (g := g) header)
    inside (Nat.le_add_right _ _) ((ordered n).mpr reached)
  by_contra outside
  have entered : ∃ p, g.Step p n := by
    obtain ⟨passed, walk⟩ := reached
    cases walk with
    | here => exact absurd rfl different
    | step walk edge => exact ⟨_, edge⟩
  -- All that keeps the node out is that it has a place or waits for one, and control came to it
  -- from an earlier interval then.
  have known : n ∈ placed ++ header :: queue := by
    by_contra free
    rw [← Bool.not_eq_true, admits_iff] at settled
    exact settled ⟨outside, free, entered, all⟩
  obtain ⟨p, old, edge⟩ := pending.entered n known different
  exact pending.disjoint order _ (all p edge) (List.mem_append_left _ old)

omit ordered pending in
/-- Where every node has its place, no interval is left to find. -/
theorem Divides.nil {placed : List NodeId} (covered : ∀ n, g.Reaches start n → n ∈ placed) :
    Divides g start placed [] where
  single := by simp
  reached := by simp
  fresh := by simp
  disjoint := .nil
  started := by simp
  covers n reached := .inl (covered n reached)
  maximal := by simp

omit pending in
/-- The search divides the nodes that have no place yet. -/
theorem partitionWithin_divides (wf : g.WellFormed) (live : start ∈ g.nodeIds)
    (orderNodup : order.Nodup) (bound : Nat)
    {placed queue : List NodeId} (pending : Pending g start placed queue)
    (enough : g.size ≤ bound + placed.length) :
    Divides g start placed (partitionWithin g order bound placed queue) := by
  have placedNodup := (List.nodup_append.mp pending.nodup).1
  induction bound generalizing placed queue with
  | zero =>
    have inside : placed ⊆ g.nodeIds := fun n member =>
      (pending.reached n (List.mem_append_left _ member)).live wf live
    have few : g.nodeIds.length ≤ placed.length := by
      rw [FlowGraph.nodeIds, List.length_map]
      exact (Nat.zero_add placed.length) ▸ enough
    have whole := (placedNodup.subperm inside).perm_of_length_le few
    exact .nil fun n reached => whole.mem_iff.mpr (reached.live wf live)
  | succ bound ih =>
    cases queue with
    | nil =>
      have closed {a b : NodeId} (reached : g.Reaches a b) (inside : a ∈ placed) : b ∈ placed := by
        obtain ⟨passed, walk⟩ := reached
        induction walk with
        | here => exact inside
        | step _ edge ih => simpa using pending.closed _ ih _ edge
      exact .nil fun n reached => closed reached (by simpa using pending.started)
    | cons header queue =>
      rw [partitionWithin]
      have next := pending.next ordered orderNodup order.length
      have single := (singleEntry_singleton (g := g) header).grow order (placed ++ header :: queue)
        order.length
      have apart := pending.disjoint order order.length
      have maximal := @pending.maximal _ _ _ _ _ _ ordered
      have startOnly (member : start ∈
          grow g order (placed ++ header :: queue) order.length [header]) : header = start := by
        rcases mem_grow member with same | ⟨-, free⟩
        · exact (List.mem_singleton.mp same).symm
        · exact absurd pending.started free
      generalize grow g order (placed ++ header :: queue) order.length [header] = members at *
      have headed : header ∈ members := single.header_mem
      have longer : 1 ≤ members.length := List.length_pos_of_mem headed
      have later := ih next (by rw [List.length_append]; omega)
        (List.nodup_append.mp next.nodup).1
      refine ⟨?_, ?_, ?_, ?_, ?_, ?_, ?_⟩
      · exact List.forall_mem_cons.mpr ⟨single, later.single⟩
      · refine List.forall_mem_cons.mpr ⟨fun n member => ?_, later.reached⟩
        exact next.reached n (List.mem_append_left _ (List.mem_append_right _ member))
      · refine List.forall_mem_cons.mpr ⟨fun n member old => ?_, fun i found n member old => ?_⟩
        · exact apart member (List.mem_append_left _ old)
        · exact later.fresh i found member (List.mem_append_left _ old)
      · refine List.pairwise_cons.mpr ⟨fun i found n member other => ?_, later.disjoint⟩
        exact later.fresh i found other (List.mem_append_right _ member)
      · exact List.forall_mem_cons.mpr ⟨startOnly, later.started⟩
      · intro n reached
        rcases later.covers n reached with gone | ⟨i, found, member⟩
        · rcases List.mem_append.mp gone with old | member
          · exact .inl old
          · exact .inr ⟨_, List.mem_cons_self, member⟩
        · exact .inr ⟨i, List.mem_cons_of_mem _ found, member⟩
      · refine List.forall_mem_cons.mpr ⟨fun n reached different all => ?_, later.maximal⟩
        exact maximal reached different all

end

/-! ## Nodes of an interval -/

namespace SingleEntry

variable {i : Interval} (single : i.SingleEntry g)
include single

/-- Control comes to a node other than the header from nodes of the interval before it. -/
theorem pred {n p : NodeId} (member : n ∈ i.nodes) (different : n ≠ i.header)
    (edge : g.Step p n) : p ∈ i.nodes ∧ i.nodes.idxOf p < i.nodes.idxOf n := by
  have earlier := single.before n member different p edge
  exact ⟨earlier.subset (by simp), idxOf_lt_of_sublist single.nodup earlier⟩

/-- What holds of the header and is passed on from the nodes before a node to the node holds of
every node of an interval. -/
theorem induct {motive : NodeId → Prop} (header : motive i.header)
    (other : ∀ n ∈ i.nodes, n ≠ i.header →
      (∀ p, g.Step p n → p ∈ i.nodes ∧ motive p) → motive n) : ∀ n ∈ i.nodes, motive n := by
  intro n member
  induction place : i.nodes.idxOf n using Nat.strong_induction_on generalizing n with
  | _ k ih =>
    by_cases same : n = i.header
    · exact same ▸ header
    · refine other n member same fun p edge => ?_
      obtain ⟨inside, earlier⟩ := single.pred member same edge
      exact ⟨inside, ih _ (place ▸ earlier) p inside rfl⟩

/-- The header leads to every node of its interval without leaving it. -/
theorem exists_walk {n : NodeId} (member : n ∈ i.nodes) :
    ∃ passed, g.Walk i.header n passed ∧ ∀ m ∈ passed, m ∈ i.nodes := by
  refine single.induct (motive := fun n => ∃ passed, g.Walk i.header n passed ∧
    ∀ m ∈ passed, m ∈ i.nodes) ?_ ?_ n member
  · refine ⟨[i.header], .here, fun m passed => ?_⟩
    exact List.mem_singleton.mp passed ▸ single.header_mem
  · intro n member different all
    obtain ⟨p, edge⟩ := single.entered n member different
    obtain ⟨-, passed, walk, inside⟩ := all p edge
    refine ⟨_, walk.step edge, fun m passed => ?_⟩
    rcases List.mem_append.mp passed with before | last
    · exact inside m before
    · exact List.mem_singleton.mp last ▸ member

/-- A way into an interval that does not pass the header begins inside. -/
theorem mem_of_walk {a n : NodeId} {passed : List NodeId} (walk : g.Walk a n passed)
    (member : n ∈ i.nodes) (around : i.header ∉ passed) : a ∈ i.nodes := by
  induction walk with
  | here => exact member
  | step walk edge ih =>
    rw [List.mem_append, not_or, List.mem_singleton] at around
    exact ih (single.pred member (Ne.symm around.2) edge).1 around.1

variable {start : NodeId} (reached : ∀ n ∈ i.nodes, g.Reaches start n)
  (started : start ∈ i.nodes → i.header = start)
include reached started

theorem header_dominates {n : NodeId} (member : n ∈ i.nodes) :
    g.Dominates start i.header n := by
  refine single.induct (motive := g.Dominates start i.header) ?_ ?_ n member
  · exact .refl (reached _ single.header_mem)
  · intro n member different all
    refine .of_preds (reached n member) ?_ fun p _ edge => (all p edge).2
    rintro rfl
    exact different (started member).symm

omit started in
/-- What dominates a node of an interval below the header is a node before it. -/
theorem dominator {rank : NodeId → Nat} (ranking : g.Ranking start rank) {d n : NodeId}
    (below : g.Dominates start i.header d) (dominates : g.Dominates start d n)
    (member : n ∈ i.nodes) : d ∈ i.nodes ∧ i.nodes.idxOf d ≤ i.nodes.idxOf n := by
  refine single.induct (motive := fun n => g.Dominates start d n →
    d ∈ i.nodes ∧ i.nodes.idxOf d ≤ i.nodes.idxOf n) ?_ ?_ n member dominates
  · intro above
    rw [ranking.antisymm above below]
    exact ⟨single.header_mem, Nat.le_refl _⟩
  · intro n member different all dominates
    by_cases same : d = n
    · rw [same]
      exact ⟨member, Nat.le_refl _⟩
    · obtain ⟨p, edge⟩ := single.entered n member different
      obtain ⟨inside, earlier⟩ := single.pred member different edge
      obtain ⟨found, before⟩ := (all p edge).2 (dominates.of_step same (reached p inside) edge)
      exact ⟨found, Nat.le_of_lt (Nat.lt_of_le_of_lt before earlier)⟩

end SingleEntry

namespace Divides

variable {start n : NodeId} {placed : List NodeId} {found : List Interval} {i j : Interval}
variable (divides : Divides g start placed found)
include divides

theorem header_dominates (member : i ∈ found) (inside : n ∈ i.nodes) :
    g.Dominates start i.header n :=
  (divides.single i member).header_dominates (divides.reached i member) (divides.started i member)
    inside

theorem header_live (wf : g.WellFormed) (live : start ∈ g.nodeIds) (member : i ∈ found) :
    i.header ∈ g.nodeIds :=
  (divides.reached i member _ (divides.single i member).header_mem).live wf live

/-- A node belongs to one interval only. -/
theorem eq_of_mem (left : i ∈ found) (right : j ∈ found) (inLeft : n ∈ i.nodes)
    (inRight : n ∈ j.nodes) : i = j := by
  by_contra different
  have symm : Std.Symm fun i j : Interval => i.nodes.Disjoint j.nodes :=
    ⟨fun _ _ apart => apart.symm⟩
  exact divides.disjoint.forall left right different inLeft inRight

theorem eq_of_header (left : i ∈ found) (right : j ∈ found) (inside : j.header ∈ i.nodes) :
    i = j :=
  divides.eq_of_mem left right inside (divides.single j right).header_mem

theorem headers_nodup : (found.map Interval.header).Nodup := by
  refine List.pairwise_map.mpr (divides.disjoint.imp_of_mem ?_)
  intro i j left right apart same
  exact apart (divides.single i left).header_mem (same ▸ (divides.single j right).header_mem)

end Divides

end Interval

namespace FlowGraph

variable {g : FlowGraph} {start : NodeId}

theorem reversePostorder_nodup (wf : g.WellFormed) (start : NodeId) :
    (g.numbering start).reversePostorder.Nodup :=
  List.nodup_reverse.mpr (numbering_left_nodup wf start)

/-- The intervals of a graph divide the nodes that are reached from the start. -/
theorem intervalsFrom_divides (wf : g.WellFormed) (live : start ∈ g.nodeIds) :
    Interval.Divides g start [] (g.intervalsFrom start) :=
  Interval.partitionWithin_divides (fun _ => mem_reversePostorder wf live) wf live
    (reversePostorder_nodup wf start) g.size (.first start) (Nat.le_add_right _ _)

/-- The intervals of a graph have different live headers, and the start is one of them. -/
theorem intervalsFrom_headers (wf : g.WellFormed) (live : start ∈ g.nodeIds) :
    ((g.intervalsFrom start).map Interval.header).Nodup ∧
      (∀ i ∈ g.intervalsFrom start, i.header ∈ g.nodeIds) ∧
      ∃ i ∈ g.intervalsFrom start, i.header = start := by
  have divides := intervalsFrom_divides wf live
  refine ⟨divides.headers_nodup, fun i found => divides.header_live wf live found, ?_⟩
  rcases divides.covers start (.refl start) with gone | ⟨i, found, member⟩
  · cases gone
  · exact ⟨i, found, divides.started i found member⟩

end FlowGraph

end ControlFlow
