import ControlFlow.Proofs.Graph.Quotient
import ControlFlow.Proofs.Interval.DerivedSequence

/-! Collapsing intervals gives a quotient: control enters an interval at its header only. The
quotient has no edge from a node to itself, has a node for every interval, and is reducible exactly
when the graph is. It is smaller than the graph unless every node but the start is entered from two
nodes or more. -/
namespace ControlFlow

variable {g h : FlowGraph} {start start' a b n : NodeId} {intervals : List Interval}

/-- Nothing has a place before the search for intervals. -/
theorem Interval.Divides.exists_interval (divides : Interval.Divides g start [] intervals)
    (reached : g.Reaches start n) : ∃ i ∈ intervals, n ∈ i.nodes :=
  (divides.covers n reached).resolve_left List.not_mem_nil

namespace FlowGraph

/-- The node that stands for the interval of a node: the one with the label of the header. -/
def repIn (g h : FlowGraph) (intervals : List Interval) (n : NodeId) : NodeId :=
  ((intervals.find? (·.nodes.contains n)).bind fun i => h.find? (g.label i.header)).getD 0

/-- The header of the interval that a node stands for. -/
def topIn (g h : FlowGraph) (a : NodeId) : NodeId := (g.find? (h.label a)).getD 0

/-- The place of a node in its interval. -/
def placeIn (intervals : List Interval) (n : NodeId) : Nat :=
  ((intervals.find? (·.nodes.contains n)).map fun i => i.nodes.idxOf n).getD 0

theorem find?_interval (divides : Interval.Divides g start [] intervals) {i : Interval}
    (found : i ∈ intervals) (member : n ∈ i.nodes) :
    intervals.find? (·.nodes.contains n) = some i := by
  refine find?_of_only found (by simpa using member) fun j other inside => ?_
  exact (divides.eq_of_mem found other member (by simpa using inside)).symm

theorem repIn_eq (divides : Interval.Divides g start [] intervals) {i : Interval}
    (found : i ∈ intervals) (named : h.find? (g.label i.header) = some a) (member : n ∈ i.nodes) :
    g.repIn h intervals n = a := by
  rw [repIn, find?_interval divides found member, Option.bind_some, named, Option.getD_some]

theorem placeIn_eq (divides : Interval.Divides g start [] intervals) {i : Interval}
    (found : i ∈ intervals) (member : n ∈ i.nodes) : placeIn intervals n = i.nodes.idxOf n := by
  rw [placeIn, find?_interval divides found member, Option.map_some, Option.getD_some]

/-- Intervals have no more nodes than the graph. -/
theorem placeIn_lt (wf : g.WellFormed) (live : start ∈ g.nodeIds)
    (divides : Interval.Divides g start [] intervals) (reached : g.Reaches start n) :
    placeIn intervals n < g.size := by
  obtain ⟨i, found, member⟩ := divides.exists_interval reached
  have inside : i.nodes ⊆ g.nodeIds := fun m within =>
    (divides.reached i found m within).live wf live
  have few := ((divides.single i found).nodup.subperm inside).length_le
  rw [nodeIds, List.length_map] at few
  rw [placeIn_eq divides found member]
  exact Nat.lt_of_lt_of_le (List.idxOf_lt_length_iff.mpr member) few

namespace Collapsed

variable (collapsed : g.Collapsed intervals h) (wf : g.WellFormed) (live : start ∈ g.nodeIds)
  (divides : Interval.Divides g start [] intervals)
include collapsed wf live divides

theorem topIn_eq {i : Interval} (found : i ∈ intervals)
    (named : h.find? (g.label i.header) = some a) : g.topIn h a = i.header := by
  have header := divides.header_live wf live found
  simp [topIn, collapsed.wf.label_of_find? named, wf.find?_label header]

/-- The graph of the intervals is a quotient. -/
theorem isQuotient (starts : h.find? (g.label start) = some start') :
    g.IsQuotient start h start' (g.repIn h intervals) (g.topIn h) where
  wf := collapsed.wf
  live := find?_live starts
  top_start := by simp [topIn, collapsed.wf.label_of_find? starts, wf.find?_label live]
  top_reached a live' := by
    obtain ⟨i, found, named⟩ := collapsed.exists_interval live'
    rw [collapsed.topIn_eq wf live divides found named]
    exact divides.reached i found _ (divides.single i found).header_mem
  rep_top a live' := by
    obtain ⟨i, found, named⟩ := collapsed.exists_interval live'
    rw [collapsed.topIn_eq wf live divides found named]
    exact repIn_eq divides found named (divides.single i found).header_mem
  label_top a live' := by
    obtain ⟨i, found, named⟩ := collapsed.exists_interval live'
    rw [collapsed.topIn_eq wf live divides found named, collapsed.wf.label_of_find? named]
  rep_live n reached := by
    obtain ⟨i, found, member⟩ := divides.exists_interval reached
    obtain ⟨a, named⟩ := collapsed.exists_node found
    exact repIn_eq divides found named member ▸ find?_live named
  step m n reached edge := by
    obtain ⟨i, found, member⟩ := divides.exists_interval reached
    obtain ⟨j, found', member'⟩ := divides.exists_interval (reached.step edge)
    obtain ⟨a, named⟩ := collapsed.exists_node found
    obtain ⟨b, named'⟩ := collapsed.exists_node found'
    rw [repIn_eq divides found named member, repIn_eq divides found' named' member']
    by_cases same : i = j
    · subst same
      exact .inl (Option.some.inj (named.symm.trans named'))
    · right
      -- A node other than the header would be entered from its own interval only.
      have entered : n = j.header := by
        by_contra inner
        have inside := ((divides.single j found').pred member' inner edge).1
        exact same (divides.eq_of_mem found found' member inside)
      have different : i.header ≠ j.header := by
        intro equal
        exact same (divides.eq_of_header found found' (equal ▸ (divides.single i found).header_mem))
      rw [collapsed.topIn_eq wf live divides found' named']
      refine ⟨(collapsed.steps a b).mpr ⟨(i, j), mem_intervalEdges.mpr
        ⟨found, found', different, m, member, entered ▸ edge⟩, named, named'⟩, entered.symm⟩
  step_lifts a b edge := by
    obtain ⟨⟨i, j⟩, pair, named, named'⟩ := (collapsed.steps a b).mp edge
    obtain ⟨found, found', -, p, member, exit⟩ := mem_intervalEdges.mp pair
    refine ⟨p, divides.reached i found p member, repIn_eq divides found named member, ?_⟩
    rw [collapsed.topIn_eq wf live divides found' named']
    exact exit
  within n reached := by
    obtain ⟨i, found, member⟩ := divides.exists_interval reached
    obtain ⟨a, named⟩ := collapsed.exists_node found
    rw [repIn_eq divides found named member, collapsed.topIn_eq wf live divides found named]
    obtain ⟨passed, walk, inside⟩ := (divides.single i found).exists_walk member
    exact ⟨passed, walk, fun m within => repIn_eq divides found named (inside m within)⟩

/-- No node of the graph of the intervals leads to itself. -/
theorem loopless (a : NodeId) : ¬h.Step a a := by
  intro edge
  obtain ⟨⟨i, j⟩, pair, named, named'⟩ := (collapsed.steps a a).mp edge
  obtain ⟨found, found', different, -⟩ := mem_intervalEdges.mp pair
  have labels : g.label i.header = g.label j.header := by
    rw [← collapsed.wf.label_of_find? named, ← collapsed.wf.label_of_find? named']
  exact different (wf.label_inj (divides.header_live wf live found)
    (divides.header_live wf live found') labels)

/-- There is a node for every interval. -/
theorem size_eq : h.size = intervals.length := by
  have labels : (intervals.map fun i => g.label i.header).Nodup := by
    have inj : ∀ a ∈ intervals.map Interval.header, ∀ b ∈ intervals.map Interval.header,
        g.label a = g.label b → a = b := by
      intro a left b right same
      obtain ⟨i, found, rfl⟩ := List.mem_map.mp left
      obtain ⟨j, found', rfl⟩ := List.mem_map.mp right
      exact wf.label_inj (divides.header_live wf live found) (divides.header_live wf live found')
        same
    have mapped := (List.nodup_map_iff_inj_on divides.headers_nodup).mpr fun a left b right =>
      inj a left b right
    rwa [List.map_map] at mapped
  have perm : (h.nodes.map Node.label).Perm (intervals.map fun i => g.label i.header) := by
    refine (List.perm_ext_iff_of_nodup collapsed.wf.labelsNodup labels).mpr fun label => ?_
    rw [List.mem_map, List.mem_map]
    constructor
    · rintro ⟨n, member, rfl⟩
      obtain ⟨i, found, named, -⟩ :=
        (collapsed.nodes n.label n.isEntry).mp ⟨n, member, rfl, rfl⟩
      exact ⟨i, found, named⟩
    · rintro ⟨i, found, rfl⟩
      obtain ⟨n, member, named, -⟩ :=
        (collapsed.nodes (g.label i.header) (g.isEntryInterval i)).mpr ⟨i, found, rfl, rfl⟩
      exact ⟨n, member, named⟩
  simpa [size] using perm.length_eq

/-- A graph is reducible if its quotient is: inside an interval the places of the nodes grow along
every edge that does not lead back to the header. -/
theorem reducible_of (starts : h.find? (g.label start) = some start')
    (reducible : h.Reducible start') : g.Reducible start := by
  have quotient := collapsed.isQuotient wf live divides starts
  refine quotient.reducible_of (placeIn intervals) g.size wf live
    (fun n reached => placeIn_lt wf live divides reached) ?_ reducible
  intro m n reached edge same
  obtain ⟨i, found, member⟩ := divides.exists_interval reached
  obtain ⟨j, found', member'⟩ := divides.exists_interval (reached.step edge)
  obtain ⟨a, named⟩ := collapsed.exists_node found
  obtain ⟨b, named'⟩ := collapsed.exists_node found'
  have one : i = j := by
    rw [repIn_eq divides found named member, repIn_eq divides found' named' member'] at same
    subst same
    have labels := (collapsed.wf.label_of_find? named).symm.trans
      (collapsed.wf.label_of_find? named')
    have headers := wf.label_inj (divides.header_live wf live found)
      (divides.header_live wf live found') labels
    exact divides.eq_of_header found found' (headers ▸ (divides.single i found).header_mem)
  subst one
  by_cases back : n = i.header
  · right
    rw [repIn_eq divides found named member', collapsed.topIn_eq wf live divides found named, back]
  · left
    rw [placeIn_eq divides found member, placeIn_eq divides found member']
    exact ((divides.single i found).pred member' back edge).2

end Collapsed

/-! ## When the quotient is smaller -/

/-- Some node other than the start is entered from one node only, and so is in the interval of that
node and heads none. -/
def Contracts (g : FlowGraph) (start : NodeId) : Prop :=
  ∃ n ∈ g.nodeIds, n ≠ start ∧ (g.preds n).length = 1

section

variable (wf : g.WellFormed) (live : start ∈ g.nodeIds)
  (all : ∀ n ∈ g.nodeIds, g.Reaches start n) (divides : Interval.Divides g start [] intervals)
include wf live divides

include all in
/-- A node other than the start that is entered from one node only is no header. -/
theorem length_intervals_lt (inside : n ∈ g.nodeIds) (different : n ≠ start)
    (single : (g.preds n).length = 1) : intervals.length < g.size := by
  obtain ⟨p, listed⟩ := List.length_eq_one_iff.mp single
  have only {q : NodeId} (edge : g.Step q n) : q = p := by
    rw [Step, ← mem_preds_iff_mem_succs, listed] at edge
    exact List.mem_singleton.mp edge
  have noHeader : ∀ i ∈ intervals, i.header ≠ n := by
    rintro j found rfl
    obtain ⟨q, reached, edge, lower⟩ := exists_lower_pred wf live (all _ inside) different
    obtain rfl := only edge
    obtain ⟨i, found', member⟩ := divides.exists_interval reached
    have taken := divides.maximal i found' _ (all _ inside) different fun q edge =>
      only edge ▸ member
    obtain rfl := divides.eq_of_header found' found taken
    have below := (ranking wf live).climbs_of_dominates (divides.header_dominates found' member)
    exact absurd lower (Nat.not_lt.mpr below.rank_le)
  have fewer : intervals.map Interval.header ⊆ g.nodeIds.erase n := by
    intro id listed
    obtain ⟨i, found, rfl⟩ := List.mem_map.mp listed
    exact (List.mem_erase_of_ne (noHeader i found)).mpr (divides.header_live wf live found)
  have shorter := (divides.headers_nodup.subperm fewer).length_le
  have some := List.length_pos_of_mem inside
  rw [List.length_map, List.length_erase_of_mem inside] at shorter
  rw [nodeIds, List.length_map] at shorter some
  exact Nat.lt_of_le_of_lt shorter (Nat.sub_lt some Nat.one_pos)

include all in
/-- If every node other than the start is entered from two nodes or more, each is a header. -/
theorem size_le_length_intervals
    (entered : ∀ n ∈ g.nodeIds, n ≠ start → 2 ≤ (g.preds n).length) :
    g.size ≤ intervals.length := by
  have headers : g.nodeIds ⊆ intervals.map Interval.header := by
    intro n inside
    obtain ⟨i, found, member⟩ := divides.exists_interval (all n inside)
    refine List.mem_map.mpr ⟨i, found, ?_⟩
    have single := divides.single i found
    obtain ⟨rest, nodes⟩ := List.head?_eq_some_iff.mp single.head
    cases rest with
    | nil => simpa [nodes, eq_comm] using member
    | cons second rest =>
      -- The second node of an interval is entered from the first one only.
      exfalso
      have listed : second ∈ i.nodes := by simp [nodes]
      have nodup := single.nodup
      rw [nodes, List.nodup_cons, List.mem_cons, not_or] at nodup
      have other : second ≠ i.header := Ne.symm nodup.1.1
      have notStart : second ≠ start := by
        rintro rfl
        exact other (divides.started i found listed).symm
      have few : g.preds second ⊆ [i.header] := by
        intro p edge
        obtain ⟨present, earlier⟩ := single.pred listed other (mem_preds_iff_mem_succs.mp edge)
        rw [nodes] at present earlier
        by_cases first : p = i.header
        · exact List.mem_singleton.mpr first
        · simp [List.idxOf_cons, nodup.1.1, Ne.symm first] at earlier
      have bound := ((wf.preds_nodup second).subperm few).length_le
      have live := (divides.reached i found second listed).live wf live
      have many := entered second live notStart
      rw [List.length_singleton] at bound
      omega
  have longer := (wf.idsNodup.subperm headers).length_le
  simpa [nodeIds, size] using longer

end

/-! ## One step of a derived sequence -/

namespace Derives

variable (derives : g.Derives start h start') (wf : g.WellFormed) (live : start ∈ g.nodeIds)
include derives wf live

theorem isQuotient : g.IsQuotient start h start' (g.repIn h (g.intervalsFrom start)) (g.topIn h) :=
  derives.collapsed.isQuotient wf live (intervalsFrom_divides wf live) derives.starts

theorem loopless (a : NodeId) : ¬h.Step a a :=
  derives.collapsed.loopless wf live (intervalsFrom_divides wf live) a

theorem reducible_iff : g.Reducible start ↔ h.Reducible start' :=
  ⟨(derives.isQuotient wf live).reducible wf live,
    derives.collapsed.reducible_of wf live (intervalsFrom_divides wf live) derives.starts⟩

/-- All of the derived graph can be reached. -/
theorem reaches (n : NodeId) (inside : n ∈ h.nodeIds) : h.Reaches start' n :=
  (derives.isQuotient wf live).reaches inside

theorem size_lt_iff (all : ∀ n ∈ g.nodeIds, g.Reaches start n) :
    h.size < g.size ↔ g.Contracts start := by
  have divides := intervalsFrom_divides wf live
  rw [derives.collapsed.size_eq wf live divides]
  constructor
  · intro smaller
    by_contra none
    refine Nat.not_le.mpr smaller (size_le_length_intervals wf live all divides ?_)
    intro n inside different
    obtain ⟨p, -, edge, -⟩ := exists_lower_pred wf live (all n inside) different
    have some := List.length_pos_of_mem (mem_preds_iff_mem_succs.mpr edge)
    have other : (g.preds n).length ≠ 1 := fun single => none ⟨n, inside, different, single⟩
    omega
  · rintro ⟨n, inside, different, single⟩
    exact length_intervals_lt wf live all divides inside different single

end Derives

end FlowGraph

end ControlFlow
