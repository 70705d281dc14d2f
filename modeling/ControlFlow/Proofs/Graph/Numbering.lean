import ControlFlow.Proofs.Graph.Search

/-! Depth-first numbers. A search from a start numbers exactly the nodes that can be reached from
it, and its reverse postorder, in which the start comes first, lists each of them once. Every other
node has a predecessor of lower rank, so that ranks grow along some walk to each node, and a node
has a higher rank than those that strictly dominate it. -/
namespace ControlFlow

/-! ## Places in an order -/

theorem idxOf?_eq_some_iff_getElem? {order : List NodeId} (nodup : order.Nodup) {id : NodeId}
    {place : Nat} : order.idxOf? id = some place ↔ order[place]? = some id := by
  rw [List.idxOf?_eq_some_iff, List.getElem?_eq_some_iff]
  refine ⟨fun ⟨inside, found, _⟩ => ⟨inside, found⟩, fun ⟨inside, found⟩ => ⟨inside, found, ?_⟩⟩
  intro earlier less same
  exact Nat.ne_of_lt less (nodup.getElem_inj_iff.mp (same.trans found.symm))

/-- What comes first in an order has the smaller place. -/
theorem idxOf_lt_of_sublist {order : List NodeId} (nodup : order.Nodup) {a b : NodeId}
    (first : [a, b].Sublist order) : order.idxOf a < order.idxOf b := by
  have places : order.Pairwise fun a b => order.idxOf a < order.idxOf b := by
    refine List.pairwise_iff_getElem.mpr fun j k left right below => ?_
    rwa [nodup.idxOf_getElem j left, nodup.idxOf_getElem k right]
  simpa using places.sublist first

theorem idxOf?_lt_of_sublist {order : List NodeId} (nodup : order.Nodup)
    {a b : NodeId} {placeA placeB : Nat} (first : [a, b].Sublist order)
    (foundA : order.idxOf? a = some placeA) (foundB : order.idxOf? b = some placeB) :
    placeA < placeB := by
  have places := idxOf_lt_of_sublist nodup first
  rwa [List.idxOf_eq_getD_idxOf?, List.idxOf_eq_getD_idxOf?, foundA, foundB] at places

namespace Numbering

variable {n : Numbering}

theorem rank_getElem (nodup : n.left.Nodup) {i : Nat} (inside : i < n.left.length) :
    n.rank n.left[i] = n.left.length - 1 - i := by
  have found : n.postNum? n.left[i] = some i :=
    (idxOf?_eq_some_iff_getElem? nodup).mpr (List.getElem?_eq_getElem inside)
  simp [rank, revPostNum?, found, count]

/-- Reverse postorder lists the nodes by rank. -/
theorem pairwise_rank (nodup : n.left.Nodup) :
    n.reversePostorder.Pairwise fun a b => n.rank a < n.rank b := by
  refine List.pairwise_reverse.mpr (List.pairwise_iff_getElem.mpr fun i j left right order => ?_)
  rw [rank_getElem nodup left, rank_getElem nodup right]
  omega

theorem rank_lt_count (nodup : n.left.Nodup) {id : NodeId} (member : id ∈ n.left) :
    n.rank id < n.count := by
  obtain ⟨i, inside, rfl⟩ := List.getElem_of_mem member
  rw [rank_getElem nodup inside, count]
  omega

theorem rank_inj (nodup : n.left.Nodup) {a b : NodeId} (left : a ∈ n.left) (right : b ∈ n.left)
    (same : n.rank a = n.rank b) : a = b := by
  obtain ⟨i, insideLeft, rfl⟩ := List.getElem_of_mem left
  obtain ⟨j, insideRight, rfl⟩ := List.getElem_of_mem right
  rw [rank_getElem nodup insideLeft, rank_getElem nodup insideRight] at same
  have equal : i = j := by omega
  subst equal
  rfl

/-- Of two nodes the one that is left later has the lower rank. -/
theorem rank_lt_of_sublist (nodup : n.left.Nodup) {a b : NodeId}
    (later : [b, a].Sublist n.left) : n.rank a < n.rank b := by
  have order : n.left.Pairwise fun b a => n.rank a < n.rank b :=
    List.pairwise_reverse.mp (pairwise_rank nodup)
  simpa using order.sublist later

end Numbering

namespace FlowGraph

variable {g : FlowGraph} {start : NodeId}

/-- A hop of a search is a step of the graph. -/
private theorem reaches_of_available {a b : NodeId}
    (path : Relation.ReflTransGen (Available g.succs g.nodeIds) a b) : g.Reaches a b := by
  induction path with
  | refl => exact .refl a
  | tail _ hop ih => exact ih.step hop.1

private theorem available_of_walk (wf : g.WellFormed) {a b : NodeId} {passed : List NodeId}
    (walk : g.Walk a b passed) : Relation.ReflTransGen (Available g.succs g.nodeIds) a b := by
  induction walk with
  | here => exact .refl
  | step _ edge ih => exact ih.tail ⟨edge, wf.target_live edge⟩

/-- A search from a live node meets the nodes that can be reached from it. -/
theorem mem_search (wf : g.WellFormed) (live : start ∈ g.nodeIds) {id : NodeId} :
    id ∈ (g.search start).preorder ↔ g.Reaches start id := by
  rw [search, mem_searchFrom wf.idsNodup]
  constructor
  · rintro ⟨root, isStart, -, path⟩
    obtain rfl := List.mem_singleton.mp isStart
    exact reaches_of_available path
  · rintro ⟨passed, walk⟩
    exact ⟨start, List.mem_singleton_self start, live, available_of_walk wf walk⟩

/-- A search from a node that is not in the graph meets nothing. -/
theorem search_of_dead (dead : root ∉ g.nodeIds) : g.search root = .empty := by
  cases count : g.nodeIds.length with
  | zero => simp [search, searchFrom, count, searchTo]
  | succ depth => simp [search, searchFrom, count, searchTo, searchRoots, dead]

/-- A search meets what its start reaches, and nothing if the start is not in the graph. -/
theorem mem_search_iff_live (wf : g.WellFormed) {id : NodeId} :
    id ∈ (g.search start).preorder ↔ start ∈ g.nodeIds ∧ g.Reaches start id := by
  by_cases live : start ∈ g.nodeIds
  · rw [mem_search wf live, and_iff_right live]
  · simp [search_of_dead live, Forest.preorder, live]

theorem mem_numbering_left (wf : g.WellFormed) (live : start ∈ g.nodeIds) {id : NodeId} :
    id ∈ (g.numbering start).left ↔ g.Reaches start id :=
  Forest.mem_postorder.trans (mem_search wf live)

theorem isReachable_numbering (wf : g.WellFormed) (live : start ∈ g.nodeIds) {id : NodeId} :
    (g.numbering start).isReachable id = true ↔ g.Reaches start id :=
  List.contains_iff_mem.trans (mem_search wf live)

theorem mem_reversePostorder (wf : g.WellFormed) (live : start ∈ g.nodeIds) {id : NodeId} :
    id ∈ (g.numbering start).reversePostorder ↔ g.Reaches start id :=
  List.mem_reverse.trans (mem_numbering_left wf live)

theorem numbering_left_nodup (wf : g.WellFormed) (start : NodeId) :
    (g.numbering start).left.Nodup := by
  obtain ⟨rest, searched⟩ := @searchFrom_searched g.succs g.nodeIds [start] wf.idsNodup
  exact (g.search start).postorder_perm.nodup_iff.mpr (searched.preorder_nodup wf.idsNodup)

theorem numbering_met_nodup (wf : g.WellFormed) (start : NodeId) :
    (g.numbering start).met.Nodup :=
  (g.search start).postorder_perm.nodup_iff.mp (numbering_left_nodup wf start)

theorem rank_inj (wf : g.WellFormed) (live : start ∈ g.nodeIds) {a b : NodeId}
    (left : g.Reaches start a) (right : g.Reaches start b)
    (same : (g.numbering start).rank a = (g.numbering start).rank b) : a = b :=
  Numbering.rank_inj (numbering_left_nodup wf start) ((mem_numbering_left wf live).mpr left)
    ((mem_numbering_left wf live).mpr right) same

/-- A node other than the start was entered from a node of lower rank. -/
theorem exists_lower_pred (wf : g.WellFormed) (live : start ∈ g.nodeIds) {b : NodeId}
    (reached : g.Reaches start b) (notStart : b ≠ start) :
    ∃ a, g.Reaches start a ∧ g.Step a b ∧
      (g.numbering start).rank a < (g.numbering start).rank b := by
  obtain ⟨rest, searched⟩ := @searchFrom_searched g.succs g.nodeIds [start] wf.idsNodup
  have visited : b ∈ (searchFrom g.succs g.nodeIds [start]).preorder :=
    (mem_search wf live).mpr reached
  rcases searched.entered visited with isStart | ⟨a, edge, later⟩
  · exact absurd (List.mem_singleton.mp isStart) notStart
  · have leftFrom : a ∈ (g.numbering start).left := later.subset (by simp)
    exact ⟨a, (mem_numbering_left wf live).mp leftFrom, edge,
      Numbering.rank_lt_of_sublist (numbering_left_nodup wf start) later⟩

/-- The start comes first in reverse postorder. -/
theorem reversePostorder_eq_cons (wf : g.WellFormed) (live : start ∈ g.nodeIds) :
    (g.numbering start).reversePostorder =
      start :: (g.numbering start).reversePostorder.tail := by
  have member := (mem_reversePostorder wf live).mpr (.refl start)
  have order := Numbering.pairwise_rank (numbering_left_nodup wf start)
  cases listed : (g.numbering start).reversePostorder with
  | nil => simp [listed] at member
  | cons first rest =>
    rw [listed, List.pairwise_cons] at order
    have reached : g.Reaches start first := by
      rw [← mem_reversePostorder wf live, listed]
      exact List.mem_cons_self
    by_cases same : first = start
    · rw [same, List.tail_cons]
    · obtain ⟨a, reachedA, -, lower⟩ := exists_lower_pred wf live reached same
      rw [← mem_reversePostorder wf live, listed] at reachedA
      rcases List.mem_cons.mp reachedA with rfl | later
      · exact absurd lower (Nat.lt_irrefl _)
      · exact absurd lower (Nat.lt_asymm (order.1 a later))

/-- Ranks that tell the nodes reached from a root apart and grow along some step to each of them
but the root. -/
structure Ranking (g : FlowGraph) (root : NodeId) (rank : NodeId → Nat) : Prop where
  inj : ∀ {a b}, g.Reaches root a → g.Reaches root b → rank a = rank b → a = b
  entered : ∀ {b}, g.Reaches root b → b ≠ root → ∃ a, g.Reaches root a ∧ g.Step a b ∧ rank a < rank b

/-- Places in reverse postorder are a ranking. -/
theorem ranking (wf : g.WellFormed) (live : start ∈ g.nodeIds) :
    g.Ranking start (g.numbering start).rank where
  inj := rank_inj wf live
  entered := exists_lower_pred wf live

/-- Ranks grow along the steps from one node to another. -/
def Climbs (g : FlowGraph) (rank : NodeId → Nat) : NodeId → NodeId → Prop :=
  Relation.ReflTransGen fun a b => g.Step a b ∧ rank a < rank b

namespace Climbs

variable {rank : NodeId → Nat} {a b : NodeId}

/-- A climb is a walk that passes no node of lower rank than its first one. -/
theorem walk (climbs : g.Climbs rank a b) :
    ∃ passed, g.Walk a b passed ∧ ∀ c ∈ passed, rank a ≤ rank c := by
  suffices strong : ∃ passed, g.Walk a b passed ∧ (∀ c ∈ passed, rank a ≤ rank c) ∧
      rank a ≤ rank b by
    obtain ⟨passed, walk, low, -⟩ := strong
    exact ⟨passed, walk, low⟩
  induction climbs with
  | refl => exact ⟨[a], .here, by simp, Nat.le_refl _⟩
  | tail _ hop ih =>
    obtain ⟨passed, walk, low, bound⟩ := ih
    have higher := Nat.le_trans bound (Nat.le_of_lt hop.2)
    refine ⟨_, walk.step hop.1, fun c member => ?_, higher⟩
    rcases List.mem_append.mp member with member | last
    · exact low c member
    · obtain rfl := List.mem_singleton.mp last
      exact higher

theorem rank_le (climbs : g.Climbs rank a b) : rank a ≤ rank b := by
  obtain ⟨passed, walk, low⟩ := climbs.walk
  exact low b walk.end_mem

theorem reaches (climbs : g.Climbs rank a b) : g.Reaches a b := by
  obtain ⟨passed, walk, -⟩ := climbs.walk
  exact ⟨passed, walk⟩

/-- What dominates the end of a climb and has a lower rank than its first node dominates that. -/
theorem dominates_start {root d : NodeId} (climbs : g.Climbs rank a b)
    (reached : g.Reaches root a) (dominates : g.Dominates root d b) (lower : rank d < rank a) :
    g.Dominates root d a := by
  refine ⟨reached, fun passed walk => ?_⟩
  obtain ⟨further, rest, low⟩ := climbs.walk
  rcases List.mem_append.mp (dominates.2 _ (walk.append rest)) with member | member
  · exact member
  · exact absurd (low d (List.mem_of_mem_tail member)) (Nat.not_le.mpr lower)

end Climbs

namespace Ranking

variable {rank : NodeId → Nat} (ranking : g.Ranking start rank)
include ranking

/-- The root reaches every node by a climb. -/
theorem climbs {b : NodeId} (reached : g.Reaches start b) : g.Climbs rank start b := by
  induction order : rank b using Nat.strong_induction_on generalizing b with
  | _ r ih =>
    by_cases same : b = start
    · subst same
      exact .refl
    · obtain ⟨a, reachedA, edge, lower⟩ := ranking.entered reached same
      exact (ih _ (order ▸ lower) reachedA rfl).tail ⟨edge, lower⟩

theorem root_le {b : NodeId} (reached : g.Reaches start b) : rank start ≤ rank b :=
  (ranking.climbs reached).rank_le

/-- A strict dominator has a lower rank than the node. -/
theorem lt_of_strictlyDominates {a b : NodeId} (strict : g.StrictlyDominates start a b) :
    rank a < rank b := by
  induction order : rank b using Nat.strong_induction_on generalizing b with
  | _ r ih =>
    obtain ⟨different, dominates⟩ := strict
    by_cases same : b = start
    · subst same
      exact absurd dominates.eq_root different
    · obtain ⟨p, reached, edge, lower⟩ := ranking.entered dominates.1 same
      by_cases equal : a = p
      · subst equal
        exact order ▸ lower
      · have above := ih _ (order ▸ lower) ⟨equal, dominates.of_step different reached edge⟩ rfl
        exact Nat.lt_trans above (order ▸ lower)

/-- Two nodes that dominate each other are the same. -/
theorem antisymm {a b : NodeId} (left : g.Dominates start a b) (right : g.Dominates start b a) :
    a = b := by
  by_contra different
  have lower := ranking.lt_of_strictlyDominates ⟨different, left⟩
  exact Nat.lt_asymm lower (ranking.lt_of_strictlyDominates ⟨Ne.symm different, right⟩)

/-- A dominator climbs to the node. -/
theorem climbs_of_dominates {a b : NodeId} (dominates : g.Dominates start a b) :
    g.Climbs rank a b := by
  induction order : rank b using Nat.strong_induction_on generalizing b with
  | _ r ih =>
    by_cases same : a = b
    · exact same ▸ .refl
    · have notStart : b ≠ start := by
        rintro rfl
        exact same dominates.eq_root
      obtain ⟨p, reached, edge, lower⟩ := ranking.entered dominates.1 notStart
      exact (ih _ (order ▸ lower) (dominates.of_step same reached edge) rfl).tail ⟨edge, lower⟩

/-- Of two dominators of a node one dominates the other. -/
theorem dominates_or_dominates {a b c : NodeId} (left : g.Dominates start a c)
    (right : g.Dominates start b c) : g.Dominates start a b ∨ g.Dominates start b a := by
  rcases Nat.lt_trichotomy (rank a) (rank b) with lower | same | higher
  · exact .inl ((ranking.climbs_of_dominates right).dominates_start right.reached left lower)
  · obtain rfl := ranking.inj left.reached right.reached same
    exact .inl (.refl left.reached)
  · exact .inr ((ranking.climbs_of_dominates left).dominates_start left.reached right higher)

/-- From a node to one that it dominates there is a way around what strictly dominates it. -/
theorem exists_walk_around {a b d : NodeId} (strict : g.StrictlyDominates start d a)
    (dominates : g.Dominates start a b) : ∃ passed, g.Walk a b passed ∧ d ∉ passed := by
  obtain ⟨passed, walk, low⟩ := (ranking.climbs_of_dominates dominates).walk
  exact ⟨passed, walk, fun member =>
    Nat.not_lt.mpr (low d member) (ranking.lt_of_strictlyDominates strict)⟩

end Ranking

/-- A graph is valid when it has an entry that reaches every node. -/
theorem validate_eq_ok_iff (wf : g.WellFormed) :
    g.validate = .ok () ↔ ∃ entry, g.entry? = some entry ∧ ∀ id ∈ g.nodeIds, g.Reaches entry id := by
  cases entered : g.entry? with
  | none => simp [validate, entry, entered, bind, Except.bind]
  | some entry =>
    have live := entry_live entered
    have met (id : NodeId) : (g.numbering entry).isReachable id = true ↔ g.Reaches entry id :=
      isReachable_numbering wf live
    simp only [validate, FlowGraph.entry, entered, bind, Except.bind, Option.some.injEq,
      exists_eq_left']
    cases orphan : g.nodeIds.find? fun id => !(g.numbering entry).isReachable id with
    | none =>
      simp only [true_iff]
      intro id member
      simpa [met] using List.find?_eq_none.mp orphan id member
    | some id =>
      simp only [reduceCtorEq, false_iff, not_forall]
      refine ⟨id, List.mem_of_find?_eq_some orphan, fun reaches => ?_⟩
      simpa [(met id).mpr reaches] using List.find?_some orphan

end FlowGraph

end ControlFlow
