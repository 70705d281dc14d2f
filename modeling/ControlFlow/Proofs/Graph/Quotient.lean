import ControlFlow.Proofs.Graph.Reducible

/-! Quotients of flow graphs. A node of a quotient stands for a part of a graph that control enters
at one node only, the top of the part. Walks can be followed from either graph into the other, so
that dominance and reducibility are passed on, and a quotient of a quotient is a quotient. -/
namespace ControlFlow.FlowGraph

/-- One graph is a quotient of what a start reaches in another one: `rep` gives the node that stands
for a node's part, and `top` the node at which control enters a part. -/
structure IsQuotient (g : FlowGraph) (start : NodeId) (h : FlowGraph) (start' : NodeId)
    (rep top : NodeId → NodeId) : Prop where
  wf : h.WellFormed
  live : start' ∈ h.nodeIds
  top_start : top start' = start
  top_reached : ∀ a ∈ h.nodeIds, g.Reaches start (top a)
  rep_top : ∀ a ∈ h.nodeIds, rep (top a) = a
  label_top : ∀ a ∈ h.nodeIds, g.label (top a) = h.label a
  rep_live : ∀ n, g.Reaches start n → rep n ∈ h.nodeIds
  /-- A step stays inside a part, or leads to the top of another one. -/
  step : ∀ m n, g.Reaches start m → g.Step m n →
    rep m = rep n ∨ h.Step (rep m) (rep n) ∧ top (rep n) = n
  step_lifts : ∀ a b, h.Step a b → ∃ m, g.Reaches start m ∧ rep m = a ∧ g.Step m (top b)
  /-- The top of a part leads to every node of it without leaving it. -/
  within : ∀ n, g.Reaches start n →
    ∃ passed, g.Walk (top (rep n)) n passed ∧ ∀ m ∈ passed, rep m = rep n

namespace IsQuotient

/-- A graph is a quotient of itself if all of it can be reached. -/
theorem refl {g : FlowGraph} {start : NodeId} (wf : g.WellFormed) (live : start ∈ g.nodeIds)
    (all : ∀ n ∈ g.nodeIds, g.Reaches start n) : g.IsQuotient start g start id id where
  wf := wf
  live := live
  top_start := rfl
  top_reached := all
  rep_top _ _ := rfl
  label_top _ _ := rfl
  rep_live _ reached := reached.live wf live
  step _ _ _ edge := .inr ⟨edge, rfl⟩
  step_lifts a _ edge := ⟨a, all a (wf.source_live edge), rfl, edge⟩
  within n _ := ⟨[n], .here, by simp⟩

variable {g h k : FlowGraph} {start start' start'' : NodeId} {rep top rep' top' : NodeId → NodeId}
variable {a b m n : NodeId} {passed : List NodeId}
variable (quotient : g.IsQuotient start h start' rep top)
include quotient

theorem rep_start : rep start = start' := by
  rw [← quotient.top_start, quotient.rep_top start' quotient.live]

/-! ## Walks -/

/-- A walk of the quotient can be followed through the parts that it passes. -/
theorem lift (live : a ∈ h.nodeIds) (walk : h.Walk a b passed) :
    ∃ further, g.Walk (top a) (top b) further ∧ ∀ m ∈ further, rep m ∈ passed := by
  induction walk with
  | here =>
    refine ⟨[top a], .here, fun m member => ?_⟩
    rw [List.mem_singleton.mp member, quotient.rep_top a live]
    exact List.mem_singleton_self a
  | @step c passed b walk edge ih =>
    obtain ⟨further, way, inside⟩ := ih
    obtain ⟨m, reached, rfl, exit⟩ := quotient.step_lifts c b edge
    obtain ⟨rest, within, same⟩ := quotient.within m reached
    refine ⟨_, (way.append within).step exit, fun n member => ?_⟩
    have last : rep (top b) = b := quotient.rep_top b (quotient.wf.target_live edge)
    simp only [List.mem_append, List.mem_singleton] at member ⊢
    rcases member with (before | part) | rfl
    · exact .inl (inside n before)
    · exact .inl (same n (List.mem_of_mem_tail part) ▸ walk.end_mem)
    · exact .inr last

/-- A walk of the quotient can be followed to every node of the last part. -/
theorem lift_to (live : a ∈ h.nodeIds) (reached : g.Reaches start n)
    (walk : h.Walk a (rep n) passed) :
    ∃ further, g.Walk (top a) n further ∧ ∀ m ∈ further, rep m ∈ passed := by
  obtain ⟨further, way, inside⟩ := quotient.lift live walk
  obtain ⟨rest, within, same⟩ := quotient.within n reached
  refine ⟨_, way.append within, fun m member => ?_⟩
  rcases List.mem_append.mp member with before | part
  · exact inside m before
  · exact same m (List.mem_of_mem_tail part) ▸ walk.end_mem

/-- A walk can be followed in the quotient. It passes the top of every part that it enters. -/
theorem project (reached : g.Reaches start m) (walk : g.Walk m n passed) :
    ∃ further, h.Walk (rep m) (rep n) further ∧ ∀ a ∈ further, a = rep m ∨ top a ∈ passed := by
  induction walk with
  | here => exact ⟨[rep m], .here, fun a member => .inl (List.mem_singleton.mp member)⟩
  | @step c passed b walk edge ih =>
    obtain ⟨further, way, tops⟩ := ih
    rcases quotient.step c b (reached.trans ⟨_, walk⟩) edge with same | ⟨edge, entered⟩
    · refine ⟨further, same ▸ way, fun a member => ?_⟩
      exact (tops a member).imp_right (List.mem_append_left _)
    · refine ⟨_, way.step edge, fun a member => ?_⟩
      rcases List.mem_append.mp member with before | last
      · exact (tops a before).imp_right (List.mem_append_left _)
      · rw [List.mem_singleton.mp last, entered]
        exact .inr (List.mem_append_right _ (List.mem_singleton_self b))

theorem reaches_rep (reached : g.Reaches start n) : h.Reaches start' (rep n) := by
  obtain ⟨passed, walk⟩ := reached
  obtain ⟨further, way, -⟩ := quotient.project (.refl start) walk
  exact quotient.rep_start ▸ ⟨further, way⟩

/-- All of a quotient can be reached. -/
theorem reaches (live : a ∈ h.nodeIds) : h.Reaches start' a :=
  quotient.rep_top a live ▸ quotient.reaches_rep (quotient.top_reached a live)

/-! ## Dominance -/

/-- What dominates a node of the quotient has a top that dominates the part. -/
theorem dominates_top (reached : g.Reaches start n) (dominates : h.Dominates start' b (rep n)) :
    g.Dominates start (top b) n := by
  refine ⟨reached, fun passed walk => ?_⟩
  obtain ⟨further, way, tops⟩ := quotient.project (.refl start) walk
  rw [quotient.rep_start] at way tops
  rcases tops b (dominates.2 further way) with rfl | member
  · exact quotient.top_start ▸ walk.start_mem
  · exact member

/-- The top of a part dominates it. -/
theorem top_dominates (reached : g.Reaches start n) : g.Dominates start (top (rep n)) n :=
  quotient.dominates_top reached (.refl (quotient.reaches_rep reached))

/-- What dominates a node stands in the quotient for what dominates the node's part. -/
theorem dominates_rep (dominates : g.Dominates start m n) :
    h.Dominates start' (rep m) (rep n) := by
  refine ⟨quotient.reaches_rep dominates.1, fun passed walk => ?_⟩
  obtain ⟨further, way, inside⟩ := quotient.lift_to quotient.live dominates.1 walk
  rw [quotient.top_start] at way
  exact inside m (dominates.2 further way)

theorem dominates_of_top (live : b ∈ h.nodeIds) (dominates : g.Dominates start (top b) n) :
    h.Dominates start' b (rep n) :=
  quotient.rep_top b live ▸ quotient.dominates_rep dominates

/-- Quotients of reducible graphs are reducible: the ranks of the tops grow along the edges that do
not lead back to dominators. -/
theorem reducible (wf : g.WellFormed) (live : start ∈ g.nodeIds) (reducible : g.Reducible start) :
    h.Reducible start' := by
  have ranking := ranking wf live
  refine (reducible_iff quotient.wf quotient.live).mpr
    ⟨fun a => (g.numbering start).rank (top a), fun a b _ edge => ?_⟩
  obtain ⟨m, reached, rfl, exit⟩ := quotient.step_lifts a b edge
  rcases Nat.lt_or_ge ((g.numbering start).rank m) ((g.numbering start).rank (top b)) with
    higher | back
  · left
    have low := ranking.climbs_of_dominates (quotient.top_dominates reached)
    exact Nat.lt_of_le_of_lt low.rank_le higher
  · right
    have dominates := reducible m (top b) ⟨reached, exit, back⟩
    exact quotient.dominates_of_top (quotient.wf.target_live edge) dominates

/-- A graph is reducible if its quotient is, and if there are places that grow along every edge inside
a part but those that lead back to its top. -/
theorem reducible_of (place : NodeId → Nat) (bound : Nat) (wf : g.WellFormed)
    (live : start ∈ g.nodeIds) (few : ∀ n, g.Reaches start n → place n < bound)
    (ascends : ∀ m n, g.Reaches start m → g.Step m n → rep m = rep n →
      place m < place n ∨ top (rep n) = n)
    (reducible : h.Reducible start') : g.Reducible start := by
  obtain ⟨height, stratifies⟩ := (reducible_iff quotient.wf quotient.live).mp reducible
  refine (reducible_iff wf live).mpr ⟨fun n => height (rep n) * bound + place n, ?_⟩
  intro m n reached edge
  dsimp only
  rcases quotient.step m n reached edge with same | ⟨step, entered⟩
  · rcases ascends m n reached edge same with later | back
    · left
      rw [same]
      exact Nat.add_lt_add_left later _
    · right
      have below := quotient.top_dominates reached
      rwa [same, back] at below
  · rcases stratifies _ _ (quotient.reaches_rep reached) step with higher | dominates
    · left
      calc height (rep m) * bound + place m
          < height (rep m) * bound + bound := Nat.add_lt_add_left (few m reached) _
        _ = (height (rep m) + 1) * bound := (Nat.succ_mul _ _).symm
        _ ≤ height (rep n) * bound := Nat.mul_le_mul_right _ higher
        _ ≤ height (rep n) * bound + place n := Nat.le_add_right _ _
    · right
      exact entered ▸ quotient.dominates_top reached dominates

/-- A quotient is smaller if some node is the top of no part. -/
theorem size_lt (wf : g.WellFormed) (live : start ∈ g.nodeIds) (inside : n ∈ g.nodeIds)
    (inner : ∀ a ∈ h.nodeIds, top a ≠ n) : h.size < g.size := by
  have nodup : (h.nodeIds.map top).Nodup := by
    refine (List.nodup_map_iff_inj_on quotient.wf.idsNodup).mpr ?_
    intro a left b right same
    rw [← quotient.rep_top a left, same, quotient.rep_top b right]
  have others : h.nodeIds.map top ⊆ g.nodeIds.erase n := by
    intro m member
    obtain ⟨a, live', rfl⟩ := List.mem_map.mp member
    exact (List.mem_erase_of_ne (inner a live')).mpr
      ((quotient.top_reached a live').live wf live)
  have fewer := (nodup.subperm others).length_le
  have some := List.length_pos_of_mem inside
  rw [List.length_map, List.length_erase_of_mem inside] at fewer
  simp only [nodeIds, List.length_map] at fewer some
  simp only [size]
  omega

/-! ## Quotients of quotients -/

theorem trans (second : h.IsQuotient start' k start'' rep' top') :
    g.IsQuotient start k start'' (rep' ∘ rep) (top ∘ top') where
  wf := second.wf
  live := second.live
  top_start := by rw [Function.comp_apply, second.top_start, quotient.top_start]
  top_reached a live :=
    quotient.top_reached _ ((second.top_reached a live).live quotient.wf quotient.live)
  rep_top a live := by
    have inner := (second.top_reached a live).live quotient.wf quotient.live
    rw [Function.comp_apply, Function.comp_apply, quotient.rep_top _ inner, second.rep_top a live]
  label_top a live := by
    have inner := (second.top_reached a live).live quotient.wf quotient.live
    rw [Function.comp_apply, quotient.label_top _ inner, second.label_top a live]
  rep_live n reached := second.rep_live _ (quotient.reaches_rep reached)
  step m n reached edge := by
    simp only [Function.comp_apply]
    rcases quotient.step m n reached edge with same | ⟨edge, entered⟩
    · exact .inl (congrArg rep' same)
    · rcases second.step _ _ (quotient.reaches_rep reached) edge with same | ⟨edge, outer⟩
      · exact .inl same
      · exact .inr ⟨edge, by rw [outer, entered]⟩
  step_lifts a b edge := by
    obtain ⟨c, -, rfl, inner⟩ := second.step_lifts a b edge
    obtain ⟨m, reached, rfl, exit⟩ := quotient.step_lifts c (top' b) inner
    exact ⟨m, reached, rfl, exit⟩
  within n reached := by
    obtain ⟨outer, way, same⟩ := second.within (rep n) (quotient.reaches_rep reached)
    have inner : top' (rep' (rep n)) ∈ h.nodeIds :=
      (second.top_reached _ (second.rep_live _ (quotient.reaches_rep reached))).live
        quotient.wf quotient.live
    obtain ⟨passed, walk, inside⟩ := quotient.lift_to inner reached way
    exact ⟨passed, walk, fun m member => same _ (inside m member)⟩

end IsQuotient

end ControlFlow.FlowGraph
