import ControlFlow.Proofs.Graph.Dominators

/-! Reducible graphs. An edge retreats if it leads to no later node in reverse postorder, and a graph
is reducible if every such edge leads back to a node that dominates its source. The search that the
order comes from does not matter: a graph is reducible exactly when there are heights that grow along
every edge that does not lead back to a dominator. -/
namespace ControlFlow.FlowGraph

variable {g : FlowGraph} {root a b : NodeId}

/-- An edge that leads to no later node in reverse postorder. -/
structure Retreats (g : FlowGraph) (root a b : NodeId) : Prop where
  reached : g.Reaches root a
  edge : g.Step a b
  back : (g.numbering root).rank b ≤ (g.numbering root).rank a

/-- Control retreats to dominators only. -/
def Reducible (g : FlowGraph) (root : NodeId) : Prop :=
  ∀ a b, g.Retreats root a b → g.Dominates root b a

/-- Heights that grow along every edge, those apart that lead back to a dominator. -/
def Stratifies (g : FlowGraph) (root : NodeId) (height : NodeId → Nat) : Prop :=
  ∀ a b, g.Reaches root a → g.Step a b → height a < height b ∨ g.Dominates root b a

section

variable (wf : g.WellFormed) (live : root ∈ g.nodeIds)
include wf live

/-- A retreating edge closes a cycle with the way on which the search went down. -/
theorem Retreats.climbs (retreats : g.Retreats root a b) :
    g.Climbs (g.numbering root).rank b a := by
  obtain ⟨rest, searched⟩ := @searchFrom_searched g.succs g.nodeIds [root] wf.idsNodup
  have nodup := numbering_left_nodup wf root
  have visited : a ∈ (searchFrom g.succs g.nodeIds [root]).preorder :=
    (mem_search wf live).mpr retreats.reached
  rcases searched.returns a visited b retreats.edge (wf.target_live retreats.edge) with later | ⟨path, -⟩
  · have higher : (g.numbering root).rank a < (g.numbering root).rank b :=
      Numbering.rank_lt_of_sublist nodup later
    exact absurd retreats.back (Nat.not_le.mpr higher)
  · exact Relation.ReflTransGen.mono
      (fun _ _ hop => ⟨hop.1, Numbering.rank_lt_of_sublist nodup hop.2⟩) _ _ path

/-- Whatever grows along all edges but those back to dominators grows along a climb. -/
theorem Stratifies.height_le {height : NodeId → Nat} (stratifies : g.Stratifies root height)
    (reached : g.Reaches root a) (climbs : g.Climbs (g.numbering root).rank a b) :
    height a ≤ height b := by
  induction climbs with
  | refl => exact Nat.le_refl _
  | @tail c d path hop ih =>
    rcases stratifies c d (reached.trans (Climbs.reaches path)) hop.1 with higher | dominates
    · exact ih.trans (Nat.le_of_lt higher)
    · have different : d ≠ c := by
        rintro rfl
        exact Nat.lt_irrefl _ hop.2
      have lower := (ranking wf live).lt_of_strictlyDominates ⟨different, dominates⟩
      exact absurd hop.2 (Nat.lt_asymm lower)

theorem reducible_iff : g.Reducible root ↔ ∃ height, g.Stratifies root height := by
  constructor
  · intro reducible
    refine ⟨(g.numbering root).rank, fun a b reached edge => ?_⟩
    rcases Nat.lt_or_ge ((g.numbering root).rank a) ((g.numbering root).rank b) with higher | back
    · exact .inl higher
    · exact .inr (reducible a b ⟨reached, edge, back⟩)
  · rintro ⟨height, stratifies⟩ a b retreats
    have reached : g.Reaches root b := retreats.reached.step retreats.edge
    have lower := stratifies.height_le wf live reached (retreats.climbs wf live)
    exact (stratifies a b retreats.reached retreats.edge).resolve_left (Nat.not_lt.mpr lower)

/-- Reducibility can be read off the dominator tree, edge by edge. -/
theorem reducible_iff_edges : g.Reducible root ↔ ∀ e ∈ g.edges,
    (g.dominatorsFrom root).isReachable e.source = true →
      (g.numbering root).rank e.target ≤ (g.numbering root).rank e.source →
        (g.dominatorsFrom root).dominates e.target e.source = true := by
  have exact := exact_dominatorsFrom wf live
  simp only [isReachable_iff wf live, exact.dominates_iff]
  constructor
  · intro reducible e member reached back
    exact reducible e.source e.target ⟨reached, mem_succs.mpr ⟨e, member, rfl, rfl⟩, back⟩
  · rintro all a b ⟨reached, edge, back⟩
    obtain ⟨e, member, rfl, rfl⟩ := mem_succs.mp edge
    exact all e member reached back

/-- Where control goes on below a node of a reducible graph in which no edge leads back to its own
source, some node is entered from one node only. -/
private theorem exists_single_pred_below (reducible : g.Reducible root)
    (loopless : ∀ n, ¬g.Step n n) (bound : Nat) {h : NodeId}
    (enough : (g.numbering root).count - (g.numbering root).rank h ≤ bound)
    (below : ∃ n, g.StrictlyDominates root h n) :
    ∃ p n, g.Reaches root n ∧ n ≠ root ∧ ∀ q, g.Reaches root q → g.Step q n → q = p := by
  have rankInj := ranking wf live
  induction bound generalizing h with
  | zero =>
    obtain ⟨n, strict⟩ := below
    have lower := rankInj.lt_of_strictlyDominates strict
    have few := Numbering.rank_lt_count (numbering_left_nodup wf root)
      ((mem_numbering_left wf live).mpr strict.2.1)
    omega
  | succ bound ih =>
    -- Of the nodes below the first one in reverse postorder is entered from above only, or
    -- heads a loop, below which the search goes on.
    obtain ⟨n, strict, first⟩ :=
      (measure (g.numbering root).rank).wf.has_min {n | g.StrictlyDominates root h n} below
    have notRoot : n ≠ root := by
      rintro rfl
      exact strict.1 strict.2.eq_root
    by_cases retreated : ∃ p, g.Retreats root p n
    · obtain ⟨p, retreats⟩ := retreated
      have different : n ≠ p := by
        rintro rfl
        exact loopless n retreats.edge
      refine ih ?_ ⟨p, different, reducible p n retreats⟩
      have lower := rankInj.lt_of_strictlyDominates strict
      have few := Numbering.rank_lt_count (numbering_left_nodup wf root)
        ((mem_numbering_left wf live).mpr strict.2.1)
      omega
    · refine ⟨h, n, strict.2.1, notRoot, fun q reached edge => ?_⟩
      by_contra other
      have lower : (g.numbering root).rank q < (g.numbering root).rank n := by
        by_contra back
        exact retreated ⟨q, reached, edge, Nat.not_lt.mp back⟩
      exact first q ⟨Ne.symm other, strict.2.of_step strict.1 reached edge⟩ lower

/-- In a reducible graph in which no edge leads back to its own source, some node is entered from
one node only, unless there is the root alone. -/
theorem Reducible.exists_single_pred (reducible : g.Reducible root) (loopless : ∀ n, ¬g.Step n n)
    (reached : g.Reaches root a) (different : a ≠ root) :
    ∃ p n, g.Reaches root n ∧ n ≠ root ∧ ∀ q, g.Reaches root q → g.Step q n → q = p := by
  have dominates : g.Dominates root root a :=
    ⟨reached, fun _ walk => walk.start_mem⟩
  exact exists_single_pred_below wf live reducible loopless _ (Nat.le_refl _)
    ⟨a, Ne.symm different, dominates⟩

end

end ControlFlow.FlowGraph
