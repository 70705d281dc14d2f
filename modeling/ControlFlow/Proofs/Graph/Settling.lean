import ControlFlow.Proofs.Graph.Ascent

/-! How the table of nearest dominators settles. A sound table errs only by holding too many nodes
above another, and how far it errs is bounded: after `k` sweeps, what stands above a node lies on
every walk to it that goes back, to a node of no higher rank, fewer than `k` times. A walk without
repetitions goes back less often than there are nodes, so the table is exact after that many sweeps,
and a sweep leaves an exact table as it is. -/
namespace ControlFlow

namespace FlowGraph

/-- A walk with the number of its steps that go back. -/
inductive Trip (g : FlowGraph) (rank : NodeId → Nat) (start : NodeId) :
    NodeId → List NodeId → Nat → Prop where
  | here : Trip g rank start start [start] 0
  | onward (trip : Trip g rank start a passed k) (edge : g.Step a b) (ahead : rank a < rank b) :
    Trip g rank start b (passed ++ [b]) k
  | back (trip : Trip g rank start a passed k) (edge : g.Step a b) (behind : rank b ≤ rank a) :
    Trip g rank start b (passed ++ [b]) (k + 1)

namespace Trip

variable {g : FlowGraph} {rank : NodeId → Nat} {start a b : NodeId} {passed : List NodeId} {k : Nat}

theorem walk (trip : g.Trip rank start a passed k) : g.Walk start a passed := by
  induction trip with
  | here => exact .here
  | onward _ edge _ ih => exact ih.step edge
  | back _ edge _ ih => exact ih.step edge

theorem upTo (trip : g.Trip rank start a passed k) (member : b ∈ passed) :
    ∃ before j, g.Trip rank start b before j ∧ before ⊆ passed ∧ j ≤ k := by
  induction trip with
  | here =>
    obtain rfl := List.mem_singleton.mp member
    exact ⟨_, _, .here, List.Subset.refl _, Nat.le_refl _⟩
  | @onward c passed k d trip edge ahead ih =>
    rcases List.mem_append.mp member with member | last
    · obtain ⟨before, j, part, subset, fewer⟩ := ih member
      exact ⟨before, j, part, List.Subset.trans subset (List.subset_append_left _ _), fewer⟩
    · obtain rfl := List.mem_singleton.mp last
      exact ⟨_, _, .onward trip edge ahead, List.Subset.refl _, Nat.le_refl _⟩
  | @back c passed k d trip edge behind ih =>
    rcases List.mem_append.mp member with member | last
    · obtain ⟨before, j, part, subset, fewer⟩ := ih member
      exact ⟨before, j, part, List.Subset.trans subset (List.subset_append_left _ _),
        Nat.le_succ_of_le fewer⟩
    · obtain rfl := List.mem_singleton.mp last
      exact ⟨_, _, .back trip edge behind, List.Subset.refl _, Nat.le_refl _⟩

/-- A walk goes back less often than it passes nodes. -/
theorem of_walk (rank : NodeId → Nat) (walk : g.Walk start a passed) :
    ∃ k < passed.length, g.Trip rank start a passed k := by
  induction walk with
  | here => exact ⟨0, by simp, .here⟩
  | @step a passed b _ edge ih =>
    obtain ⟨k, fewer, trip⟩ := ih
    rw [List.length_append, List.length_singleton]
    by_cases ahead : rank a < rank b
    · exact ⟨k, by omega, .onward trip edge ahead⟩
    · exact ⟨k + 1, by omega, .back trip edge (Nat.le_of_not_lt ahead)⟩

end Trip

end FlowGraph

namespace Ascent

variable {ascent next : Ascent} {g : FlowGraph} {root id up b : NodeId} {rank : NodeId → Nat}
variable {k : Nat} {rest : List NodeId}

/-! ## Precision -/

/-- What stands above a node lies on every walk to it that goes back fewer than `k` times. -/
def PreciseAt (ascent : Ascent) (g : FlowGraph) (root : NodeId) (rank : NodeId → Nat) (k : Nat)
    (id : NodeId) : Prop :=
  ∀ j < k, ∀ passed, g.Trip rank root id passed j → ∀ a, ascent.AtOrAbove a id → a ∈ passed

theorem preciseAt_zero (id : NodeId) : ascent.PreciseAt g root rank 0 id :=
  fun j fewer => absurd fewer (Nat.not_lt_zero j)

theorem preciseAt_root (sound : ascent.Sound g root rank) (k : Nat) :
    ascent.PreciseAt g root rank k root := fun _ _ _ trip _ above =>
  sound.eq_root above ▸ trip.walk.start_mem

namespace Refined

variable (refined : Refined g ascent next id up)
include refined

/-- Linked to the nearest node above its predecessors, a node is as precise as those before it and
more precise than those behind it. -/
theorem precise_self (sound : ascent.Sound g root rank)
    (early : ∃ p, g.Step p id ∧ ascent.Placed p ∧ rank p < rank id) (notRoot : id ≠ root)
    (before : ∀ p, g.Reaches root p → g.Step p id → rank p < rank id →
      ascent.Placed p ∧ ascent.PreciseAt g root rank (k + 1) p)
    (behind : ∀ p, g.Reaches root p → g.Step p id → 0 < k →
      ascent.Placed p ∧ ascent.PreciseAt g root rank k p) :
    next.PreciseAt g root rank (k + 1) id := by
  intro j fewer passed trip a above
  by_cases same : a = id
  · exact same ▸ trip.walk.end_mem
  obtain ⟨next, link, rest⟩ := above.of_ne same
  obtain rfl := Option.some.inj (refined.link.symm.trans link)
  have all := (refined.nearest a).mp ((refined.above_up sound early).mp rest)
  cases trip with
  | here => exact absurd rfl notRoot
  | @onward p passed j _ trip edge ahead =>
    obtain ⟨placed, precise⟩ := before p ⟨_, trip.walk⟩ edge ahead
    exact List.mem_append_left _ (precise j fewer _ trip a (all p edge placed))
  | @back p passed j _ trip edge =>
    obtain ⟨placed, precise⟩ := behind p ⟨_, trip.walk⟩ edge (by omega)
    exact List.mem_append_left _ (precise j (by omega) _ trip a (all p edge placed))

/-- Refining one node keeps the precision of the others. -/
theorem precise_other {l : Nat} (self : next.PreciseAt g root rank l id)
    (precise : ascent.PreciseAt g root rank k b) (fewer : k ≤ l) :
    next.PreciseAt g root rank k b := by
  intro j less passed trip a above
  rcases above.transfer refined.others with above | ⟨above, below⟩
  · exact precise j less passed trip a above
  -- What is new above the node came there through the refined one, which the walk passes.
  · obtain ⟨before, i, part, subset, first⟩ := trip.upTo (precise j less passed trip id below)
    exact subset (self i (by omega) before part a above)

end Refined

/-! ## Sweeping -/

/-- The table in the midst of a sweep after `k` full ones, while some nodes are still to be
refined. -/
structure Midway (g : FlowGraph) (root : NodeId) (rank : NodeId → Nat) (k : Nat)
    (rest : List NodeId) (ascent : Ascent) : Prop where
  sound : ascent.Sound g root rank
  placed : ∀ b, g.Reaches root b → b ∉ rest ∨ 0 < k → ascent.Placed b
  precise : ∀ b, ascent.PreciseAt g root rank k b
  ahead : ∀ b, g.Reaches root b → b ∉ rest → ascent.PreciseAt g root rank (k + 1) b

namespace Midway

theorem refine (ranking : g.Ranking root rank) (midway : Midway g root rank k (id :: rest) ascent)
    (passed : ∀ b, rank b < rank id → b ∉ id :: rest) (reached : g.Reaches root id)
    (notRoot : id ≠ root) : Midway g root rank k rest (ascent.refine g rank id) := by
  obtain ⟨p, reachedP, edge, lower⟩ := ranking.entered reached notRoot
  have placedP := midway.placed p reachedP (.inl (passed p lower))
  obtain ⟨up, refined, -⟩ := refined_refine ranking midway.sound ⟨p, edge, placedP⟩
  have early : ∃ p, g.Step p id ∧ ascent.Placed p ∧ rank p < rank id := ⟨p, edge, placedP, lower⟩
  have self : (ascent.refine g rank id).PreciseAt g root rank (k + 1) id := by
    refine refined.precise_self midway.sound early notRoot ?_ ?_
    · exact fun q reachedQ _ lower => ⟨midway.placed q reachedQ (.inl (passed q lower)),
        midway.ahead q reachedQ (passed q lower)⟩
    · exact fun q reachedQ _ positive =>
        ⟨midway.placed q reachedQ (.inr positive), midway.precise q⟩
  exact {
    sound := refined.sound_next midway.sound early reached notRoot
    placed := fun b reachedB which => by
      by_cases same : b = id
      · exact same ▸ refined.placed_self
      · exact refined.placed_of_placed (midway.placed b reachedB (which.imp_left (by simp [same])))
    precise := fun b =>
      refined.precise_other self (midway.precise b) (Nat.le_succ k)
    ahead := fun b reachedB missing => by
      by_cases same : b = id
      · exact same ▸ self
      · exact refined.precise_other self
          (midway.ahead b reachedB (by simp [same, missing])) (Nat.le_refl _) }

/-- Refining the nodes still left, in the order of their ranks, ends a sweep. -/
theorem foldl_refine (ranking : g.Ranking root rank) (midway : Midway g root rank k rest ascent)
    (order : rest.Pairwise fun a b => rank a < rank b)
    (inner : ∀ id ∈ rest, g.Reaches root id ∧ id ≠ root) :
    Midway g root rank k [] (rest.foldl (Ascent.refine g rank) ascent) := by
  induction rest generalizing ascent with
  | nil => exact midway
  | cons id rest ih =>
    obtain ⟨later, order⟩ := List.pairwise_cons.mp order
    obtain ⟨⟨reached, notRoot⟩, inner⟩ := List.forall_mem_cons.mp inner
    refine ih (midway.refine ranking (fun b lower member => ?_) reached notRoot) order inner
    rcases List.mem_cons.mp member with rfl | member
    · exact Nat.lt_irrefl _ lower
    · exact Nat.lt_asymm lower (later b member)

/-- The end of one sweep is the beginning of the next. -/
theorem again (midway : Midway g root rank k [] ascent)
    (cover : ∀ b, g.Reaches root b → b ∉ rest → b = root) :
    Midway g root rank (k + 1) rest ascent where
  sound := midway.sound
  placed b reached _ := midway.placed b reached (.inl List.not_mem_nil)
  precise b j fewer passed trip :=
    midway.ahead b ⟨passed, trip.walk⟩ List.not_mem_nil j fewer passed trip
  ahead b reached missing := by
    obtain rfl := cover b reached missing
    exact preciseAt_root midway.sound _

end Midway

/-! ## Exactness -/

/-- The table has above each node its dominators and nothing else. -/
structure Exact (g : FlowGraph) (root : NodeId) (rank : NodeId → Nat) (ascent : Ascent) : Prop where
  sound : ascent.Sound g root rank
  placed : ∀ {b}, g.Reaches root b → ascent.Placed b
  above_iff : ∀ {a b}, g.Reaches root b → (ascent.AtOrAbove a b ↔ g.Dominates root a b)

/-- An exact table has every node in its place already. -/
theorem Exact.refine_eq (ranking : g.Ranking root rank) (exact : ascent.Exact g root rank)
    (reached : g.Reaches root id) (notRoot : id ≠ root) : ascent.refine g rank id = ascent := by
  obtain ⟨p, reachedP, edge, lower⟩ := ranking.entered reached notRoot
  obtain ⟨up, refined, kept⟩ :=
    refined_refine ranking exact.sound ⟨p, edge, exact.placed reachedP⟩
  obtain ⟨old, link⟩ := placed_iff.mp (exact.placed reached)
  have below : ascent.AtOrAbove old up := by
    refine (refined.nearest old).mpr fun q edge placed => ?_
    have reachedQ := exact.sound.reached placed
    have dominates := (exact.above_iff reached).mp (.of_above link)
    have different : old ≠ id := fun same =>
      Nat.lt_irrefl _ (same ▸ exact.sound.lower link notRoot)
    exact (exact.above_iff reachedQ).mpr (dominates.of_step different reachedQ edge)
  have above : ascent.AtOrAbove up id := by
    refine (exact.above_iff reached).mpr (.of_preds reached notRoot fun q reachedQ edge => ?_)
    exact (exact.above_iff reachedQ).mp
      ((refined.nearest up).mp (.refl up) q edge (exact.placed reachedQ))
  have different : up ≠ id := by
    have lower := refined.rank_lt exact.sound ⟨p, edge, exact.placed reachedP, lower⟩
    exact fun same => Nat.lt_irrefl _ (same ▸ lower)
  obtain ⟨next, found, rest⟩ := above.of_ne different
  obtain rfl := Option.some.inj (link.symm.trans found)
  obtain rfl := exact.sound.antisymm rest below
  exact kept link

/-- Settling sweeps some number of times. -/
theorem exists_iterate_eq_settle (numbering : Numbering) (bound : Nat) :
    ∃ sweeps, (sweep g numbering)^[sweeps] ascent = ascent.settle g numbering bound := by
  induction bound generalizing ascent with
  | zero => exact ⟨0, rfl⟩
  | succ bound ih =>
    unfold settle
    by_cases same : ascent.sweep g numbering = ascent
    · exact ⟨0, by simp [same]⟩
    · obtain ⟨sweeps, reached⟩ := @ih (ascent.sweep g numbering)
      exact ⟨sweeps + 1, by simpa [same] using reached⟩

/-- In the first table only the root has a place. -/
theorem above?_start (rest : List NodeId) (id : NodeId) :
    (Ascent.start (root :: rest)).above? id = if id = root then some root else none := by
  by_cases same : id = root
  · simp [start, above?, same]
  · have passed : (id == root) = false := by simpa using same
    simp [start, above?, List.lookup_cons, same, passed]

theorem sound_start (rest : List NodeId) : (Ascent.start (root :: rest)).Sound g root rank := by
  have link {id up : NodeId} (found : (Ascent.start (root :: rest)).above? id = some up) :
      id = root ∧ up = root := by
    by_cases same : id = root
    · rw [above?_start, if_pos same] at found
      exact ⟨same, (Option.some.inj found).symm⟩
    · simp [above?_start, same] at found
  have only {id : NodeId} (placed : (Ascent.start (root :: rest)).Placed id) : id = root := by
    obtain ⟨up, found⟩ := placed_iff.mp placed
    exact (link found).1
  exact {
    rootLink := by simp [above?_start]
    reached := fun placed => by
      obtain rfl := only placed
      exact .refl _
    lower := fun found different => absurd (link found).1 different
    climbs := fun found => by
      obtain ⟨rfl, rfl⟩ := link found
      exact .refl
    placed := fun found => by simp [Placed, above?_start, (link found).2]
    dominators := fun placed dominates => by
      obtain rfl := only placed
      exact dominates.eq_root ▸ .refl _ }

end Ascent

namespace FlowGraph

/-! ## Settling -/

section

variable {g : FlowGraph} {root : NodeId} {ascent : Ascent} {k : Nat}
variable (wf : g.WellFormed) (live : root ∈ g.nodeIds)
include wf live

theorem mem_reversePostorder_tail {id : NodeId} :
    id ∈ (g.numbering root).reversePostorder.tail ↔ g.Reaches root id ∧ id ≠ root := by
  have listed := reversePostorder_eq_cons wf live
  have order := Numbering.pairwise_rank (numbering_left_nodup wf root)
  rw [← mem_reversePostorder wf live, listed, List.mem_cons]
  rw [listed, List.pairwise_cons] at order
  constructor
  · intro member
    exact ⟨.inr member, fun same => Nat.lt_irrefl _ (order.1 root (same ▸ member))⟩
  · rintro ⟨same | member, different⟩
    · exact absurd same different
    · exact member

private theorem eq_root_of_not_mem_tail {id : NodeId} (reached : g.Reaches root id)
    (missing : id ∉ (g.numbering root).reversePostorder.tail) : id = root := by
  by_contra different
  exact missing ((mem_reversePostorder_tail wf live).mpr ⟨reached, different⟩)

omit wf live in
/-- The table at the beginning of a sweep, after `k` others. -/
def Swept (g : FlowGraph) (root : NodeId) (k : Nat) (ascent : Ascent) : Prop :=
  Ascent.Midway g root (g.numbering root).rank k (g.numbering root).reversePostorder.tail ascent

theorem swept_start : g.Swept root 0 (.start (g.numbering root).reversePostorder) := by
  rw [reversePostorder_eq_cons wf live]
  have sound : (Ascent.start (root :: (g.numbering root).reversePostorder.tail)).Sound g root
      (g.numbering root).rank := Ascent.sound_start _
  exact {
    sound
    placed := fun b reached which => by
      obtain rfl := eq_root_of_not_mem_tail wf live reached (which.resolve_right (by simp))
      simp [Ascent.Placed, Ascent.above?_start]
    precise := Ascent.preciseAt_zero
    ahead := fun b reached missing => by
      obtain rfl := eq_root_of_not_mem_tail wf live reached missing
      exact Ascent.preciseAt_root sound _ }

theorem Swept.sweep (swept : g.Swept root k ascent) :
    g.Swept root (k + 1) (ascent.sweep g (g.numbering root)) := by
  have order : (g.numbering root).reversePostorder.tail.Pairwise fun a b =>
      (g.numbering root).rank a < (g.numbering root).rank b :=
    (Numbering.pairwise_rank (numbering_left_nodup wf root)).sublist (List.tail_sublist _)
  have ended := swept.foldl_refine (ranking wf live) order fun id member =>
    (mem_reversePostorder_tail wf live).mp member
  exact ended.again fun b reached missing => eq_root_of_not_mem_tail wf live reached missing

/-- After as many sweeps as there are nodes the table is exact. -/
theorem Swept.exact (swept : g.Swept root k ascent) (enough : (g.numbering root).count ≤ k) :
    ascent.Exact g root (g.numbering root).rank := by
  have positive : 0 < k := by
    have member := (mem_numbering_left wf live).mpr (.refl root)
    exact Nat.lt_of_lt_of_le (List.length_pos_of_mem member) enough
  have placed {b : NodeId} (reached : g.Reaches root b) : ascent.Placed b :=
    swept.placed b reached (.inr positive)
  refine ⟨swept.sound, placed, fun {a b} reached => ⟨fun above => ⟨reached, ?_⟩, ?_⟩⟩
  · intro passed walk
    obtain ⟨short, simple, nodup, subset⟩ := walk.simple
    obtain ⟨j, fewer, trip⟩ := Trip.of_walk (g.numbering root).rank simple
    have bound : short.length ≤ (g.numbering root).count :=
      (nodup.subperm fun c member =>
        (mem_numbering_left wf live).mpr (.of_mem simple member)).length_le
    exact subset (swept.precise b j (by omega) short trip a above)
  · exact swept.sound.dominators (placed reached)

theorem sweep_of_exact (exact : ascent.Exact g root (g.numbering root).rank) :
    ascent.sweep g (g.numbering root) = ascent := by
  have inner (id : NodeId) := (@mem_reversePostorder_tail g root wf live id).mp
  unfold Ascent.sweep
  generalize (g.numbering root).reversePostorder.tail = rest at inner
  induction rest with
  | nil => rfl
  | cons id rest ih =>
    obtain ⟨reached, notRoot⟩ := inner id List.mem_cons_self
    rw [List.foldl_cons, exact.refine_eq (ranking wf live) reached notRoot]
    exact ih fun id member => inner id (List.mem_cons_of_mem _ member)

/-- Sweeping ends with an exact table before the bound is reached. -/
theorem Swept.settle (swept : g.Swept root k ascent) {bound : Nat}
    (enough : (g.numbering root).count < k + bound) :
    (ascent.settle g (g.numbering root) bound).Exact g root (g.numbering root).rank := by
  induction bound generalizing k ascent with
  | zero => exact swept.exact wf live (by omega)
  | succ bound ih =>
    unfold Ascent.settle
    by_cases same : ascent.sweep g (g.numbering root) = ascent
    · -- A sweep that changes nothing may be repeated as often as it takes.
      have repeated (extra : Nat) : g.Swept root (k + extra) ascent := by
        induction extra with
        | zero => exact swept
        | succ extra ih =>
          have next := ih.sweep wf live
          rwa [same] at next
      have exact := (repeated (g.numbering root).count).exact wf live (Nat.le_add_left _ _)
      simpa [same] using exact
    · simpa [same] using ih (swept.sweep wf live) (by omega)

theorem ascentFrom_exact : (g.ascentFrom root).Exact g root (g.numbering root).rank :=
  (swept_start wf live).settle wf live (by omega)

end

end FlowGraph

end ControlFlow
