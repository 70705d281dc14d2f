import ControlFlow.Graph.Dominators
import ControlFlow.Proofs.Graph.Numbering

/-! How the table of nearest dominators settles. Two properties are kept by every refinement. A
sound table has all dominators of a node above it, so it errs only by holding too many nodes above
another. How far it errs is bounded by precision: after `k` sweeps, what stands above a node lies on
every walk to it that goes back, to a node of no higher rank, fewer than `k` times. A walk without
repetitions goes back less often than there are nodes, so the table is exact after that many sweeps,
and a sweep leaves an exact table as it is. -/
namespace ControlFlow.Ascent

variable {ascent : Ascent} {a b c : NodeId}

/-! ## Standing above -/

/-- A node has a place in the table. -/
def Placed (ascent : Ascent) (id : NodeId) : Prop := (ascent.above? id).isSome = true

/-- One node is met on the way up from another, or is that node. -/
def AtOrAbove (ascent : Ascent) (high low : NodeId) : Prop :=
  Relation.ReflTransGen (fun a b => ascent.above? a = some b) low high

theorem placed_iff {id : NodeId} : ascent.Placed id ↔ ∃ up, ascent.above? id = some up :=
  Option.isSome_iff_exists

theorem above?_put (id up other : NodeId) :
    (ascent.put id up).above? other = if other = id then some up else ascent.above? other := by
  have kept (links : List (NodeId × NodeId)) (different : other ≠ id) :
      (links.filter (·.1 != id)).lookup other = links.lookup other := by
    induction links with
    | nil => rfl
    | cons link links ih =>
      obtain ⟨key, value⟩ := link
      by_cases same : key = id
      · have passed : (other == id) = false := by simpa using different
        simp [List.lookup_cons, same, passed, ih]
      · simp [List.lookup_cons, same, ih]
  by_cases same : other = id
  · simp [put, above?, same]
  · have passed : (other == id) = false := by simpa using same
    simp only [put, above?, List.lookup_cons, passed, kept ascent.links same, same, if_false]

namespace AtOrAbove

theorem refl (id : NodeId) : ascent.AtOrAbove id id := Relation.ReflTransGen.refl

theorem trans (first : ascent.AtOrAbove a b) (second : ascent.AtOrAbove b c) :
    ascent.AtOrAbove a c :=
  Relation.ReflTransGen.trans second first

theorem of_above (up : ascent.above? a = some b) : ascent.AtOrAbove b a :=
  Relation.ReflTransGen.single up

/-- What stands above a node and is not the node itself stands at or above the next node up. -/
theorem of_ne (above : ascent.AtOrAbove a b) (different : a ≠ b) :
    ∃ up, ascent.above? b = some up ∧ ascent.AtOrAbove a up := by
  rcases Relation.ReflTransGen.cases_head above with same | ⟨up, found, rest⟩
  · exact absurd same.symm different
  · exact ⟨up, found, rest⟩

/-- Where two tables agree on all nodes but one, what stands above a node in the first does so in
the second, or it stands above that one, and that one above the node. -/
theorem transfer {other : Ascent} {id : NodeId}
    (agree : ∀ n, n ≠ id → ascent.above? n = other.above? n) (above : ascent.AtOrAbove a b) :
    other.AtOrAbove a b ∨ (ascent.AtOrAbove a id ∧ other.AtOrAbove id b) := by
  induction above using Relation.ReflTransGen.head_induction_on with
  | refl => exact .inl (.refl a)
  | @head low up link rest ih =>
    by_cases same : low = id
    · subst same
      exact .inr ⟨Relation.ReflTransGen.head link rest, .refl low⟩
    · have up := of_above ((agree low same).symm.trans link)
      exact ih.imp (·.trans up) (And.imp_right (·.trans up))

theorem transfer_self {other : Ascent} {id : NodeId}
    (agree : ∀ n, n ≠ id → ascent.above? n = other.above? n) (above : ascent.AtOrAbove id b) :
    other.AtOrAbove id b :=
  (above.transfer agree).elim (fun above => above) And.right

end AtOrAbove

/-! ## Soundness -/

/-- The table has a place for the root. It links every other node in it to one of lower rank from
which a climb leads to the node, and it has all dominators of a node above the node. -/
structure Sound (g : FlowGraph) (root : NodeId) (rank : NodeId → Nat) (ascent : Ascent) :
    Prop where
  rootLink : ascent.above? root = some root
  reached : ∀ {id}, ascent.Placed id → g.Reaches root id
  lower : ∀ {id up}, ascent.above? id = some up → id ≠ root → rank up < rank id
  climbs : ∀ {id up}, ascent.above? id = some up → g.Climbs rank up id
  placed : ∀ {id up}, ascent.above? id = some up → ascent.Placed up
  dominators : ∀ {a b}, ascent.Placed b → g.Dominates root a b → ascent.AtOrAbove a b

namespace Sound

variable {g : FlowGraph} {root : NodeId} {rank : NodeId → Nat}
variable (sound : ascent.Sound g root rank)
include sound

theorem placed_above (above : ascent.AtOrAbove a b) (placed : ascent.Placed b) :
    ascent.Placed a := by
  induction above with
  | refl => exact placed
  | tail _ link _ => exact sound.placed link

theorem climbs_of_atOrAbove (above : ascent.AtOrAbove a b) : g.Climbs rank a b := by
  induction above with
  | refl => exact .refl
  | tail _ link ih => exact (sound.climbs link).trans ih

theorem rank_le (above : ascent.AtOrAbove a b) : rank a ≤ rank b :=
  (sound.climbs_of_atOrAbove above).rank_le

theorem eq_root (above : ascent.AtOrAbove a root) : a = root := by
  induction above with
  | refl => rfl
  | tail _ link ih =>
    subst ih
    exact Option.some.inj (link.symm.trans sound.rootLink)

theorem rank_lt (above : ascent.AtOrAbove a b) (different : a ≠ b) : rank a < rank b := by
  obtain ⟨up, link, rest⟩ := above.of_ne different
  by_cases same : b = root
  · subst same
    exact absurd (sound.eq_root above) different
  · exact Nat.lt_of_le_of_lt (sound.rank_le rest) (sound.lower link same)

theorem antisymm (left : ascent.AtOrAbove a b) (right : ascent.AtOrAbove b a) : a = b := by
  by_contra different
  exact Nat.lt_asymm (sound.rank_lt left different) (sound.rank_lt right (Ne.symm different))

end Sound

/-! ## Meeting -/

/-- What a search for the nearest node above all placed nodes of a list may give. -/
def IsNearest (ascent : Ascent) (ids : List NodeId) : Option NodeId → Prop
  | none => ∀ p ∈ ids, ¬ascent.Placed p
  | some m => ascent.Placed m ∧
    ∀ x, ascent.AtOrAbove x m ↔ ∀ p ∈ ids, ascent.Placed p → ascent.AtOrAbove x p

section

variable {g : FlowGraph} {root : NodeId} {rank : NodeId → Nat}
variable (ranking : g.Ranking root rank) (sound : ascent.Sound g root rank)
include ranking sound

/-- What goes up from two nodes meets at a node above which stands what stands above both. -/
theorem meetWithin_eq_some {bound : Nat} (left : ascent.Placed a) (right : ascent.Placed b)
    (enough : rank a + rank b ≤ bound) :
    ∃ m, ascent.meetWithin rank bound a b = some m ∧
      ∀ x, ascent.AtOrAbove x m ↔ ascent.AtOrAbove x a ∧ ascent.AtOrAbove x b := by
  induction bound generalizing a b with
  | zero =>
    have same : a = b := ranking.inj (sound.reached left) (sound.reached right) (by omega)
    exact ⟨a, by simp [meetWithin, same], fun x => by simp [same]⟩
  | succ bound ih =>
    by_cases same : a = b
    · exact ⟨a, by simp [meetWithin, same], fun x => by simp [same]⟩
    have step {high low : NodeId} (lowPlaced : ascent.Placed low) (highPlaced : ascent.Placed high)
        (lower : rank high < rank low) : ∃ up, ascent.above? low = some up ∧
          rank up < rank low ∧ ascent.Placed up ∧
          ∀ x, ascent.AtOrAbove x up ∧ ascent.AtOrAbove x high ↔
            ascent.AtOrAbove x low ∧ ascent.AtOrAbove x high := by
      obtain ⟨up, link⟩ := placed_iff.mp lowPlaced
      have notRoot : low ≠ root := by
        rintro rfl
        exact Nat.not_le.mpr lower (ranking.root_le (sound.reached highPlaced))
      refine ⟨up, link, sound.lower link notRoot, sound.placed link, fun x => ?_⟩
      refine and_congr_left fun above => ⟨fun up => up.trans (.of_above link), fun below => ?_⟩
      have different : x ≠ low := by
        rintro rfl
        exact Nat.not_le.mpr lower (sound.rank_le above)
      obtain ⟨next, found, rest⟩ := below.of_ne different
      obtain rfl := Option.some.inj (link.symm.trans found)
      exact rest
    by_cases lower : rank b < rank a
    · obtain ⟨up, link, less, placed, same⟩ := step left right lower
      obtain ⟨m, met, meets⟩ := ih placed right (by omega)
      exact ⟨m, by simp [meetWithin, ‹a ≠ b›, lower, link, met], fun x => (meets x).trans (same x)⟩
    · have unequal : rank a ≠ rank b := fun equal =>
        same (ranking.inj (sound.reached left) (sound.reached right) equal)
      obtain ⟨up, link, less, placed, same⟩ := step right left (by omega)
      obtain ⟨m, met, meets⟩ := ih left placed (by omega)
      refine ⟨m, by simp [meetWithin, ‹a ≠ b›, lower, link, met], fun x => ?_⟩
      rw [meets x, and_comm, same x, and_comm]

private theorem isNearest_nearer {ids : List NodeId} {nearest : Option NodeId}
    (found : ascent.IsNearest ids nearest) (id : NodeId) :
    ascent.IsNearest (ids ++ [id]) (ascent.nearer? rank nearest id) := by
  by_cases here : ascent.Placed id
  · obtain ⟨up, link⟩ := placed_iff.mp here
    cases nearest with
    | none =>
      have single : ascent.nearer? rank none id = some id := by simp [nearer?, link]
      rw [single]
      refine ⟨here, fun x => ⟨fun above p member placed => ?_, fun all => all id (by simp) here⟩⟩
      rcases List.mem_append.mp member with member | last
      · exact absurd placed (found p member)
      · obtain rfl := List.mem_singleton.mp last
        exact above
    | some other =>
      obtain ⟨placed, nearest⟩ := found
      obtain ⟨m, met, meets⟩ := meetWithin_eq_some ranking sound here placed (Nat.le_refl _)
      have next : ascent.nearer? rank (some other) id = some m := by simp [nearer?, link, met]
      rw [next]
      refine ⟨sound.placed_above ((meets m).mp (.refl m)).1 here, fun x => ?_⟩
      rw [meets x, nearest x, List.forall_mem_append, and_comm]
      simp [here]
  · have unplaced : ascent.above? id = none := by simpa [Placed] using here
    have same : ascent.nearer? rank nearest id = nearest := by simp [nearer?, unplaced]
    rw [same]
    cases nearest with
    | none =>
      refine List.forall_mem_append.mpr ⟨found, ?_⟩
      simpa using here
    | some m =>
      refine ⟨found.1, fun x => ?_⟩
      rw [found.2 x, List.forall_mem_append]
      simp [here]

theorem isNearest_nearest? (ids : List NodeId) :
    ascent.IsNearest ids (ascent.nearest? rank ids) := by
  suffices general : ∀ seen nearest, ascent.IsNearest seen nearest →
      ascent.IsNearest (seen ++ ids) (ids.foldl (ascent.nearer? rank) nearest) by
    exact general [] none (by simp [IsNearest])
  induction ids with
  | nil =>
    intro seen nearest found
    simpa using found
  | cons id ids ih =>
    intro seen nearest found
    have rest := ih _ _ (isNearest_nearer ranking sound found id)
    rwa [List.append_assoc, List.singleton_append] at rest

end

/-! ## Refining -/

/-- A table differs from another one at most in that a node is linked to the nearest node above
those of its predecessors that have a place. -/
structure Refined (g : FlowGraph) (ascent next : Ascent) (id up : NodeId) : Prop where
  link : next.above? id = some up
  others : ∀ n, n ≠ id → next.above? n = ascent.above? n
  placed : ascent.Placed up
  nearest : ∀ x, ascent.AtOrAbove x up ↔
    ∀ p, g.Step p id → ascent.Placed p → ascent.AtOrAbove x p

section

variable {g : FlowGraph} {root : NodeId} {rank : NodeId → Nat} {id up : NodeId}

/-- Refining links a node to the nearest node above its predecessors, and does nothing if it is
linked to that already. -/
theorem refined_refine (ranking : g.Ranking root rank) (sound : ascent.Sound g root rank)
    (some : ∃ p, g.Step p id ∧ ascent.Placed p) :
    ∃ up, Refined g ascent (refine g rank ascent id) id up ∧
      (ascent.above? id = Option.some up → refine g rank ascent id = ascent) := by
  have mem {p : NodeId} : p ∈ g.preds id ↔ g.Step p id := FlowGraph.mem_preds_iff_mem_succs
  have searched := isNearest_nearest? ranking sound (g.preds id)
  cases found : ascent.nearest? rank (g.preds id) with
  | none =>
    rw [found] at searched
    obtain ⟨p, edge, placed⟩ := some
    exact absurd placed (searched p (mem.mpr edge))
  | some up =>
    rw [found] at searched
    have nearest : ∀ x, ascent.AtOrAbove x up ↔
        ∀ p, g.Step p id → ascent.Placed p → ascent.AtOrAbove x p := fun x => by
      rw [searched.2 x]
      exact forall_congr' fun p => by rw [mem]
    by_cases same : ascent.above? id = Option.some up
    · have kept : refine g rank ascent id = ascent := by simp [refine, found, same]
      rw [kept]
      exact ⟨up, ⟨same, fun _ _ => rfl, searched.1, nearest⟩, fun _ => rfl⟩
    · have put : refine g rank ascent id = ascent.put id up := by simp [refine, found, same]
      rw [put]
      exact ⟨up, ⟨by simp [above?_put], fun n different => by simp [above?_put, different],
        searched.1, nearest⟩, fun linked => absurd linked same⟩

namespace Refined

variable {next : Ascent} (refined : Refined g ascent next id up)
include refined

theorem placed_of_placed {n : NodeId} (placed : ascent.Placed n) : next.Placed n := by
  by_cases same : n = id
  · exact placed_iff.mpr ⟨up, same ▸ refined.link⟩
  · rwa [Placed, refined.others n same]

theorem placed_self : next.Placed id := placed_iff.mpr ⟨up, refined.link⟩

variable (sound : ascent.Sound g root rank)
  (early : ∃ p, g.Step p id ∧ ascent.Placed p ∧ rank p < rank id)
include sound early

theorem rank_lt : rank up < rank id := by
  obtain ⟨p, edge, placed, lower⟩ := early
  have above := (refined.nearest up).mp (.refl up) p edge placed
  exact Nat.lt_of_le_of_lt (sound.rank_le above) lower

theorem not_above_up : ¬ascent.AtOrAbove id up := fun above =>
  Nat.not_le.mpr (refined.rank_lt sound early) (sound.rank_le above)

/-- What is above the new place is the same in both tables. -/
theorem above_up {x : NodeId} : next.AtOrAbove x up ↔ ascent.AtOrAbove x up := by
  have circular := refined.not_above_up sound early
  constructor
  · intro above
    exact (above.transfer refined.others).resolve_right fun both => circular both.2
  · intro above
    refine (above.transfer fun n other => (refined.others n other).symm).resolve_right ?_
    exact fun both => circular (both.2.transfer_self refined.others)

/-- Linked to the nearest node, a node has its dominators above it. -/
theorem dominator_above {a : NodeId} (dominates : g.Dominates root a id) :
    next.AtOrAbove a id := by
  by_cases same : a = id
  · exact same ▸ .refl a
  · refine .trans ((refined.above_up sound early).mpr ((refined.nearest a).mpr ?_))
      (.of_above refined.link)
    exact fun p edge placed =>
      sound.dominators placed (dominates.of_step same (sound.reached placed) edge)

/-- Refining keeps a table sound. -/
theorem sound_next (reached : g.Reaches root id) (notRoot : id ≠ root) : next.Sound g root rank where
  rootLink := by rw [refined.others root (Ne.symm notRoot), sound.rootLink]
  reached {n} placed := by
    by_cases same : n = id
    · exact same ▸ reached
    · exact sound.reached (by rwa [Placed, refined.others n same] at placed)
  lower {n above} link other := by
    by_cases same : n = id
    · subst same
      obtain rfl := Option.some.inj (refined.link.symm.trans link)
      exact refined.rank_lt sound early
    · exact sound.lower (by rwa [refined.others n same] at link) other
  climbs {n above} link := by
    by_cases same : n = id
    · subst same
      obtain rfl := Option.some.inj (refined.link.symm.trans link)
      obtain ⟨p, edge, placed, lower⟩ := early
      have above := (refined.nearest up).mp (.refl up) p edge placed
      exact (sound.climbs_of_atOrAbove above).tail ⟨edge, lower⟩
    · exact sound.climbs (by rwa [refined.others n same] at link)
  placed {n above} link := by
    by_cases same : n = id
    · subst same
      obtain rfl := Option.some.inj (refined.link.symm.trans link)
      exact refined.placed_of_placed refined.placed
    · exact refined.placed_of_placed (sound.placed (by rwa [refined.others n same] at link))
  dominators {a b} placed dominates := by
    by_cases same : b = id
    · exact same ▸ refined.dominator_above sound early (same ▸ dominates)
    · have before : ascent.Placed b := by rwa [Placed, refined.others b same] at placed
      have agree : ∀ n, n ≠ id → ascent.above? n = next.above? n :=
        fun n other => (refined.others n other).symm
      rcases (sound.dominators before dominates).transfer agree with above | ⟨above, below⟩
      · exact above
      -- The node stands between the two, and its dominators are above it again.
      by_cases equal : a = id
      · exact equal ▸ below
      · have climbs := sound.climbs_of_atOrAbove (below.transfer_self refined.others)
        have lower := sound.rank_lt above equal
        exact .trans (refined.dominator_above sound early
          (climbs.dominates_start reached dominates lower)) below

end Refined

end

end ControlFlow.Ascent
