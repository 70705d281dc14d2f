import ControlFlow.Proofs.Hammock.Executions

/-! What a match promises to those who merge it. Control comes into the blocks of a match at one of
them only, which dominates the others, and goes out at one only; among themselves they have the steps
that the kind of the region names, and at most one more, from the exit back to the entry. So a merge
never finds two edges where it can keep one. -/
namespace ControlFlow

namespace Region

/-- The blocks of a region, one for each role. -/
def blocks (region : Region) : List String := region.cast.map Prod.snd

/-- The steps between blocks that a region stands for. -/
def explained : Region → List (String × String)
  | seq entry exit => [(entry, exit)]
  | preLoop cond body exit => [(cond, body), (body, cond), (cond, exit)]
  | postLoop cond exit => [(cond, cond), (cond, exit)]
  | ifThen cond body exit => [(cond, body), (cond, exit), (body, exit)]
  | ifReturn cond body exit => [(cond, body), (cond, exit)]
  | ifElse cond bodyTrue bodyFalse exit =>
    [(cond, bodyTrue), (cond, bodyFalse), (bodyTrue, exit), (bodyFalse, exit)]
  | loop .. | switch .. | shortCircuit .. => []

/-- A live node plays a role in a region. -/
def Casts (region : Region) (g : FlowGraph) (n : NodeId) : Prop :=
  n ∈ g.nodeIds ∧ g.label n ∈ region.blocks

end Region

namespace Hammock

/-- A region of a graph with one way in, at the node that is its entry, and one way out. -/
structure Enclosed (g : FlowGraph) (start entry : NodeId) (region : Region) : Prop where
  entryLabel : region.entry = g.label entry
  rolesDistinct : region.blocks.Nodup
  rolesDominated : ∀ label ∈ region.blocks,
    ∃ n, g.find? label = some n ∧ g.Dominates start entry n
  entering : ∀ a b, g.Step a b → ¬region.Casts g a → region.Casts g b → b = entry
  leaving : ∀ a b, g.Step a b → region.Casts g a → ¬region.Casts g b →
    region.exit? = some (g.label a)
  explained : ∀ source target, (source, target) ∈ region.explained →
    ∃ a b, g.find? source = some a ∧ g.find? target = some b ∧ g.Step a b
  /-- Every other step inside leads from the exit back to the entry. -/
  within : ∀ a b, g.Step a b → region.Casts g a → region.Casts g b →
    (g.label a, g.label b) ∈ region.explained ∨
      region.exit? = some (g.label a) ∧ b = entry ∧ region.kind ≠ .ifReturn
  entersOnce : ∀ p a b, ¬region.Casts g p → region.Casts g a → region.Casts g b →
    g.Step p a → g.Step p b → a = b
  leavesOnce : ∀ q a b, ¬region.Casts g q → region.Casts g a → region.Casts g b →
    g.Step a q → g.Step b q → a = b
  loopsOnce : ∀ a b, region.Casts g a → region.Casts g b → g.Step a entry → g.Step b entry →
    g.loopEdge? region ≠ some (a, entry) → g.loopEdge? region ≠ some (b, entry) → a = b

section

variable {g : FlowGraph} {region : Region} {layout : Layout} {a b n : NodeId}

namespace Shaped

variable (shaped : Shaped g region layout)
include shaped

theorem blocks_eq : region.blocks = layout.members.map g.label := by
  cases shaped <;> rfl

theorem explained_eq :
    region.explained = layout.inner.map fun (a, b) => (g.label a, g.label b) := by
  cases shaped <;> rfl

/-- Control leaves the head for another block, so the head is live. -/
theorem head_live (wf : g.WellFormed) : layout.head ∈ g.nodeIds := by
  obtain ⟨b, inside, other, -⟩ := shaped.exists_single_pred
  rcases shaped.exists_way inside other with edge | ⟨m, -, edge, -⟩
  · exact wf.source_live edge
  · exact wf.source_live edge

theorem casts_iff (wf : g.WellFormed) (live : ∀ id ∈ layout.members, id ∈ g.nodeIds) :
    region.Casts g n ↔ n ∈ layout.members := by
  rw [Region.Casts, shaped.blocks_eq]
  constructor
  · rintro ⟨there, named⟩
    obtain ⟨m, member, same⟩ := List.mem_map.mp named
    exact wf.label_inj (live m member) there same ▸ member
  · intro member
    exact ⟨live n member, List.mem_map_of_mem member⟩

theorem inner_mem (inner : (a, b) ∈ layout.inner) : a ∈ layout.members ∧ b ∈ layout.members := by
  cases shaped <;> grind

theorem exit_ne_head : layout.exit ≠ layout.head := by
  cases shaped <;> grind

/-- Live blocks have different labels, so that a step is explained by the labels of its ends. -/
theorem explained_iff (wf : g.WellFormed) (live : ∀ id ∈ layout.members, id ∈ g.nodeIds)
    (left : a ∈ layout.members) (right : b ∈ layout.members) :
    (g.label a, g.label b) ∈ region.explained ↔ (a, b) ∈ layout.inner := by
  rw [shaped.explained_eq, List.mem_map]
  constructor
  · rintro ⟨⟨c, d⟩, inner, same⟩
    obtain ⟨sameLeft, sameRight⟩ := Prod.mk.inj same
    obtain ⟨inC, inD⟩ := shaped.inner_mem inner
    rwa [← wf.label_inj (live c inC) (live a left) sameLeft,
      ← wf.label_inj (live d inD) (live b right) sameRight]
  · intro inner
    exact ⟨(a, b), inner, rfl⟩

end Shaped

/-- What is laid out around a node that the start reaches is enclosed by the graph around it. -/
theorem Matched.enclosed {start : NodeId} (wf : g.WellFormed) (entered : g.entry? = some start)
    (fits : Matched g (g.dominatorsFrom start) region layout)
    (reached : g.Reaches start layout.head)
    (noReturn : region.kind = .ifReturn → ¬g.Step layout.exit layout.head) :
    Enclosed g start layout.head region := by
  have shaped := fits.shaped
  have startLive := FlowGraph.entry_live entered
  have live := (fits.live wf entered (shaped.head_live wf)).1
  have casts {n : NodeId} := shaped.casts_iff (n := n) wf live
  have labels : Set.InjOn g.label {n | n ∈ layout.members} := fun a left b right =>
    wf.label_inj (live a left) (live b right)
  exact {
    entryLabel := shaped.entry_eq
    rolesDistinct := by
      rw [shaped.blocks_eq]
      exact shaped.nodup.map_on labels
    rolesDominated := by
      intro label role
      rw [shaped.blocks_eq] at role
      obtain ⟨n, member, rfl⟩ := List.mem_map.mp role
      refine ⟨n, wf.find?_label (live n member), ?_⟩
      rcases fits.dominated n member with rfl | dominates
      · exact .refl reached
      · exact ((FlowGraph.exact_dominatorsFrom wf startLive).dominates_iff _ _).mp dominates
    entering := by
      intro a b edge outside inside
      exact shaped.entering edge (mt casts.mpr outside) (casts.mp inside)
    leaving := by
      intro a b edge inside outside
      rw [shaped.exit?_eq, shaped.leaving edge (casts.mp inside) (mt casts.mpr outside)]
    explained := by
      intro source target explained
      rw [shaped.explained_eq] at explained
      obtain ⟨⟨a, b⟩, inner, same⟩ := List.mem_map.mp explained
      obtain ⟨rfl, rfl⟩ := Prod.mk.inj same
      obtain ⟨inA, inB⟩ := shaped.inner_mem inner
      exact ⟨a, b, wf.find?_label (live a inA), wf.find?_label (live b inB),
        (shaped.inner_step inner).1⟩
    within := by
      intro a b edge left right
      rcases shaped.within edge (casts.mp left) (casts.mp right) with inner | ⟨rfl, rfl⟩
      · exact .inl ((shaped.explained_iff wf live (casts.mp left) (casts.mp right)).mpr inner)
      · exact .inr ⟨shaped.exit?_eq, rfl, fun returns => noReturn returns edge⟩
    entersOnce := by
      intro p a b outside left right first second
      rw [shaped.entering first (mt casts.mpr outside) (casts.mp left),
        shaped.entering second (mt casts.mpr outside) (casts.mp right)]
    leavesOnce := by
      intro q a b outside left right first second
      rw [shaped.leaving first (casts.mp left) (mt casts.mpr outside),
        shaped.leaving second (casts.mp right) (mt casts.mpr outside)]
    loopsOnce := by
      have unexplained {n : NodeId} (inside : region.Casts g n) (edge : g.Step n layout.head)
          (other : g.loopEdge? region ≠ some (n, layout.head)) : n = layout.exit := by
        rcases shaped.within edge (casts.mp inside) shaped.head_mem with inner | ⟨same, -⟩
        · exact absurd ((shaped.loopEdge_iff wf live).mpr inner) other
        · exact same
      intro a b left right first second otherFirst otherSecond
      rw [unexplained left first otherFirst, unexplained right second otherSecond] }

/-- The test of a body from which nothing follows is left for good. -/
theorem not_dominates_of_ifReturn {dom : DominatorTree} {cond p : NodeId}
    (found : ifReturn? g dom cond = some region) (edge : g.Step p cond) :
    dom.dominates cond p = false := by
  unfold ifReturn? at found
  split at found
  · cases found
  · next none =>
    rw [← Bool.not_eq_true]
    intro dominates
    exact none (List.any_eq_true.mpr ⟨p, FlowGraph.mem_preds_iff_mem_succs.mpr edge, dominates⟩)

/-- Whatever a shape finds in a valid graph is a region of its kind around the node, with one way in
and one way out and no step that the kind does not explain but the one from the exit back. -/
theorem shape_enclosed {kind : RegionKind} {shape : Shape} {dom : DominatorTree}
    (wf : g.WellFormed) (valid : g.validate = .ok ()) (listed : (kind, shape) ∈ shapes)
    (computed : g.dominators = .ok dom) (found : shape g dom n = some region) :
    ∃ start, g.entry? = some start ∧ region.kind = kind ∧ Enclosed g start n region := by
  obtain ⟨start, entered, all⟩ := (FlowGraph.validate_eq_ok_iff wf).mp valid
  obtain rfl := Except.ok.inj ((FlowGraph.dominators_eq_ok entered).symm.trans computed)
  obtain ⟨layout, rfl, same, fits⟩ := matched_of_shape listed found
  refine ⟨start, entered, same, fits.enclosed wf entered (all _ (fits.shaped.head_live wf)) ?_⟩
  intro returns edge
  -- Of the six shapes, only that of a return is listed under this kind.
  obtain rfl : shape = ifReturn? := by
    rw [← same, returns] at listed
    simpa [shapes] using listed
  rcases fits.dominated _ fits.shaped.exit_mem with atHead | dominates
  · exact fits.shaped.exit_ne_head atHead
  · rw [not_dominates_of_ifReturn found edge] at dominates
    cases dominates

theorem repeating_loop_enclosed : repeating.WellFormed ∧ repeating.validate = .ok () ∧
    (RegionKind.preLoop, preLoop?) ∈ shapes ∧ ∃ dom, repeating.dominators = .ok dom ∧
      preLoop? repeating dom 1 = some (.preLoop "B" "C" "D") ∧
      ∃ start, repeating.entry? = some start ∧ (Region.preLoop "B" "C" "D").kind = .preLoop ∧
        Enclosed repeating start 1 (.preLoop "B" "C" "D") := by
  have wf : repeating.WellFormed := by decide
  have valid : repeating.validate = .ok () := by rfl
  have listed : (RegionKind.preLoop, preLoop?) ∈ shapes := by simp [shapes]
  have computed : repeating.dominators = .ok (repeating.dominatorsFrom 0) := by rfl
  have found : preLoop? repeating (repeating.dominatorsFrom 0) 1 = some (.preLoop "B" "C" "D") := by
    rfl
  exact ⟨wf, valid, listed, _, computed, found, shape_enclosed wf valid listed computed found⟩

end

end Hammock

end ControlFlow
