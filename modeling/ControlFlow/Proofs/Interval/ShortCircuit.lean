import ControlFlow.Interval.ShortCircuit
import ControlFlow.Proofs.Except
import ControlFlow.Proofs.Graph.Annotations
import ControlFlow.Proofs.Graph.Numbering

/-! Joining tests changes no decision. A two-way block that is left over tests its compound
condition and goes where the tests of the original graph lead, one after the other, through the
blocks that were taken away. A run numbers the graph and then either has come to its end or makes one
contraction, which takes a block out; what both keep, the run keeps. The invariant relates the graph
at hand to the original one, and every contraction, of any of the four shapes, keeps it. -/
namespace ControlFlow

/-- The value of a condition, given the value of each block's own test. -/
def Condition.eval (truth : String → Bool) : Condition → Bool
  | leaf label => truth label
  | not inner => !inner.eval truth
  | and left right => left.eval truth && right.eval truth
  | or left right => left.eval truth || right.eval truth

namespace ShortCircuit

/-- What leaves a block is one edge for a true test and one for a false one, with these targets. -/
def Sides (g : FlowGraph) (id onTrue onFalse : NodeId) : Prop :=
  ∃ e f : Edge, (g.outEdges id).Perm [e, f] ∧
    (e.branch = .whenTrue ∧ e.target = onTrue) ∧ f.branch = .whenFalse ∧ f.target = onFalse

/-- Where a two-way block goes when its test has the value. -/
def Selects (g : FlowGraph) (value : Bool) (a b : NodeId) : Prop :=
  ∃ onTrue onFalse, Sides g a onTrue onFalse ∧ b = if value then onTrue else onFalse

/-- Each block going where its own test selects, the first block that stays is reached. -/
inductive Leads (g : FlowGraph) (truth : String → Bool) (stays : NodeId → Prop) :
    NodeId → NodeId → Prop where
  | stop (edge : Selects g (truth (g.label a)) a b) (present : stays b) : Leads g truth stays a b
  | on (edge : Selects g (truth (g.label a)) a b) (removed : ¬stays b)
    (rest : Leads g truth stays b c) : Leads g truth stays a c

variable {g h : FlowGraph} {id onTrue onFalse a b c : NodeId} {truth : String → Bool}

namespace Sides

theorem succs (sides : Sides g id onTrue onFalse) : (g.succs id).Perm [onTrue, onFalse] := by
  obtain ⟨e, f, perm, ⟨-, rfl⟩, -, rfl⟩ := sides
  exact perm.map Edge.target

theorem mem_succs (sides : Sides g id onTrue onFalse) {b : NodeId} :
    b ∈ g.succs id ↔ b = onTrue ∨ b = onFalse := by
  rw [sides.succs.mem_iff, List.mem_cons, List.mem_singleton]

theorem ne (wf : g.WellFormed) (sides : Sides g id onTrue onFalse) : onTrue ≠ onFalse := by
  have nodup := sides.succs.nodup_iff.mp (wf.succs_nodup id)
  simpa using nodup

theorem unique (left : Sides g id onTrue onFalse) (right : Sides g id onTrue' onFalse') :
    onTrue = onTrue' ∧ onFalse = onFalse' := by
  obtain ⟨e, f, perm, ⟨eTrue, rfl⟩, fFalse, rfl⟩ := left
  obtain ⟨e', f', perm', ⟨eTrue', rfl⟩, fFalse', rfl⟩ := right
  have same := perm.symm.trans perm'
  have first : e ∈ [e', f'] := same.subset (by simp)
  have second : f ∈ [e', f'] := same.subset (by simp)
  constructor
  · rcases List.mem_pair.mp first with rfl | rfl
    · rfl
    · simp [eTrue] at fFalse'
  · rcases List.mem_pair.mp second with rfl | rfl
    · simp [fFalse] at eTrue'
    · rfl

theorem of_outEdges (same : h.outEdges id = g.outEdges id) :
    Sides h id onTrue onFalse ↔ Sides g id onTrue onFalse := by
  rw [Sides, same, Sides]

theorem of_sides? (found : sides? g id = some (onTrue, onFalse)) :
    Sides g id onTrue onFalse := by
  unfold sides? at found
  split at found
  · next first second listed =>
    split at found
    · next tests =>
      simp only [Bool.and_eq_true, beq_iff_eq] at tests
      simp only [Option.some.injEq, Prod.mk.injEq] at found
      exact ⟨first, second, .of_eq listed, ⟨tests.1, found.1⟩, tests.2, found.2⟩
    · cases found
  · cases found

end Sides

theorem Selects.live (wf : g.WellFormed) (selected : Selects g value a b) : b ∈ g.nodeIds := by
  obtain ⟨onTrue, onFalse, sides, rfl⟩ := selected
  refine wf.target_live (sides.mem_succs.mpr ?_)
  cases value <;> simp

theorem Selects.unique (left : Selects g value a b) (right : Selects g value a c) : b = c := by
  obtain ⟨onTrue, onFalse, sides, rfl⟩ := left
  obtain ⟨onTrue', onFalse', sides', rfl⟩ := right
  obtain ⟨rfl, rfl⟩ := sides.unique sides'
  rfl

namespace Leads

theorem unique (left : Leads g truth stays a b) (right : Leads g truth stays a c) : b = c := by
  induction left with
  | stop edge present =>
    cases right with
    | stop edge' _ => exact edge.unique edge'
    | on edge' removed' _ => exact absurd (edge.unique edge' ▸ present) removed'
  | on edge removed _ ih =>
    cases right with
    | stop edge' present' => exact absurd (edge'.unique edge ▸ present') removed
    | on edge' _ rest' => exact ih (edge'.unique edge ▸ rest')

variable {fewer stays : NodeId → Prop}

/-- Where fewer blocks stay, control gets to the same block if that does. -/
theorem mono (subset : ∀ n, fewer n → stays n) (leads : Leads g truth stays a b)
    (present : fewer b) : Leads g truth fewer a b := by
  induction leads with
  | stop edge _ => exact .stop edge present
  | on edge removed _ ih => exact .on edge (fun stay => removed (subset _ stay)) (ih present)

/-- Where fewer blocks stay, control goes on from a block that does not. -/
theorem through (subset : ∀ n, fewer n → stays n) (leads : Leads g truth stays a b)
    (removed : ¬fewer b) (rest : Leads g truth fewer b c) : Leads g truth fewer a c := by
  induction leads with
  | stop edge _ => exact .on edge removed rest
  | on edge gone _ ih => exact .on edge (fun stay => gone (subset _ stay)) (ih removed rest)

end Leads

/-! ## One contraction -/

/-- The two tests of a contraction, by its shape. -/
inductive Shape (g : FlowGraph) : Contraction → Prop where
  | and (outer : Sides g o i f) (inner : Sides g i t f) : Shape g ⟨.and, o, i, t, t, f⟩
  | andNot (outer : Sides g o i f) (inner : Sides g i f t) : Shape g ⟨.andNot, o, i, t, t, f⟩
  | or (outer : Sides g o t i) (inner : Sides g i t f) : Shape g ⟨.or, o, i, f, t, f⟩
  | orNot (outer : Sides g o t i) (inner : Sides g i f t) : Shape g ⟨.orNot, o, i, f, t, f⟩

/-- What a contraction relies on: the shape of its tests, and that control comes to the inner block
from the outer one only. -/
structure Fits (g : FlowGraph) (c : Contraction) : Prop where
  shape : Shape g c
  different : c.inner ≠ c.outer
  notEntry : g.entry? ≠ some c.inner
  alone : ∀ n, c.inner ∈ g.succs n → n = c.outer

private theorem fits_of_isInner {c : Contraction} (shape : Shape g c)
    (inner : isInner g c.outer c.inner = true) (edge : c.inner ∈ g.succs c.outer) : Fits g c := by
  simp only [isInner, Bool.and_eq_true, bne_iff_ne, ne_eq, beq_iff_eq] at inner
  obtain ⟨⟨⟨⟨different, notEntry⟩, single⟩, -⟩, -⟩ := inner
  refine ⟨shape, different, notEntry, fun n other => ?_⟩
  obtain ⟨source, listed⟩ := List.length_eq_one_iff.mp single
  have only {n : NodeId} (edge : c.inner ∈ g.succs n) : n = source := by
    rw [← FlowGraph.mem_preds_iff_mem_succs, listed] at edge
    exact List.mem_singleton.mp edge
  rw [only other, only edge]

private theorem fits_of_contractTrue {o t f : NodeId} {c : Contraction} (sides : Sides g o t f)
    (found : contractTrue? g o t f = some c) : Fits g c := by
  unfold contractTrue? at found
  split at found
  · next inner =>
    split at found
    · next innerTrue innerFalse innerSides =>
      have inside := Sides.of_sides? innerSides
      have edge : t ∈ g.succs o := sides.mem_succs.mpr (.inl rfl)
      split at found
      · next same =>
        obtain rfl := beq_iff_eq.mp same
        obtain rfl := Option.some.inj found
        exact fits_of_isInner (.andNot sides inside) inner edge
      · split at found
        · next same =>
          obtain rfl := beq_iff_eq.mp same
          obtain rfl := Option.some.inj found
          exact fits_of_isInner (.and sides inside) inner edge
        · cases found
    · cases found
  · cases found

private theorem fits_of_contractFalse {o t f : NodeId} {c : Contraction} (sides : Sides g o t f)
    (found : contractFalse? g o t f = some c) : Fits g c := by
  unfold contractFalse? at found
  split at found
  · next inner =>
    split at found
    · next innerTrue innerFalse innerSides =>
      have inside := Sides.of_sides? innerSides
      have edge : f ∈ g.succs o := sides.mem_succs.mpr (.inr rfl)
      split at found
      · next same =>
        obtain rfl := beq_iff_eq.mp same
        obtain rfl := Option.some.inj found
        exact fits_of_isInner (.or sides inside) inner edge
      · split at found
        · next same =>
          obtain rfl := beq_iff_eq.mp same
          obtain rfl := Option.some.inj found
          exact fits_of_isInner (.orNot sides inside) inner edge
        · cases found
    · cases found
  · cases found

/-- Every contraction that is found fits. -/
theorem fits_of_contraction {o : NodeId} {c : Contraction} (found : contraction? g o = some c) :
    Fits g c := by
  unfold contraction? at found
  split at found
  · next onTrue onFalse listed =>
    have sides := Sides.of_sides? listed
    rcases Option.or_eq_some_iff.mp found with found | ⟨-, found⟩
    · exact fits_of_contractTrue sides found
    · exact fits_of_contractFalse sides found
  · cases found

/-- The attributes that the new edge of a contraction takes over. -/
def Contraction.attrs (g : FlowGraph) (c : Contraction) : AttrMap :=
  ((g.edge? c.outer c.inner).map Edge.attrs).getD .empty

/-- The graph after a contraction. -/
def joined (g : FlowGraph) (c : Contraction) : FlowGraph :=
  ((g.removeNode c.inner).insertEdge ⟨c.outer, c.target, c.attrs g⟩).annotate c.outer fun notes =>
    { notes with compound := some (join c.junction (condition g c.outer) (condition g c.inner)) }

section

variable {c : Contraction} {n : NodeId} (wf : g.WellFormed) (fits : Fits g c)
include wf fits

namespace Fits

/-- Besides the inner block the outer one leads to one of the inner block's two targets, the new
edge to the other. -/
theorem targets : ∃ kept, (∀ b, b ∈ g.succs c.outer ↔ b = c.inner ∨ b = kept) ∧
    c.target ∈ g.succs c.inner ∧ c.target ≠ kept := by
  obtain ⟨shape, -, -, -⟩ := fits
  cases shape with
  | @and o i f t outer inner =>
    exact ⟨f, fun b => outer.mem_succs, inner.mem_succs.mpr (.inl rfl), inner.ne wf⟩
  | @andNot o i f t outer inner =>
    exact ⟨f, fun b => outer.mem_succs, inner.mem_succs.mpr (.inr rfl), (inner.ne wf).symm⟩
  | @or o t i f outer inner =>
    exact ⟨t, fun b => outer.mem_succs.trans or_comm, inner.mem_succs.mpr (.inr rfl),
      (inner.ne wf).symm⟩
  | @orNot o t i f outer inner =>
    exact ⟨t, fun b => outer.mem_succs.trans or_comm, inner.mem_succs.mpr (.inl rfl), inner.ne wf⟩

theorem edge : c.inner ∈ g.succs c.outer := by
  obtain ⟨kept, outer, -, -⟩ := fits.targets wf
  exact (outer c.inner).mpr (.inl rfl)

theorem target_ne_inner : c.target ≠ c.inner := by
  obtain ⟨kept, -, target, -⟩ := fits.targets wf
  exact fun same => fits.different (fits.alone c.inner (same ▸ target))

theorem outer_stays : c.outer ∈ (g.removeNode c.inner).nodeIds :=
  FlowGraph.mem_removeNode_nodeIds.mpr ⟨wf.source_live (fits.edge wf), fits.different.symm⟩

theorem target_stays : c.target ∈ (g.removeNode c.inner).nodeIds := by
  obtain ⟨kept, -, target, -⟩ := fits.targets wf
  exact FlowGraph.mem_removeNode_nodeIds.mpr ⟨wf.target_live target, fits.target_ne_inner wf⟩

theorem target_free : c.target ∉ (g.removeNode c.inner).succs c.outer := by
  obtain ⟨kept, outer, -, different⟩ := fits.targets wf
  intro taken
  rcases (outer _).mp (FlowGraph.mem_removeNode_succs.mp taken).1 with same | same
  · exact fits.target_ne_inner wf same
  · exact different same

end Fits

/-- A contraction that fits can be carried out. -/
theorem contract_eq_ok : contract g c = .ok (joined g c) := by
  have added : (g.removeNode c.inner).addEdge c.outer c.target (c.attrs g) = .ok _ :=
    FlowGraph.addEdge_eq_ok_iff.mpr
      ⟨fits.outer_stays wf, fits.target_stays wf, fits.target_free wf, rfl⟩
  unfold Contraction.attrs at added
  simp only [contract, added]
  rfl

theorem wellFormed_joined : (joined g c).WellFormed :=
  ((wf.removeNode c.inner).insertEdge (fits.outer_stays wf) (fits.target_stays wf)
    (fits.target_free wf)).of_sameCore (FlowGraph.sameCore_annotate _ _)

omit wf fits in
theorem mem_joined_nodeIds : n ∈ (joined g c).nodeIds ↔ n ∈ g.nodeIds ∧ n ≠ c.inner := by
  rw [joined, (FlowGraph.sameCore_annotate _ _).nodeIds]
  exact FlowGraph.mem_removeNode_nodeIds

omit wf in
theorem outEdges_joined (live : n ≠ c.inner) (other : n ≠ c.outer) :
    (joined g c).outEdges n = g.outEdges n := by
  have kept : (joined g c).outEdges n = (g.removeNode c.inner).outEdges n :=
    FlowGraph.insertEdge_outEdges_of_ne other.symm
  rw [kept, FlowGraph.removeNode_outEdges live, List.filter_eq_self]
  intro e member
  simp only [bne_iff_ne, ne_eq]
  exact fun same => other (fits.alone n (List.mem_map.mpr ⟨e, member, same⟩))

omit wf fits in
theorem label_joined (live : n ≠ c.inner) : (joined g c).label n = g.label n := by
  have same : (joined g c).label = (g.removeNode c.inner).label :=
    (FlowGraph.sameCore_annotate _ _).label
  rw [same, FlowGraph.label, FlowGraph.removeNode_node? live, FlowGraph.label]

omit wf fits in
theorem condition_joined (live : n ≠ c.inner) (other : n ≠ c.outer) :
    condition (joined g c) n = condition g n := by
  have notes : (joined g c).notes? n = g.notes? n := by
    rw [joined, FlowGraph.annotate_notes? other]
    exact congrArg (Option.map Node.notes) (FlowGraph.removeNode_node? live)
  rw [condition, condition, notes, label_joined live]

theorem condition_joined_outer : condition (joined g c) c.outer =
    join c.junction (condition g c.outer) (condition g c.inner) := by
  have notes : (g.removeNode c.inner).notes? c.outer = g.notes? c.outer :=
    congrArg (Option.map Node.notes) (FlowGraph.removeNode_node? fits.different.symm)
  have live : (g.notes? c.outer).isSome = true := by
    rw [FlowGraph.notes?, Option.isSome_map]
    exact FlowGraph.contains_iff.mpr (wf.source_live (fits.edge wf))
  obtain ⟨found, known⟩ := Option.isSome_iff_exists.mp live
  have annotated : (joined g c).notes? c.outer = some { found with
      compound := some (join c.junction (condition g c.outer) (condition g c.inner)) } := by
    rw [joined, FlowGraph.annotate_notes?_self]
    have kept : ((g.removeNode c.inner).insertEdge ⟨c.outer, c.target, c.attrs g⟩).notes? c.outer =
        some found := notes.trans known
    rw [kept, Option.map_some]
  rw [condition, annotated]
  rfl

/-- The new edge has the place among the outer block's edges that the edge to the inner block
had. -/
theorem outEdges_joined_outer {e f : Edge} (inner : e.target = c.inner) (other : f.target ≠ c.inner)
    (edges : (g.outEdges c.outer).Perm [e, f]) :
    ∃ new : Edge, new.branch = e.branch ∧ new.target = c.target ∧
      ((joined g c).outEdges c.outer).Perm [new, f] := by
  have member : e ∈ g.edges ∧ e.source = c.outer := by
    have listed : e ∈ g.outEdges c.outer := edges.mem_iff.mpr (by simp)
    simpa [FlowGraph.outEdges] using listed
  have found : g.edge? c.outer c.inner = some e :=
    wf.edge?_eq_some_iff.mpr ⟨member.1, member.2, inner⟩
  have taken : c.attrs g = e.attrs := by simp [Contraction.attrs, found]
  refine ⟨⟨c.outer, c.target, c.attrs g⟩, ?_, rfl, ?_⟩
  · simp [Edge.branch, Edge.cond, taken]
  · have rest : ((g.removeNode c.inner).outEdges c.outer).Perm [f] := by
      rw [FlowGraph.removeNode_outEdges fits.different.symm]
      simpa [inner, other] using edges.filter (·.target != c.inner)
    have all : ((joined g c).outEdges c.outer).Perm
        (⟨c.outer, c.target, c.attrs g⟩ :: (g.removeNode c.inner).outEdges c.outer) :=
      @FlowGraph.insertEdge_outEdges (g.removeNode c.inner) ⟨c.outer, c.target, c.attrs g⟩
    exact all.trans (rest.cons _)

/-- The outer block then leads to the two blocks that the contraction names. -/
theorem sides_joined : Sides (joined g c) c.outer c.bodyTrue c.bodyFalse := by
  have onTrue {t f : NodeId} (outer : Sides g c.outer t f) (inner : t = c.inner) :
      Sides (joined g c) c.outer c.target f := by
    have different := inner ▸ outer.ne wf
    obtain ⟨e, other, edges, ⟨eTrue, rfl⟩, otherFalse, rfl⟩ := outer
    obtain ⟨new, branch, target, after⟩ :=
      outEdges_joined_outer wf fits inner different.symm edges
    exact ⟨new, other, after, ⟨branch.trans eTrue, target⟩, otherFalse, rfl⟩
  have onFalse {t f : NodeId} (outer : Sides g c.outer t f) (inner : f = c.inner) :
      Sides (joined g c) c.outer t c.target := by
    have different := inner ▸ outer.ne wf
    obtain ⟨other, e, edges, ⟨otherTrue, rfl⟩, eFalse, rfl⟩ := outer
    obtain ⟨new, branch, target, after⟩ :=
      outEdges_joined_outer wf fits inner different (edges.trans (.swap _ _ _))
    exact ⟨other, new, after.trans (.swap _ _ _), ⟨otherTrue, rfl⟩, branch.trans eFalse, target⟩
  cases fits.shape with
  | and outer _ => exact onTrue outer rfl
  | andNot outer _ => exact onTrue outer rfl
  | or outer _ => exact onFalse outer rfl
  | orNot outer _ => exact onFalse outer rfl

/-- The joined test selects what the two tests select one after the other. -/
theorem selects_of_join (truth : String → Bool) {b : NodeId}
    (selected : b = if (join c.junction (condition g c.outer) (condition g c.inner)).eval truth
      then c.bodyTrue else c.bodyFalse) :
    (Selects g ((condition g c.outer).eval truth) c.outer b ∧ b ≠ c.inner) ∨
      (Selects g ((condition g c.outer).eval truth) c.outer c.inner ∧
        Selects g ((condition g c.inner).eval truth) c.inner b) := by
  subst selected
  have shape := fits.shape
  generalize (condition g c.outer) = first, (condition g c.inner) = second
  -- The first test decides alone, or leaves the decision to the second.
  cases shape with
  | and outer inner =>
    cases one : first.eval truth with
    | false =>
      refine .inl ⟨⟨_, _, outer, by simp [join, Condition.eval, one]⟩, ?_⟩
      simpa [join, Condition.eval, one] using (outer.ne wf).symm
    | true =>
      refine .inr ⟨⟨_, _, outer, rfl⟩, _, _, inner, ?_⟩
      cases two : second.eval truth <;> simp [join, Condition.eval, one, two]
  | andNot outer inner =>
    cases one : first.eval truth with
    | false =>
      refine .inl ⟨⟨_, _, outer, by simp [join, Condition.eval, one]⟩, ?_⟩
      simpa [join, Condition.eval, one] using (outer.ne wf).symm
    | true =>
      refine .inr ⟨⟨_, _, outer, rfl⟩, _, _, inner, ?_⟩
      cases two : second.eval truth <;> simp [join, Condition.eval, one, two]
  | or outer inner =>
    cases one : first.eval truth with
    | true =>
      refine .inl ⟨⟨_, _, outer, by simp [join, Condition.eval, one]⟩, ?_⟩
      simpa [join, Condition.eval, one] using outer.ne wf
    | false =>
      refine .inr ⟨⟨_, _, outer, rfl⟩, _, _, inner, ?_⟩
      cases two : second.eval truth <;> simp [join, Condition.eval, one, two]
  | orNot outer inner =>
    cases one : first.eval truth with
    | true =>
      refine .inl ⟨⟨_, _, outer, by simp [join, Condition.eval, one]⟩, ?_⟩
      simpa [join, Condition.eval, one] using outer.ne wf
    | false =>
      refine .inr ⟨⟨_, _, outer, rfl⟩, _, _, inner, ?_⟩
      cases two : second.eval truth <;> simp [join, Condition.eval, one, two]

end

/-! ## Runs -/

open FlowGraph

theorem entry_joined {c : Contraction} {entry : NodeId} (wf : g.WellFormed) (fits : Fits g c)
    (entered : g.entry? = some entry) : FlowGraph.entry? (joined g c) = some entry := by
  have different : entry ≠ c.inner := fun same => fits.notEntry (same ▸ entered)
  rw [joined, (FlowGraph.sameCore_annotate _ _).entry_eq]
  exact wf.removeNode_entry entered different

theorem size_joined_lt {c : Contraction} (wf : g.WellFormed) (fits : Fits g c) :
    (joined g c).size < g.size := by
  have annotated : (joined g c).size = (g.removeNode c.inner).size := List.length_map ..
  rw [annotated]
  exact FlowGraph.removeNode_size_lt (wf.target_live (fits.edge wf))

section

variable {bound : Nat} {entry : NodeId} {region : Region} {regions : List Region}

/-- One contraction of a run, by its record: the graph before it, once it is numbered, and the graph
after it. -/
inductive Contracts (g : FlowGraph) (entry : NodeId) : Region → FlowGraph → Prop where
  | intro {numbered : FlowGraph} {c : Contraction}
    (same : g.recordNumbers (g.numbering entry) = numbered)
    (first : (g.numbering entry).reversePostorder.findSome? (contraction? numbered) = some c) :
    Contracts g entry (c.region numbered) (joined numbered c)

namespace Contracts

variable (wf : g.WellFormed) (contracts : Contracts g entry region h)
include wf contracts

theorem fits : ∃ k c, k = g.recordNumbers (g.numbering entry) ∧ k.SameCore g ∧ k.WellFormed ∧
    Fits k c ∧ region = c.region k ∧ h = joined k c := by
  obtain ⟨rfl, first⟩ := contracts
  have same := @sameCore_recordNumbers g (g.numbering entry)
  obtain ⟨o, -, found⟩ := List.exists_of_findSome?_eq_some first
  exact ⟨_, _, rfl, same, wf.of_sameCore same, fits_of_contraction found, rfl, rfl⟩

theorem wellFormed : h.WellFormed := by
  obtain ⟨k, c, -, -, wfK, fits, -, rfl⟩ := contracts.fits wf
  exact wellFormed_joined wfK fits

theorem entered (entered : g.entry? = some entry) : h.entry? = some entry := by
  obtain ⟨k, c, -, same, wfK, fits, -, rfl⟩ := contracts.fits wf
  exact entry_joined wfK fits (same.entry_eq.trans entered)

theorem size_lt : h.size < g.size := by
  obtain ⟨k, c, rfl, -, wfK, fits, -, rfl⟩ := contracts.fits wf
  have sizes : (g.recordNumbers (g.numbering entry)).size = g.size := List.length_map ..
  exact sizes ▸ size_joined_lt wfK fits

end Contracts

/-- A run that may still contract either finds nothing to join, or makes one contraction and goes on
from there. -/
theorem contractWithin_step (wf : g.WellFormed) (entered : g.entry? = some entry) :
    (∃ numbered, numbered = g.recordNumbers (g.numbering entry) ∧
      (g.numbering entry).reversePostorder.findSome? (contraction? numbered) = none ∧
      ∀ bound, contractWithin (bound + 1) g = .ok ([], numbered)) ∨
    ∃ region next, Contracts g entry region next ∧ ∀ bound,
      contractWithin (bound + 1) g =
        (contractWithin bound next).map fun found => (region :: found.1, found.2) := by
  have same := @sameCore_recordNumbers g (g.numbering entry)
  have number := number_eq_ok entered
  generalize numbered : g.recordNumbers (g.numbering entry) = k at same number
  cases first : (g.numbering entry).reversePostorder.findSome? (contraction? k) with
  | none =>
    refine .inl ⟨k, rfl, first, fun bound => ?_⟩
    simp only [contractWithin, number, bind, Except.bind, first]
    rfl
  | some c =>
    refine .inr ⟨c.region k, joined k c, ⟨numbered, first⟩, fun bound => ?_⟩
    obtain ⟨o, -, found⟩ := List.exists_of_findSome?_eq_some first
    have contracted := contract_eq_ok (wf.of_sameCore same) (fits_of_contraction found)
    simp only [contractWithin, number, bind, Except.bind, first, contracted]
    cases contractWithin bound (joined k c) <;> rfl

/-- A run that may contract as often as there are blocks leaves a numbered graph, in which nothing
is left to join. -/
theorem contractWithin_ends (wf : g.WellFormed) (entered : g.entry? = some entry)
    (enough : g.size ≤ bound) :
    ∃ regions h, contractWithin bound g = .ok (regions, h) ∧
      h.recordNumbers (h.numbering entry) = h ∧
      (h.numbering entry).reversePostorder.findSome? (contraction? h) = none := by
  induction bound generalizing g with
  | zero => exact absurd (size_pos_of_entry entered) (Nat.not_lt.mpr enough)
  | succ bound ih =>
    rcases contractWithin_step wf entered with
      ⟨numbered, rfl, settled, still⟩ | ⟨region, next, contracts, on⟩
    · have same := @sameCore_recordNumbers g (g.numbering entry)
      have order := congrFun same.numbering entry
      refine ⟨[], _, still bound, ?_, ?_⟩
      · rw [order, recordNumbers_recordNumbers]
      · rw [order, settled]
    · have smaller := contracts.size_lt wf
      obtain ⟨regions, h, ran, ended⟩ :=
        ih (contracts.wellFormed wf) (contracts.entered wf entered) (by omega)
      exact ⟨region :: regions, h, by rw [on, ran]; rfl, ended⟩

/-- What numbering and joining two tests keep, joining all tests keeps. -/
theorem contractWithin_induct {motive : FlowGraph → Prop}
    (number : ∀ g numbering, motive g → motive (g.recordNumbers numbering))
    (join : ∀ g c, g.WellFormed → Fits g c → motive g → motive (joined g c))
    (wf : g.WellFormed) (holds : motive g)
    (ran : contractWithin bound g = .ok (regions, h)) : motive h := by
  induction bound generalizing g regions with
  | zero =>
    cases ran
    exact holds
  | succ bound ih =>
    obtain ⟨⟨numbering, k⟩, numbered, -⟩ := bind_eq_ok_iff.mp ran
    obtain ⟨entry, entered, -⟩ := number_eq_ok_iff.mp numbered
    have holdsNumbered := number g (g.numbering entry) holds
    rcases contractWithin_step wf entered with
      ⟨k, rfl, -, still⟩ | ⟨region, next, contracts, on⟩
    · cases (still bound).symm.trans ran
      exact holdsNumbered
    · obtain ⟨⟨rest, last⟩, later, same⟩ := map_eq_ok_iff.mp ((on bound).symm.trans ran)
      cases same
      have wfNext := contracts.wellFormed wf
      obtain ⟨k, c, rfl, -, wfK, fits, -, rfl⟩ := contracts.fits wf
      exact ih wfNext (join _ c wfK fits holdsNumbered) later

end

/-! ## What runs keep -/

/-- Whether the out-edges of a block are one true and one false edge. -/
def TwoWay (g : FlowGraph) (id : NodeId) : Prop := ∃ onTrue onFalse, Sides g id onTrue onFalse

/-- What contractions keep of a graph: the labels of the blocks that are left, where two-way blocks
lead, and all edges of the other blocks. -/
structure Kept (g h : FlowGraph) : Prop where
  wf : h.WellFormed
  labels : ∀ n ∈ h.nodeIds, n ∈ g.nodeIds ∧ h.label n = g.label n
  leads : ∀ truth, ∀ n ∈ h.nodeIds, ∀ b, Selects h ((condition h n).eval truth) n b →
    Leads g truth (· ∈ h.nodeIds) n b
  others : ∀ n ∈ h.nodeIds, ¬TwoWay h n → h.outEdges n = g.outEdges n

namespace Kept

theorem start (wf : g.WellFormed) (bare : ∀ n ∈ g.nodes, n.notes.compound = none) : Kept g g where
  wf := wf
  labels n live := ⟨live, rfl⟩
  leads truth n live b selected := by
    obtain ⟨m, member, rfl⟩ := FlowGraph.mem_nodeIds.mp live
    have plain : condition g m.id = .leaf (g.label m.id) := by
      have found := wf.node?_eq_some_iff.mpr ⟨member, rfl⟩
      simp [condition, FlowGraph.notes?, found, bare m member]
    rw [plain] at selected
    exact .stop selected (selected.live wf)
  others _ _ _ := rfl

/-- Numbering a graph keeps all of this. -/
theorem number (kept : Kept g h) (numbering : Numbering) : Kept g (h.recordNumbers numbering) := by
  have same := @FlowGraph.sameCore_recordNumbers h numbering
  have tested (n : NodeId) : condition (h.recordNumbers numbering) n = condition h n := by
    rw [condition, condition, same.label, FlowGraph.recordNumbers_compound]
  have edges (n : NodeId) : (h.recordNumbers numbering).outEdges n = h.outEdges n := rfl
  refine ⟨kept.wf.of_sameCore same, ?_, ?_, ?_⟩
  · rw [same.nodeIds, same.label]
    exact kept.labels
  · intro truth n live b
    rw [same.nodeIds] at live ⊢
    rw [tested]
    exact kept.leads truth n live b
  · rw [same.nodeIds]
    exact kept.others

/-- A contraction keeps it: where the outer block leads through the inner one, so do the tests of
the original graph, and no other block led to the inner one. -/
theorem contract {c : Contraction} (kept : Kept g h) (fits : Fits h c) : Kept g (joined h c) := by
  have wf := kept.wf
  have fewer (n : NodeId) (stays : n ∈ (joined h c).nodeIds) : n ∈ h.nodeIds :=
    (mem_joined_nodeIds.mp stays).1
  have outerLive := wf.source_live (fits.edge wf)
  have innerLive := wf.target_live (fits.edge wf)
  have removed : c.inner ∉ (joined h c).nodeIds := fun stays => (mem_joined_nodeIds.mp stays).2 rfl
  refine ⟨wellFormed_joined wf fits, fun n stays => ?_, fun truth n stays b selected => ?_,
    fun n stays single => ?_⟩
  · obtain ⟨live, different⟩ := mem_joined_nodeIds.mp stays
    exact ⟨(kept.labels n live).1, (label_joined different).trans (kept.labels n live).2⟩
  · obtain ⟨live, different⟩ := mem_joined_nodeIds.mp stays
    have target := selected.live (wellFormed_joined wf fits)
    by_cases outer : n = c.outer
    · subst outer
      obtain ⟨onTrue, onFalse, sides, value⟩ := selected
      obtain ⟨rfl, rfl⟩ := sides.unique (sides_joined wf fits)
      rw [condition_joined_outer wf fits] at value
      rcases selects_of_join wf fits truth value with ⟨first, -⟩ | ⟨first, second⟩
      · exact (kept.leads truth _ live b first).mono fewer target
      · exact (kept.leads truth _ live _ first).through fewer removed
          ((kept.leads truth _ innerLive b second).mono fewer target)
    · have same := outEdges_joined fits different outer
      obtain ⟨onTrue, onFalse, sides, value⟩ := selected
      rw [condition_joined different outer] at value
      exact (kept.leads truth n live b ⟨onTrue, onFalse, (Sides.of_outEdges same).mp sides, value⟩).mono
        fewer target
  · obtain ⟨live, different⟩ := mem_joined_nodeIds.mp stays
    have outer : n ≠ c.outer := by
      rintro rfl
      exact single ⟨_, _, sides_joined wf fits⟩
    rw [outEdges_joined fits different outer]
    refine kept.others n live fun twoWay => single ?_
    obtain ⟨onTrue, onFalse, sides⟩ := twoWay
    exact ⟨onTrue, onFalse, (Sides.of_outEdges (outEdges_joined fits different outer)).mpr sides⟩

end Kept

/-- A run ends with a graph that has no contraction left and keeps what contractions keep. -/
theorem contractWithin_kept {bound : Nat} {entry : NodeId} (kept : Kept g h)
    (entered : h.entry? = some entry) (enough : h.size ≤ bound) :
    ∃ regions k, contractWithin bound h = .ok (regions, k) ∧ Kept g k ∧
      k.entry? = some entry ∧
      (k.numbering entry).reversePostorder.findSome? (contraction? k) = none := by
  obtain ⟨regions, k, ran, -, settled⟩ := contractWithin_ends kept.wf entered enough
  have after : Kept g k ∧ k.entry? = some entry := by
    refine contractWithin_induct (motive := fun k => Kept g k ∧ k.entry? = some entry)
      (fun k numbering before => ?_) (fun k c wf fits before => ?_) kept.wf ⟨kept, entered⟩ ran
    · have same := @sameCore_recordNumbers k numbering
      exact ⟨before.1.number numbering, same.entry_eq.trans before.2⟩
    · exact ⟨before.1.contract fits, entry_joined wf fits before.2⟩
  exact ⟨regions, k, ran, after.1, after.2, settled⟩

/-- A graph decides like another one, of which it holds some of the blocks. -/
structure DecidesAlike (g h : FlowGraph) : Prop where
  labels : ∀ n ∈ h.nodeIds, n ∈ g.nodeIds ∧ h.label n = g.label n
  /-- A two-way block leads, by its compound condition, to the one block that the other graph's own
  tests lead to, through the blocks that are gone. -/
  twoWay : ∀ truth, ∀ n ∈ h.nodeIds, TwoWay h n →
    ∃ b, (∀ c, Selects h ((condition h n).eval truth) n c ↔ c = b) ∧
      ∀ c, Leads g truth (· ∈ h.nodeIds) n c ↔ c = b
  others : ∀ n ∈ h.nodeIds, ¬TwoWay h n → h.outEdges n = g.outEdges n

theorem Kept.decidesAlike (kept : Kept g h) : DecidesAlike g h where
  labels := kept.labels
  twoWay := by
    rintro truth n live ⟨onTrue, onFalse, sides⟩
    have selected : Selects h ((condition h n).eval truth) n
        (if (condition h n).eval truth then onTrue else onFalse) := ⟨onTrue, onFalse, sides, rfl⟩
    have leads := kept.leads truth n live _ selected
    refine ⟨_, fun c => ⟨fun other => other.unique selected, ?_⟩,
      fun c => ⟨fun other => other.unique leads, ?_⟩⟩
    · rintro rfl
      exact selected
    · rintro rfl
      exact leads
  others := kept.others

/-- Joining tests comes to an end, which is when no contraction is left, and keeps the meaning of
every branch. -/
theorem contractAll_decidesAlike (wf : g.WellFormed) (valid : g.validate = .ok ())
    (bare : ∀ n ∈ g.nodes, n.notes.compound = none) :
    ∃ regions h, contractAll g = .ok (regions, h) ∧
      (∃ entry, h.entry? = some entry ∧
        (h.numbering entry).reversePostorder.findSome? (contraction? h) = none) ∧
      DecidesAlike g h := by
  obtain ⟨entry, entered, -⟩ := (FlowGraph.validate_eq_ok_iff wf).mp valid
  obtain ⟨regions, h, ran, kept, entry', final⟩ :=
    contractWithin_kept (.start wf bare) entered (Nat.le_refl _)
  exact ⟨regions, h, ran, ⟨entry, entry', final⟩, kept.decidesAlike⟩

/-- The test A and not B: the true side of A leads to B, of which the true side leads where the
false side of A does. -/
def guarded : FlowGraph where
  name := "guarded"
  attrs := .empty
  nodes := [⟨0, "A", .ofList [("entry", "true")], .ofAttrs .empty⟩,
    ⟨1, "B", .empty, .ofAttrs .empty⟩, ⟨2, "C", .empty, .ofAttrs .empty⟩,
    ⟨3, "D", .empty, .ofAttrs .empty⟩]
  edges := [⟨0, 1, .ofList [("cond", "true")]⟩, ⟨0, 3, .ofList [("cond", "false")]⟩,
    ⟨1, 3, .ofList [("cond", "true")]⟩, ⟨1, 2, .ofList [("cond", "false")]⟩]
  nextNode := 4
  nextEdge := 4

theorem guarded_decidesAlike : guarded.WellFormed ∧ guarded.validate = .ok () ∧
    (∀ n ∈ guarded.nodes, n.notes.compound = none) ∧
    ∃ regions h, contractAll guarded = .ok (regions, h) ∧ DecidesAlike guarded h := by
  have wf : guarded.WellFormed := by decide
  have valid : guarded.validate = .ok () := by rfl
  have bare : ∀ n ∈ guarded.nodes, n.notes.compound = none := by decide
  obtain ⟨regions, h, ran, -, alike⟩ := contractAll_decidesAlike wf valid bare
  exact ⟨wf, valid, bare, regions, h, ran, alike⟩

/-- One block is left of the two, with their joined condition. -/
example : (contractAll guarded).map (fun (regions, h) => (regions, condition h 0, h.succs 0)) =
    .ok ([.shortCircuit .andNot "A" "B" "C" "D"], .and (.leaf "A") (.not (.leaf "B")), [2, 3]) := by
  rfl

end ShortCircuit

end ControlFlow
