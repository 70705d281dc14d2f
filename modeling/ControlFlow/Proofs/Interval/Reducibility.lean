import ControlFlow.Proofs.Interval.Collapse

/-! What the limit of a derived sequence says about reducibility. Making intervals nodes keeps a
reducible graph reducible and an irreducible one irreducible, so a sequence that ends in a single
node is that of a reducible graph. The converse holds for graphs that get smaller or are single
nodes: no edge of a derived graph leads back to its own source, and a reducible graph without such
edges always gets smaller. A first graph in which every node but the entry is entered twice, if only
because of an edge from the node to itself, is the end of its own sequence. -/
namespace ControlFlow.FlowGraph

variable {g : FlowGraph} {start : NodeId} {levels : List Level}

/-- A graph without edges from a node to itself that is reducible gets smaller, unless it is a
single node. -/
theorem Reducible.contracts (wf : g.WellFormed) (live : start ∈ g.nodeIds)
    (all : ∀ n ∈ g.nodeIds, g.Reaches start n) (reducible : g.Reducible start)
    (loopless : ∀ n, ¬g.Step n n) (several : g.size ≠ 1) : g.Contracts start := by
  have other : ∃ a ∈ g.nodeIds, a ≠ start := by
    by_contra none
    have only : g.nodeIds ⊆ [start] := fun a inside =>
      List.mem_singleton.mpr (not_not.mp fun different => none ⟨a, inside, different⟩)
    have few := (wf.idsNodup.subperm only).length_le
    have some := List.length_pos_of_mem live
    rw [nodeIds, List.length_map] at few some
    exact several (Nat.le_antisymm few some)
  obtain ⟨a, inside, different⟩ := other
  obtain ⟨p, n, reached, notStart, only⟩ :=
    reducible.exists_single_pred wf live loopless (all a inside) different
  refine ⟨n, reached.live wf live, notStart, Nat.le_antisymm ?_ ?_⟩
  · have single : g.preds n ⊆ [p] := by
      intro q entering
      have edge : g.Step q n := mem_preds_iff_mem_succs.mp entering
      exact List.mem_singleton.mpr (only q (all q (wf.source_live edge)) edge)
    exact ((wf.preds_nodup n).subperm single).length_le
  · obtain ⟨q, -, edge, -⟩ := exists_lower_pred wf live reached notStart
    exact List.length_pos_of_mem (mem_preds_iff_mem_succs.mpr edge)

theorem eq_of_size_eq_one (single : g.size = 1) {a b : NodeId} (left : a ∈ g.nodeIds)
    (right : b ∈ g.nodeIds) : a = b := by
  obtain ⟨n, nodes⟩ := List.length_eq_one_iff.mp single
  rw [nodeIds, nodes, List.map_singleton, List.mem_singleton] at left right
  exact left.trans right.symm

/-- Nothing retreats in a single node but to the node itself. -/
theorem reducible_of_size_eq_one (wf : g.WellFormed) (single : g.size = 1) :
    g.Reducible start := by
  intro a b retreats
  obtain rfl : b = a :=
    eq_of_size_eq_one single (wf.target_live retreats.edge) (wf.source_live retreats.edge)
  exact .refl retreats.reached

namespace Derivation

/-- The limit of a sequence does not depend on where the sequence is entered. -/
theorem limitSize_cons {level : Level} (derivation : Derivation g start levels) :
    Level.limitSize (level :: levels) = Level.limitSize levels := by
  cases derivation <;> rfl

/-- A sequence that ends in a single node is that of a reducible graph. -/
theorem reducible (derivation : Derivation g start levels) (wf : g.WellFormed)
    (live : start ∈ g.nodeIds) (limit : Level.limitSize levels = 1) : g.Reducible start := by
  induction derivation with
  | last derives same => exact reducible_of_size_eq_one wf limit
  | more derives smaller rest ih =>
    rw [rest.limitSize_cons] at limit
    have quotient := derives.isQuotient wf live
    exact (derives.reducible_iff wf live).mpr (ih quotient.wf quotient.live limit)

/-- The sequence of a reducible graph ends in a single node if no edge leads from a node to
itself. -/
theorem limitSize_eq_one (derivation : Derivation g start levels) (wf : g.WellFormed)
    (live : start ∈ g.nodeIds) (all : ∀ n ∈ g.nodeIds, g.Reaches start n)
    (reducible : g.Reducible start) (loopless : ∀ n, ¬g.Step n n) :
    Level.limitSize levels = 1 := by
  induction derivation with
  | last derives same =>
    by_contra several
    have contracts := reducible.contracts wf live all loopless several
    exact same ((derives.size_lt_iff wf live all).mpr contracts)
  | more derives smaller rest ih =>
    have quotient := derives.isQuotient wf live
    rw [rest.limitSize_cons]
    exact ih quotient.wf quotient.live (derives.reaches wf live)
      ((derives.reducible_iff wf live).mp reducible) (derives.loopless wf live)

theorem limitSize_eq_one_iff (derivation : Derivation g start levels) (wf : g.WellFormed)
    (live : start ∈ g.nodeIds) (all : ∀ n ∈ g.nodeIds, g.Reaches start n) :
    Level.limitSize levels = 1 ↔ g.Reducible start ∧ (g.size = 1 ∨ g.Contracts start) := by
  constructor
  · intro limit
    refine ⟨derivation.reducible wf live limit, ?_⟩
    cases derivation with
    | last derives same => exact .inl limit
    | more derives smaller rest => exact .inr ((derives.size_lt_iff wf live all).mp smaller)
  · rintro ⟨reducible, shrinks⟩
    cases derivation with
    | last derives same =>
      exact shrinks.resolve_right ((derives.size_lt_iff wf live all).not.mp same)
    | more derives smaller rest =>
      have quotient := derives.isQuotient wf live
      rw [rest.limitSize_cons]
      exact rest.limitSize_eq_one quotient.wf quotient.live (derives.reaches wf live)
        ((derives.reducible_iff wf live).mp reducible) (derives.loopless wf live)

end Derivation

/-- The limit of a valid graph is a single node exactly when the graph is reducible and is a single
node or gets smaller at once. If no edge leads from a node to itself it is one exactly when the
graph is reducible. -/
theorem derivedSequence_reducible_iff (wf : g.WellFormed) (valid : g.validate = .ok ()) :
    ∃ entry levels, g.entry? = some entry ∧ g.derivedSequence = .ok levels ∧
      (Level.reducible levels = true ↔
        g.Reducible entry ∧ (g.size = 1 ∨ g.Contracts entry)) ∧
      ((∀ n, ¬g.Step n n) → (Level.reducible levels = true ↔ g.Reducible entry)) := by
  obtain ⟨entry, entered, all⟩ := (validate_eq_ok_iff wf).mp valid
  have live := entry_live entered
  obtain ⟨levels, derived, derivation⟩ := derivedSequence_eq_ok wf entered
  have limit := derivation.limitSize_eq_one_iff wf live all
  refine ⟨entry, levels, entered, derived, ?_, fun loopless => ?_⟩
  · rw [Level.reducible, beq_iff_eq, limit]
  · rw [Level.reducible, beq_iff_eq]
    exact ⟨fun single => (limit.mp single).1,
      fun reducible => derivation.limitSize_eq_one wf live all reducible loopless⟩

/-- Two loops, one inside the other. The inner one is an edge from a node to itself. -/
def nested : FlowGraph where
  name := "nested"
  attrs := .empty
  nodes := [⟨0, "A", .ofList [("entry", "true")], .ofAttrs .empty⟩,
    ⟨1, "B", .empty, .ofAttrs .empty⟩, ⟨2, "C", .empty, .ofAttrs .empty⟩,
    ⟨3, "D", .empty, .ofAttrs .empty⟩]
  edges := [⟨0, 1, .empty⟩, ⟨1, 2, .empty⟩, ⟨2, 2, .empty⟩, ⟨2, 1, .empty⟩, ⟨2, 3, .empty⟩]
  nextNode := 4
  nextEdge := 5

theorem nested_limit : nested.WellFormed ∧ nested.validate = .ok () ∧
    ∃ levels, nested.derivedSequence = .ok levels ∧ Level.reducible levels = true := by
  have wf : nested.WellFormed := by decide
  have valid : nested.validate = .ok () := by rfl
  obtain ⟨entry, levels, entered, derived, limit, -⟩ := derivedSequence_reducible_iff wf valid
  obtain rfl : entry = 0 := (Option.some.inj entered).symm
  have reducible : nested.Reducible 0 := (reducible_iff_edges wf (by decide)).mpr (by decide)
  exact ⟨wf, valid, levels, derived, limit.mpr ⟨reducible, .inr ⟨3, by decide, by decide, rfl⟩⟩⟩

/-- A loop of one node behind the entry. -/
def spinning : FlowGraph where
  name := "spinning"
  attrs := .empty
  nodes := [⟨0, "A", .ofList [("entry", "true")], .ofAttrs .empty⟩,
    ⟨1, "B", .empty, .ofAttrs .empty⟩]
  edges := [⟨0, 1, .empty⟩, ⟨1, 1, .empty⟩]
  nextNode := 2
  nextEdge := 2

/-- The node of the loop is entered twice and stays apart from the entry, though the graph is
reducible. -/
theorem spinning_limit : spinning.WellFormed ∧ spinning.validate = .ok () ∧
    spinning.entry? = some 0 ∧ spinning.Reducible 0 ∧
    ∃ levels, spinning.derivedSequence = .ok levels ∧ Level.reducible levels = false := by
  have wf : spinning.WellFormed := by decide
  have reducible : spinning.Reducible 0 := (reducible_iff_edges wf (by decide)).mpr (by decide)
  exact ⟨wf, by rfl, by rfl, reducible, _, rfl, by rfl⟩

end ControlFlow.FlowGraph
