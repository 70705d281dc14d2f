import ControlFlow.Proofs.Hammock.Accounting
import ControlFlow.Proofs.Interval.Contraction

/-! The account of joining tests. Each contraction takes one block out of the graph, which is never
the entry, and names it in its record; so the blocks that stay and those that the records name as
taken are the blocks that there were. A run can be stopped after any number of contractions, which
gives the graph as it was at that point: the blocks that a record names were all there when it was
made, and right after it the joined test leads where the record says, even if a later contraction
takes one of these blocks away. -/
namespace ControlFlow

open scoped List

/-- The block that the record of a joined test takes out of the graph. -/
def Region.taken? : Region → Option String
  | shortCircuit _ _ condB _ _ => some condB
  | _ => none

/-- The labels of a graph do not depend on annotations. -/
theorem FlowGraph.SameCore.labels {g h : FlowGraph} (same : g.SameCore h) :
    g.labels = h.labels := by
  have bare : g.resetAnnotations.labels = h.resetAnnotations.labels :=
    congrArg FlowGraph.labels same
  simpa [FlowGraph.labels, resetAnnotations, Function.comp_def] using bare

namespace ShortCircuit

open FlowGraph Hammock

variable {g h : FlowGraph} {entry : NodeId} {regions : List Region} {region : Region} {bound : Nat}

/-- A region is the record of a joined test that, in a graph, leads where the record says. -/
inductive Leading (h : FlowGraph) : Region → Prop where
  | intro (junction : Junction) {outer onTrue onFalse : NodeId} (inner : String)
    (live : outer ∈ h.nodeIds) (sides : Sides h outer onTrue onFalse) :
    Leading h (.shortCircuit junction (h.label outer) inner (h.label onTrue) (h.label onFalse))

namespace Contracts

variable (wf : g.WellFormed) (contracts : Contracts g entry region h)
include wf contracts

/-- All blocks of the record are there before. -/
theorem blocks_live : ∀ label ∈ region.blocks, label ∈ g.labels := by
  obtain ⟨k, c, -, same, wfK, fits, rfl, -⟩ := contracts.fits wf
  have named {id : NodeId} (live : id ∈ k.nodeIds) : k.label id ∈ g.labels :=
    (mem_labels wf).mpr ⟨id, same.nodeIds ▸ live, congrFun same.label.symm id⟩
  have outer := wfK.source_live (fits.edge wfK)
  have inner := wfK.target_live (fits.edge wfK)
  have after {id : NodeId} (side : id = c.bodyTrue ∨ id = c.bodyFalse) : id ∈ k.nodeIds := by
    have edge := (sides_joined wfK fits).mem_succs.mpr side
    exact (mem_joined_nodeIds.mp ((wellFormed_joined wfK fits).target_live edge)).1
  simp only [Region.blocks, Contraction.region, Region.cast, List.map_cons, List.map_nil,
    List.forall_mem_cons]
  exact ⟨named outer, named inner, named (after (.inl rfl)), named (after (.inr rfl)), nofun⟩

/-- Right after it the joined test leads where the record says. -/
theorem leading : Leading h region := by
  obtain ⟨k, c, -, -, wfK, fits, rfl, rfl⟩ := contracts.fits wf
  have wfJoined := wellFormed_joined wfK fits
  have sides := sides_joined wfK fits
  have kept {id : NodeId} (live : id ∈ (joined k c).nodeIds) :
      (joined k c).label id = k.label id := label_joined (mem_joined_nodeIds.mp live).2
  have onTrue := sides.mem_succs.mpr (.inl rfl)
  have onFalse := sides.mem_succs.mpr (.inr rfl)
  have outer := wfJoined.source_live onTrue
  rw [Contraction.region, ← kept outer, ← kept (wfJoined.target_live onTrue),
    ← kept (wfJoined.target_live onFalse)]
  exact .intro c.junction (k.label c.inner) outer sides

/-- The blocks that stay and the one that is taken are those that there were. -/
theorem labels_perm : (h.labels ++ region.taken?.toList).Perm g.labels := by
  obtain ⟨k, c, -, same, wfK, fits, rfl, rfl⟩ := contracts.fits wf
  have wfJoined := wellFormed_joined wfK fits
  have inner := wfK.target_live (fits.edge wfK)
  have before (label : String) : label ∈ g.labels ↔ ∃ n ∈ k.nodeIds, k.label n = label := by
    rw [mem_labels wf, same.nodeIds, same.label]
  have taken : (c.region k).taken?.toList = [k.label c.inner] := rfl
  refine (List.perm_ext_iff_of_nodup ?_ (labels_nodup wf)).mpr fun label => ?_
  · refine taken ▸ List.nodup_append.mpr ⟨labels_nodup wfJoined, List.nodup_singleton _, ?_⟩
    rintro label stays _ gone rfl
    obtain ⟨n, live, named⟩ := (mem_labels wfJoined).mp stays
    obtain ⟨old, other⟩ := mem_joined_nodeIds.mp live
    rw [label_joined other, List.mem_singleton.mp gone] at named
    exact other (wfK.label_inj old inner named)
  · rw [taken, List.mem_append, List.mem_singleton, mem_labels wfJoined, before]
    constructor
    · rintro (⟨n, live, rfl⟩ | rfl)
      · obtain ⟨old, other⟩ := mem_joined_nodeIds.mp live
        exact ⟨n, old, (label_joined other).symm⟩
      · exact ⟨c.inner, inner, rfl⟩
    · rintro ⟨n, live, rfl⟩
      by_cases gone : n = c.inner
      · exact .inr (gone ▸ rfl)
      · exact .inl ⟨n, mem_joined_nodeIds.mpr ⟨live, gone⟩, label_joined gone⟩

end Contracts

/-! ## Whole runs -/

/-- A run that returns a record has made a contraction first. -/
theorem contractWithin_cons (wf : g.WellFormed) (entered : g.entry? = some entry)
    (ran : contractWithin bound g = .ok (region :: regions, h)) :
    ∃ next fewer, Contracts g entry region next ∧ contractWithin fewer next = .ok (regions, h) ∧
      ∀ bound, contractWithin (bound + 1) g =
        (contractWithin bound next).map fun found => (region :: found.1, found.2) := by
  cases bound with
  | zero => cases ran
  | succ bound =>
    rcases contractWithin_step wf entered with ⟨numbered, -, -, still⟩ | ⟨made, next, contracts, on⟩
    · cases (still bound).symm.trans ran
    · obtain ⟨⟨rest, k⟩, later, same⟩ := map_eq_ok_iff.mp ((on bound).symm.trans ran)
      cases same
      exact ⟨next, bound, contracts, later, on⟩

/-- A run that returns no record numbers the graph at most. -/
theorem contractWithin_nil (wf : g.WellFormed) (entered : g.entry? = some entry)
    (ran : contractWithin bound g = .ok ([], h)) :
    h = g ∨ h = g.recordNumbers (g.numbering entry) := by
  cases bound with
  | zero =>
    cases ran
    exact .inl rfl
  | succ bound =>
    rcases contractWithin_step wf entered with ⟨numbered, rfl, -, still⟩ | ⟨made, next, -, on⟩
    · cases (still bound).symm.trans ran
      exact .inr rfl
    · obtain ⟨found, -, same⟩ := map_eq_ok_iff.mp ((on bound).symm.trans ran)
      cases same

/-- The blocks that stay and those that were taken are the blocks that there were at first. -/
theorem contractWithin_accounted (wf : g.WellFormed) (entered : g.entry? = some entry)
    (ran : contractWithin bound g = .ok (regions, h)) :
    (h.labels ++ regions.filterMap Region.taken?).Perm g.labels := by
  induction regions generalizing g bound with
  | nil =>
    rw [List.filterMap_nil, List.append_nil]
    rcases contractWithin_nil wf entered ran with rfl | rfl
    · exact .refl _
    · rw [(sameCore_recordNumbers _).labels]
  | cons region rest ih =>
    obtain ⟨next, fewer, contracts, later, -⟩ := contractWithin_cons wf entered ran
    have after := ih (contracts.wellFormed wf) (contracts.entered wf entered) later
    have split : (region :: rest).filterMap Region.taken? =
        region.taken?.toList ++ rest.filterMap Region.taken? := by
      cases taken : region.taken? <;> simp [taken]
    calc h.labels ++ (region :: rest).filterMap Region.taken?
      _ = h.labels ++ (region.taken?.toList ++ rest.filterMap Region.taken?) := by rw [split]
      _ ~ (h.labels ++ rest.filterMap Region.taken?) ++ region.taken?.toList := by
        rw [List.append_assoc]
        exact List.perm_append_comm.append_left _
      _ ~ next.labels ++ region.taken?.toList := after.append_right _
      _ ~ g.labels := contracts.labels_perm wf

/-- A run stopped before a contraction gives the graph in which it is made, and one stopped after it
the graph that it makes. -/
theorem contractWithin_moment (wf : g.WellFormed) (entered : g.entry? = some entry)
    (ran : contractWithin bound g = .ok (regions, h)) {i : Nat}
    (made : regions[i]? = some region) :
    ∃ before after, contractWithin i g = .ok (regions.take i, before) ∧
      contractWithin (i + 1) g = .ok (regions.take (i + 1), after) ∧
      before.WellFormed ∧ Contracts before entry region after := by
  induction i generalizing g bound regions with
  | zero =>
    cases regions with
    | nil => cases made
    | cons first rest =>
      obtain rfl := Option.some.inj made
      obtain ⟨next, -, contracts, -, on⟩ := contractWithin_cons wf entered ran
      exact ⟨g, next, rfl, on 0, wf, contracts⟩
  | succ i ih =>
    cases regions with
    | nil => cases made
    | cons first rest =>
      obtain ⟨next, fewer, contracts, later, on⟩ := contractWithin_cons wf entered ran
      obtain ⟨before, after, stopped, through, wfBefore, contracts'⟩ :=
        ih (contracts.wellFormed wf) (contracts.entered wf entered) later made
      exact ⟨before, after, by rw [on, stopped]; rfl, by rw [on, through]; rfl, wfBefore,
        contracts'⟩

end ShortCircuit

end ControlFlow
