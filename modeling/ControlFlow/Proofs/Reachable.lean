import ControlFlow.Proofs.Graph.Changes
import ControlFlow.Proofs.Hammock.Resumption
import ControlFlow.Proofs.Totality

/-! The graphs that a program can come to hold. It makes a graph, changes it, names and annotates it
as it likes, has it structured or reduced under an observer, and takes graphs out of its derived
sequence. All of these graphs are sound: each operation keeps the lists of a graph in order, whether
it succeeds or not. -/
namespace ControlFlow

/-- The graphs that calls lead to. -/
inductive Reachable : FlowGraph → Prop where
  | made {origin : Origin} {g : FlowGraph} (made : origin.graph? = some g) : Reachable g
  | changed {g : FlowGraph} (before : Reachable g) (change : Change) :
      Reachable (change.inPlace.runOn g).2
  | named {g : FlowGraph} (before : Reachable g) (name : String) : Reachable (g.setName name)
  | attributed {g : FlowGraph} (before : Reachable g) (attrs : AttrMap) : Reachable { g with attrs }
  | annotated {g : FlowGraph} (before : Reachable g) (id : NodeId) (change : Notes → Notes) :
      Reachable (g.annotate id change)
  | structured {g : FlowGraph} (before : Reachable g) (strategy : Strategy) :
      Reachable (strategy.inPlace.runOn g).2
  | observed {g h : FlowGraph} (before : Reachable g) {σ : Type}
      (observer : Hammock.Observer (StateM σ)) {s s' : σ} {analysis : Analysis}
      (ran : Hammock.watch (Hammock.reduceObserved observer g) s = (.ok (analysis, h), s')) :
      Reachable h
  | stepped {g h : FlowGraph} (before : Reachable g) {region : Region}
      (ran : Hammock.step g = .ok (.merged region h)) : Reachable h
  | derived {g : FlowGraph} (before : Reachable g) {levels : List Level} {level : Level}
      (ran : g.derivedSequence = .ok levels) (member : level ∈ levels) : Reachable level.graph

variable {g h : FlowGraph}

namespace FlowGraph

namespace Sound

/-! ## Reductions -/

theorem mergeRegion (sound : g.Sound) {region : Region} {merged : NodeId}
    (ran : g.mergeRegion region = .ok (merged, h)) : h.Sound := by
  have settles := settles_mergeRegion sound region
  have performs : InPlace.Performs _ g _ := .mergeRegion region
  rw [ran] at performs
  rw [Settles, show Procedure.runOn _ g = _ from performs] at settles
  exact settles.sound

theorem reached (sound : g.Sound) {found : List Region} (reached : Hammock.Reached g found h) :
    h.Sound := by
  induction reached with
  | start => exact sound
  | merge _ _ ran ih => exact ih.mergeRegion ran

theorem reduceObserved (sound : g.Sound) {σ : Type} (observer : Hammock.Observer (StateM σ))
    {s s' : σ} {analysis : Analysis}
    (ran : Hammock.watch (Hammock.reduceObserved observer g) s = (.ok (analysis, h), s')) :
    h.Sound := by
  cases valid : g.validate with
  | error error =>
    rw [Hammock.reduceObserved, valid] at ran
    cases ran
  | ok accepted =>
    obtain ⟨entry, entered, -⟩ := (validate_eq_ok_iff sound.wf).mp valid
    obtain ⟨_, _, _, ran', reached, -⟩ :=
      Hammock.runWithin_reached sound.wf entered observer g.size s .start (by simp)
    rw [Hammock.reduceObserved, valid] at ran
    rw [show Hammock.watch (Hammock.runWithin observer g.size g []) s = _ from ran] at ran'
    cases ran'
    exact sound.reached reached

theorem step (sound : g.Sound) {region : Region}
    (ran : Hammock.step g = .ok (.merged region h)) : h.Sound := by
  rw [Hammock.step] at ran
  obtain ⟨_, -, moves⟩ := bind_eq_ok_iff.mp ran
  obtain ⟨move, -, made⟩ := bind_eq_ok_iff.mp moves
  cases move with
  | done => cases made
  | stuck => cases made
  | merge region' =>
    obtain ⟨result, merged, same⟩ := bind_eq_ok_iff.mp made
    cases same
    exact sound.mergeRegion merged

/-! ## Structuring by intervals -/

theorem contract (sound : g.Sound) {c : ShortCircuit.Contraction}
    (ran : ShortCircuit.contract g c = .ok h) : h.Sound := by
  rw [ShortCircuit.contract] at ran
  obtain ⟨result, added, same⟩ := bind_eq_ok_iff.mp ran
  cases same
  exact ((sound.removeNode c.inner).addEdge added).of_sameCore (sameCore_annotate _ _)

theorem contractWithin (sound : g.Sound) {bound : Nat} {regions : List Region}
    (ran : ShortCircuit.contractWithin bound g = .ok (regions, h)) : h.Sound := by
  refine ShortCircuit.contractWithin_induct (fun k numbering before => ?_)
    (fun k c wf fits before => ?_) sound.wf sound ran
  · exact before.of_sameCore (sameCore_recordNumbers numbering)
  · exact before.contract (ShortCircuit.contract_eq_ok wf fits)

theorem followSearch (sound : g.Sound) {search : FollowSearch} (steady : search.Steady)
    {regions : List Region} (ran : search.run g = .ok (regions, h)) : h.Sound := by
  have started := ran
  rw [FollowSearch.run] at started
  obtain ⟨⟨numbering, k⟩, numbered, -⟩ := bind_eq_ok_iff.mp started
  obtain ⟨entry, entered, -⟩ := number_eq_ok_iff.mp numbered
  obtain ⟨_, _, ran', core, -⟩ := steady.run_eq_ok sound.wf entered
  rw [ran] at ran'
  cases ran'
  exact sound.of_sameCore core

theorem structureLoops (sound : g.Sound) {regions : List Region}
    (ran : g.structureLoops = .ok (regions, h)) : h.Sound := by
  have started := ran
  rw [FlowGraph.structureLoops] at started
  obtain ⟨⟨numbering, k⟩, numbered, -⟩ := bind_eq_ok_iff.mp started
  obtain ⟨entry, entered, -⟩ := number_eq_ok_iff.mp numbered
  obtain ⟨_, ran', -, core⟩ := structureLoops_eq_ok sound.wf entered
  rw [ran] at ran'
  cases ran'
  exact sound.of_sameCore core

theorem structureIntervals (sound : g.Sound) {regions : List Region}
    (ran : g.structureIntervals = .ok (regions, h)) : h.Sound := by
  rw [FlowGraph.structureIntervals] at ran
  obtain ⟨_, valid, rest⟩ := bind_eq_ok_iff.mp ran
  obtain ⟨⟨joined, g₁⟩, contracted, rest⟩ := bind_eq_ok_iff.mp rest
  obtain ⟨⟨switches, g₂⟩, switched, rest⟩ := bind_eq_ok_iff.mp rest
  obtain ⟨⟨loops, g₃⟩, looped, rest⟩ := bind_eq_ok_iff.mp rest
  obtain ⟨⟨tests, g₄⟩, tested, same⟩ := bind_eq_ok_iff.mp rest
  cases same
  have sound₁ : g₁.Sound := (sound.of_sameCore sameCore_resetAnnotations).contractWithin contracted
  have sound₂ : g₂.Sound := sound₁.followSearch FollowSearch.switches_steady switched
  have sound₃ : g₃.Sound := sound₂.structureLoops looped
  exact sound₃.followSearch FollowSearch.tests_steady tested

/-! ## Derived sequences -/

theorem collapse {intervals : List Interval} (ran : g.collapse intervals = .ok h) : h.Sound := by
  rw [FlowGraph.collapse] at ran
  obtain ⟨k, nodes, edges⟩ := bind_eq_ok_iff.mp ran
  have built : k.Sound := by
    refine foldlM_keeps (P := Sound) (fun interval sound added => ?_)
      (keptByAdding.bare g.name .empty) nodes
    rw [addInterval] at added
    obtain ⟨result, one, same⟩ := bind_eq_ok_iff.mp added
    cases same
    exact sound.addNode one
  refine foldlM_keeps (P := Sound) (fun pair sound added => ?_) built edges
  rw [addIntervalEdge] at added
  split at added
  · obtain ⟨result, one, same⟩ := bind_eq_ok_iff.mp added
    cases same
    exact sound.addEdge one
  · cases added
    exact sound

theorem levelsWithin (sound : g.Sound) {bound : Nat} {levels : List Level}
    (ran : g.levelsWithin bound = .ok levels) : ∀ level ∈ levels, level.graph.Sound := by
  induction bound generalizing g levels with
  | zero =>
    cases ran
    exact List.forall_mem_nil _
  | succ bound ih =>
    rw [FlowGraph.levelsWithin] at ran
    obtain ⟨intervals, -, rest⟩ := bind_eq_ok_iff.mp ran
    obtain ⟨derived, collapsed, rest⟩ := bind_eq_ok_iff.mp rest
    split at rest
    · obtain ⟨others, later, same⟩ := bind_eq_ok_iff.mp rest
      cases same
      exact List.forall_mem_cons.mpr ⟨sound, ih (collapse collapsed) later⟩
    · cases rest
      exact List.forall_mem_singleton.mpr sound

theorem derivedSequence (sound : g.Sound) {levels : List Level}
    (ran : g.derivedSequence = .ok levels) : ∀ level ∈ levels, level.graph.Sound := by
  rw [FlowGraph.derivedSequence] at ran
  obtain ⟨_, -, rest⟩ := bind_eq_ok_iff.mp ran
  exact sound.levelsWithin rest

/-- A change settles the graph, or leaves it alone. -/
theorem change (sound : g.Sound) (change : Change) : (change.inPlace.runOn g).2.Sound := by
  have settles := change.settles sound
  rw [Settles] at settles
  cases ran : change.inPlace.runOn g with
  | mk result k =>
    rw [ran] at settles
    cases result with
    | ok id? => exact settles.sound
    | error error =>
      obtain rfl : k = g := settles
      exact sound

theorem structured (sound : g.Sound) (strategy : Strategy) :
    (strategy.inPlace.runOn g).2.Sound := by
  cases valid : g.validate with
  | error error =>
    rw [strategy.inPlace_of_invalid valid]
    exact sound
  | ok accepted =>
    obtain ⟨analysis, k, start, _, ran, -⟩ := strategy.analyze_of_valid sound.wf valid
    have performs := strategy.performs g
    rw [ran] at performs
    rw [show strategy.inPlace.runOn g = _ from performs]
    cases strategy with
    | hammock =>
      obtain ⟨entry, entered, -⟩ := (validate_eq_ok_iff sound.wf).mp valid
      obtain ⟨found, h, remainder, reached, finishes⟩ :=
        Hammock.exists_finishes sound.wf entered g.size .start (Nat.le_add_left _ _)
      have reduced := Hammock.reduce_eq sound.wf entered valid reached finishes
      rw [show Hammock.reduce g = _ from ran] at reduced
      cases reduced
      exact sound.reached reached
    | interval =>
      obtain ⟨⟨regions, _⟩, structured, same⟩ := bind_eq_ok_iff.mp ran
      cases same
      exact sound.structureIntervals structured

/-- The name and the attributes of a graph are its own affair. -/
theorem relabelled (sound : g.Sound) (name : String) (attrs : AttrMap) :
    FlowGraph.Sound { g with name, attrs } :=
  ⟨⟨sound.wf.idsNodup, sound.wf.idsBelow, sound.wf.labelsNodup, sound.wf.oneEntry,
    sound.wf.edgesLive, sound.wf.endsNodup⟩, ⟨sound.ordered.nodes, sound.ordered.edges⟩⟩

end Sound

end FlowGraph

/-- Whatever a program does, the graphs that it holds are sound. -/
theorem Reachable.sound (reachable : Reachable g) : g.Sound := by
  induction reachable with
  | made made => exact Origin.sound made
  | changed _ change ih => exact ih.change change
  | named _ name ih => exact ih.relabelled name _
  | attributed _ attrs ih => exact ih.relabelled _ attrs
  | annotated _ id change ih => exact ih.of_sameCore (FlowGraph.sameCore_annotate id change)
  | structured _ strategy ih => exact ih.structured strategy
  | observed _ observer ran ih => exact ih.reduceObserved observer ran
  | stepped _ ran ih => exact ih.step ran
  | derived _ ran member ih => exact ih.derivedSequence ran _ member

end ControlFlow
