import ControlFlow.Proofs.Interval.FollowNotes
import ControlFlow.Proofs.Interval.Recording
import ControlFlow.Proofs.Renumbering.Loops

/-! Compound conditions do not matter to the passes that follow the joining of tests. None of these
reads or writes one, so a graph from which they are taken is searched with the same results: the
regions are the same, and the graph that is left is the other one without its compound conditions.
-/
namespace ControlFlow

/-- All that is known of a node but its compound condition. -/
def Notes.withoutCompound (notes : Notes) : Notes := { notes with compound := none }

namespace FlowGraph

variable {g h : FlowGraph} {entry : NodeId} {regions : List Region}

/-- Forgets the compound conditions. -/
def withoutCompounds (g : FlowGraph) : FlowGraph :=
  { g with nodes := g.nodes.map fun n => { n with notes := n.notes.withoutCompound } }

theorem sameCore_withoutCompounds (g : FlowGraph) : g.withoutCompounds.SameCore g := by
  simp only [SameCore, resetAnnotations, withoutCompounds, List.map_map]
  rfl

theorem withoutCompounds_notes? (id : NodeId) :
    g.withoutCompounds.notes? id = (g.notes? id).map Notes.withoutCompound := by
  simp only [notes?, node?, withoutCompounds, List.find?_map, Option.map_map]
  rfl

theorem withoutCompounds_annotate {change : Notes → Notes}
    (blind : ∀ notes, change notes.withoutCompound = (change notes).withoutCompound) (id : NodeId) :
    (g.annotate id change).withoutCompounds = g.withoutCompounds.annotate id change := by
  simp only [annotate, modifyNode, withoutCompounds, List.map_map, mk.injEq, true_and, and_true]
  refine List.map_congr_left fun n _ => ?_
  simp only [Function.comp_apply]
  split
  · rw [blind]
  · rfl

theorem withoutCompounds_foldl_annotate {change : Notes → Notes}
    (blind : ∀ notes, change notes.withoutCompound = (change notes).withoutCompound)
    (ids : List NodeId) :
    (ids.foldl (fun g id => g.annotate id change) g).withoutCompounds =
      ids.foldl (fun g id => g.annotate id change) g.withoutCompounds := by
  induction ids generalizing g with
  | nil => rfl
  | cons id rest ih => rw [List.foldl_cons, ih, withoutCompounds_annotate blind, List.foldl_cons]

theorem withoutCompounds_recordNumbers (numbering : Numbering) :
    (g.recordNumbers numbering).withoutCompounds =
      g.withoutCompounds.recordNumbers numbering := by
  simp only [recordNumbers, withoutCompounds, List.map_map, mk.injEq, true_and, and_true]
  refine List.map_congr_left fun n _ => ?_
  simp only [Function.comp_apply]
  split <;> rfl

/-! ## Follows -/

theorem isLoopTest_withoutCompounds : g.withoutCompounds.isLoopTest = g.isLoopTest := by
  funext id
  rw [isLoopTest, isLoopTest, withoutCompounds_notes?]
  cases g.notes? id with
  | none => rfl
  | some notes =>
    simp only [Option.map_some, Notes.withoutCompound]
    cases notes.loopHead with
    | none => rfl
    | some head =>
      simp only [Option.bind_some, withoutCompounds_notes?, Option.bind_map]
      rfl

/-- Where a search stands on the graph without its compound conditions. -/
def FollowState.withoutCompounds (state : FollowState) : FollowState :=
  { state with graph := state.graph.withoutCompounds }

namespace FollowSearch

variable {search : FollowSearch}

/-- A search that covers the same conditionals whatever their compound conditions are. -/
def Plain (search : FollowSearch) : Prop :=
  ∀ g : FlowGraph, search.covers g.withoutCompounds = search.covers g

theorem switches_plain : switches.Plain := fun g =>
  SameButFollows.isSwitch (sameCore_withoutCompounds g)

theorem tests_plain : tests.Plain := by
  intro g
  funext id
  simp only [tests, isTest, isLoopTest_withoutCompounds, (sameCore_withoutCompounds g).succs]

section

variable (steady : search.Steady) (plain : search.Plain)
include steady plain

theorem visit_withoutCompounds (dom : DominatorTree) (numbering : Numbering) (state : FollowState)
    (id : NodeId) : search.visit dom numbering state.withoutCompounds id =
      (search.visit dom numbering state id).withoutCompounds := by
  have core := sameCore_withoutCompounds state.graph
  simp only [FollowSearch.visit, FollowState.withoutCompounds, plain state.graph,
    steady.follow?_eq core, steady.region?_eq core]
  split
  · split
    · rw [FollowState.mk.injEq]
      refine ⟨rfl, rfl, (withoutCompounds_foldl_annotate (fun notes => ?_) _).symm⟩
      rfl
    · rfl
  · rfl

theorem ended_withoutCompounds :
    search.ended g.withoutCompounds entry = (search.ended g entry).withoutCompounds := by
  have core := sameCore_withoutCompounds g
  have hom (state : FollowState) (ids : List NodeId) :
      ids.foldl (search.visit (g.dominatorsFrom entry) (g.numbering entry))
        state.withoutCompounds =
      (ids.foldl (search.visit (g.dominatorsFrom entry) (g.numbering entry))
        state).withoutCompounds :=
    List.foldl_hom FollowState.withoutCompounds fun state id =>
      visit_withoutCompounds steady plain _ _ state id
  rw [ended, ended, core.numbering, core.dominatorsFrom]
  exact hom ⟨[], [], g⟩ _

theorem Steady.run_withoutCompounds (entered : g.entry? = some entry)
    (ran : search.run g = .ok (regions, h)) :
    search.run g.withoutCompounds = .ok (regions, h.withoutCompounds) := by
  have same := sameCore_withoutCompounds g
  have numbered : g.withoutCompounds.recordNumbers (g.withoutCompounds.numbering entry) =
      (g.recordNumbers (g.numbering entry)).withoutCompounds := by
    rw [withoutCompounds_recordNumbers, same.numbering]
  rw [run_eq entered rfl] at ran
  obtain ⟨rfl, rfl⟩ := Prod.mk.inj (Except.ok.inj ran)
  rw [run_eq (same.entry_eq.trans entered) numbered, ended_withoutCompounds steady plain]
  rfl

end

end FollowSearch

/-! ## Loops -/

theorem SameCore.renumbers (same : g.SameCore h) : g.Renumbers id h where
  injective := Function.injective_id
  blocks := by
    have bare : g.resetAnnotations.blocks = h.resetAnnotations.blocks :=
      congrArg FlowGraph.blocks same
    have kept (k : FlowGraph) : k.resetAnnotations.blocks = k.blocks := by
      simp [FlowGraph.blocks, resetAnnotations, Function.comp_def]
    simpa [kept] using bare.symm
  edges := by
    rw [← same.edges]
    exact (List.map_id _).symm

theorem withoutCompounds_annotateLoop (members : List NodeId) (kind : LoopKind)
    (follow : Option NodeId) (head latch : NodeId) :
    (g.annotateLoop members kind follow head latch).withoutCompounds =
      g.withoutCompounds.annotateLoop members kind follow head latch := by
  simp only [annotateLoop]
  refine (withoutCompounds_annotate (fun notes => ?_) latch).trans ?_
  · rfl
  · congr 1
    refine (withoutCompounds_annotate (fun notes => ?_) head).trans ?_
    · rfl
    · congr 1
      refine withoutCompounds_foldl_annotate (fun notes => ?_) members
      rfl

theorem recordLoop_withoutCompounds (dom : DominatorTree) (numbering : Numbering)
    (found : List Region × FlowGraph) (closing : String × String) :
    recordLoop dom numbering (found.map id withoutCompounds) closing =
      (recordLoop dom numbering found closing).map id withoutCompounds := by
  obtain ⟨regions, k⟩ := found
  have core := sameCore_withoutCompounds k
  have names : k.withoutCompounds.closingNodes? = k.closingNodes? := by
    funext closing
    rw [closingNodes?, closingNodes?, core.find?_eq]
  have marked (id : NodeId) : k.withoutCompounds.inSomeLoop id = k.inSomeLoop id := by
    rw [inSomeLoop, inSomeLoop, withoutCompounds_notes?, Option.any_map]
    rfl
  simp only [Prod.map, id_eq]
  cases named : k.closingNodes? closing with
  | none =>
    have kept : recordLoop dom numbering (regions, k) closing = (regions, k) :=
      recordLoop_eq_self named (.refl k)
    have keptWithout : recordLoop dom numbering (regions, k.withoutCompounds) closing =
        (regions, k.withoutCompounds) := recordLoop_eq_self named core
    rw [kept, keptWithout]
  | some loop =>
    obtain ⟨head, latch⟩ := loop
    rw [recordLoop_eq named, recordLoop_eq (names ▸ named), marked, core.loopRegion,
      core.loopMembers, core.loopFinding]
    split
    · rfl
    · rw [withoutCompounds_annotateLoop]

theorem structureLoops_withoutCompounds (wf : g.WellFormed) (entered : g.entry? = some entry)
    (ran : g.structureLoops = .ok (regions, h)) :
    g.withoutCompounds.structureLoops = .ok (regions, h.withoutCompounds) := by
  have same := sameCore_withoutCompounds g
  have numbering : g.withoutCompounds.numbering entry = g.numbering entry :=
    congrFun same.numbering entry
  have recorded := @sameCore_recordNumbers g (g.numbering entry)
  have numbered : g.withoutCompounds.recordNumbers (g.numbering entry) =
      (g.recordNumbers (g.numbering entry)).withoutCompounds :=
    (withoutCompounds_recordNumbers (g.numbering entry)).symm
  have core := sameCore_withoutCompounds (g.recordNumbers (g.numbering entry))
  obtain ⟨levels, derived, -⟩ := derivedSequence_eq_ok (wf.of_sameCore recorded)
    (recorded.entry_eq.trans entered)
  have alike := core.symm.renumbers.derivedSequence
  rw [derived] at alike
  obtain ⟨levels', derived', alike⟩ := alike.exists_ok
  have closings := Level.tracedClosings_alike .nil alike
  rw [structureLoops_eq entered derived] at ran
  rw [structureLoops_eq (same.entry_eq.trans entered) (by rw [numbering, numbered]; exact derived'),
    numbering, numbered, same.dominatorsFrom, closings]
  have hom (found : List Region × FlowGraph) (closings : List (String × String)) :
      closings.foldl (recordLoop (g.dominatorsFrom entry) (g.numbering entry))
        (found.map id withoutCompounds) =
      (closings.foldl (recordLoop (g.dominatorsFrom entry) (g.numbering entry)) found).map id
        withoutCompounds :=
    List.foldl_hom (Prod.map id withoutCompounds) fun found closing =>
      recordLoop_withoutCompounds _ _ found closing
  have ended := hom ([], g.recordNumbers (g.numbering entry)) (Level.tracedClosings [] levels)
  rw [Except.ok.inj ran] at ended
  exact congrArg Except.ok ended

end FlowGraph

end ControlFlow
