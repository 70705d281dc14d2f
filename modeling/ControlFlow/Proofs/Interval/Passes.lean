import ControlFlow.Interval.Follow
import ControlFlow.Proofs.Interval.Contraction
import ControlFlow.Proofs.Interval.Loops

/-! What a pass leaves alone. All passes write down numbers. Besides these, joining tests writes
down compound conditions, a search for follows writes down follows, and the search for loops what it
has found of loops; the rest of the notes of a node stays as it was. -/
namespace ControlFlow.FlowGraph

variable {g h k : FlowGraph} {read : Notes → α} {regions : List Region}

/-- Two graphs whose notes read the same at every node. -/
def SameNotes (read : Notes → α) (g h : FlowGraph) : Prop :=
  ∀ id, (g.notes? id).map read = (h.notes? id).map read

/-- What is read off the notes of a node does not depend on its numbers. -/
def Numberless (read : Notes → α) : Prop :=
  ∀ notes pre post rev,
    read { notes with preNum := pre, postNum := post, revPostNum := rev } = read notes

namespace SameNotes

theorem refl (read : Notes → α) (g : FlowGraph) : SameNotes read g g := fun _ => Eq.refl _

theorem trans (first : SameNotes read g h) (second : SameNotes read h k) : SameNotes read g k :=
  fun id => (first id).trans (second id)

theorem bind_eq {read : Notes → Option α} (same : SameNotes read g h) (id : NodeId) :
    (g.notes? id).bind read = (h.notes? id).bind read := by
  have found := congrArg (Option.bind · fun found => found) (same id)
  simpa [Option.bind_map, Function.comp_def] using found

theorem annotate {change : Notes → Notes} (keeps : ∀ notes, read (change notes) = read notes)
    (id : NodeId) : SameNotes read (g.annotate id change) g := by
  intro other
  by_cases same : other = id
  · subst same
    rw [annotate_notes?_self, Option.map_map]
    congr 1
    funext notes
    exact keeps notes
  · rw [annotate_notes? same]

theorem foldl_annotate {change : Notes → Notes} (keeps : ∀ notes, read (change notes) = read notes)
    (ids : List NodeId) : SameNotes read (ids.foldl (fun g id => g.annotate id change) g) g := by
  induction ids generalizing g with
  | nil => exact refl read g
  | cons id rest ih => exact ih.trans (annotate keeps id)

theorem recordNumbers (numberless : Numberless read) (numbering : Numbering) :
    SameNotes read (g.recordNumbers numbering) g := recordNumbers_notes? numberless numbering

theorem number {numbering : Numbering} (numberless : Numberless read)
    (numbered : g.number = .ok (numbering, h)) : SameNotes read h g := by
  obtain ⟨start, -, -, rfl⟩ := number_eq_ok_iff.mp numbered
  exact recordNumbers numberless (g.numbering start)

/-- A search for follows leaves alone what is neither a number nor a follow. -/
theorem followSearch {search : FollowSearch} (numberless : Numberless read)
    (keeps : ∀ notes follow, read { notes with follow := follow } = read notes)
    (ran : search.run g = .ok (regions, h)) : SameNotes read h g := by
  obtain ⟨⟨numbering, numbered⟩, first, ran⟩ := bind_eq_ok_iff.mp ran
  obtain ⟨dom, -, ran⟩ := bind_eq_ok_iff.mp ran
  cases ran
  have visit (state : FollowState) (id : NodeId) :
      SameNotes read (search.visit dom numbering state id).graph state.graph := by
    unfold FollowSearch.visit
    dsimp only
    split
    · split
      · exact foldl_annotate (fun notes => keeps notes _) _
      · exact refl read state.graph
    · exact refl read state.graph
  have visits (ids : List NodeId) (state : FollowState) :
      SameNotes read (ids.foldl (search.visit dom numbering) state).graph state.graph := by
    induction ids generalizing state with
    | nil => exact refl read state.graph
    | cons id rest ih => exact (ih _).trans (visit state id)
  exact (visits _ _).trans (number numberless first)

/-- The search for loops leaves alone what is neither a number nor about loops. -/
theorem structureLoops (numberless : Numberless read)
    (keeps : ∀ notes head kind follow latch, read { notes with
      loopHead := head, loopKind := kind, loopFollow := follow, isLatch := latch } = read notes)
    (ran : g.structureLoops = .ok (regions, h)) : SameNotes read h g := by
  obtain ⟨⟨numbering, numbered⟩, first, ran⟩ := bind_eq_ok_iff.mp ran
  obtain ⟨dom, -, ran⟩ := bind_eq_ok_iff.mp ran
  obtain ⟨levels, -, ran⟩ := bind_eq_ok_iff.mp ran
  have annotateLoop (k : FlowGraph) (members : List NodeId) (kind : LoopKind)
      (follow : Option NodeId) (head latch : NodeId) :
      SameNotes read (k.annotateLoop members kind follow head latch) k := by
    refine (annotate (fun notes => ?_) latch).trans ((annotate (fun notes => ?_) head).trans
      (foldl_annotate (fun notes => ?_) members))
    · exact keeps notes _ _ _ _
    · exact keeps notes _ _ _ _
    · exact keeps notes _ _ _ _
  have recordLoop (found : List Region × FlowGraph) (closing : String × String) :
      SameNotes read (recordLoop dom numbering found closing).2 found.2 := by
    unfold FlowGraph.recordLoop
    dsimp only
    split
    · split
      · exact refl read found.2
      · exact annotateLoop _ _ _ _ _ _
    · exact refl read found.2
  have recordLoops (closings : List (String × String)) (found : List Region × FlowGraph) :
      SameNotes read (closings.foldl (FlowGraph.recordLoop dom numbering) found).2 found.2 := by
    induction closings generalizing found with
    | nil => exact refl read found.2
    | cons closing rest ih => exact (ih _).trans (recordLoop found closing)
  have ended := recordLoops (Level.tracedClosings [] levels) ([], numbered)
  rw [Except.ok.inj ran] at ended
  exact ended.trans (number numberless first)

end SameNotes

/-! ## Nothing noted yet -/

/-- What is read off the notes of the nodes tells no more than their attributes do. -/
def Unmarked (read : Notes → α) (g : FlowGraph) : Prop :=
  ∀ n ∈ g.nodes, read n.notes = read (.ofAttrs n.attrs)

namespace Unmarked

theorem resetAnnotations (read : Notes → α) (g : FlowGraph) :
    Unmarked read g.resetAnnotations := by
  intro n member
  obtain ⟨m, -, rfl⟩ := List.mem_map.mp member
  rfl

theorem annotate (unmarked : Unmarked read g) {change : Notes → Notes}
    (keeps : ∀ notes, read (change notes) = read notes) (id : NodeId) :
    Unmarked read (g.annotate id change) := by
  intro n member
  obtain ⟨m, listed, rfl⟩ := List.mem_map.mp member
  split
  · exact (keeps m.notes).trans (unmarked m listed)
  · exact unmarked m listed

theorem recordNumbers (unmarked : Unmarked read g) (numberless : Numberless read)
    (numbering : Numbering) : Unmarked read (g.recordNumbers numbering) := by
  intro n member
  obtain ⟨m, listed, rfl⟩ := List.mem_map.mp member
  split
  · exact (numberless m.notes _ _ _).trans (unmarked m listed)
  · exact unmarked m listed

/-- Joining tests writes down numbers and compound conditions only. -/
theorem contractWithin {bound : Nat} (unmarked : Unmarked read g) (numberless : Numberless read)
    (keeps : ∀ notes compound, read { notes with compound := compound } = read notes)
    (wf : g.WellFormed) (ran : ShortCircuit.contractWithin bound g = .ok (regions, h)) :
    Unmarked read h := by
  refine ShortCircuit.contractWithin_induct (motive := Unmarked read)
    (fun k numbering before => before.recordNumbers numberless numbering)
    (fun k c _ _ before => ?_) wf unmarked ran
  have removed : Unmarked read (k.removeNode c.inner) := by
    intro n member
    exact before n (List.mem_of_mem_filter member)
  refine annotate (g := (k.removeNode c.inner).insertEdge ⟨c.outer, c.target, c.attrs k⟩)
    removed (fun notes => ?_) c.outer
  exact keeps notes _

end Unmarked

end ControlFlow.FlowGraph
