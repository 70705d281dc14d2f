import ControlFlow.Proofs.Interval.Loops

/-! What is noted of loops. A loop that is written down gives its head to those of its members that
have none yet, and its kind and its follow to its head, whatever was noted there before. So of several
loops around a node the first one leaves its head at the node, and of several loops with one head the
last one leaves its kind and its follow there. -/
namespace ControlFlow

/-- What is noted of a node about loops. -/
structure LoopNotes where
  /-- The head of a loop around the node. -/
  head : Option NodeId
  /-- The kind and the follow of the loop that the node heads. -/
  kind : Option LoopKind
  follow : Option NodeId
  /-- Whether the node closes a loop. -/
  latch : Bool
deriving DecidableEq

namespace LoopNotes

/-- Nothing is noted. -/
def blank : LoopNotes := ⟨none, none, none, false⟩

/-- The notes of a node once a loop has been written down. -/
def write (notes : LoopNotes) (members : List NodeId) (kind : LoopKind) (follow : Option NodeId)
    (head latch id : NodeId) : LoopNotes where
  head := if id ∈ members then notes.head.or (some head) else notes.head
  kind := if id = head then some kind else notes.kind
  follow := if id = head then follow else notes.follow
  latch := notes.latch || latch == id

end LoopNotes

def Notes.loops (notes : Notes) : LoopNotes :=
  ⟨notes.loopHead, notes.loopKind, notes.loopFollow, notes.isLatch⟩

namespace FlowGraph

variable {g h : FlowGraph} {dom : DominatorTree} {numbering : Numbering} {id other : NodeId}
variable {loops : List (NodeId × NodeId)} {loop : NodeId × NodeId}

def loopNotes? (g : FlowGraph) (id : NodeId) : Option LoopNotes := (g.notes? id).map Notes.loops

/-! ## Writing one loop down -/

/-- A change of the notes of one node shows there and nowhere else. -/
theorem loopNotes?_annotate {change : Notes → Notes} {effect : LoopNotes → LoopNotes}
    (acts : ∀ notes, (change notes).loops = effect notes.loops) (id other : NodeId) :
    (g.annotate id change).loopNotes? other =
      (g.loopNotes? other).map fun notes => if other = id then effect notes else notes := by
  by_cases same : other = id
  · subst same
    simp only [loopNotes?, annotate_notes?_self, Option.map_map, if_true]
    congr 1
    funext notes
    exact acts notes
  · simp [loopNotes?, annotate_notes? same, same, Function.comp_def]

theorem loopNotes?_annotate_eq {change : Notes → Notes}
    (keeps : ∀ notes, (change notes).loops = notes.loops) (id : NodeId) :
    (g.annotate id change).loopNotes? = g.loopNotes? := by
  funext other
  have acts : (g.annotate id change).loopNotes? other =
      (g.loopNotes? other).map fun notes => if other = id then notes else notes :=
    loopNotes?_annotate keeps id other
  simpa using acts

theorem loopNotes?_annotateMembers (members : List NodeId) (head other : NodeId) :
    (members.foldl (fun g id => g.annotate id fun notes =>
      { notes with loopHead := notes.loopHead.or (some head) }) g).loopNotes? other =
        (g.loopNotes? other).map fun notes => { notes with
          head := if other ∈ members then notes.head.or (some head) else notes.head } := by
  induction members generalizing g with
  | nil => simp
  | cons id rest ih =>
    have first : (g.annotate id fun notes =>
        { notes with loopHead := notes.loopHead.or (some head) }).loopNotes? other =
          (g.loopNotes? other).map fun notes =>
            if other = id then { notes with head := notes.head.or (some head) } else notes :=
      loopNotes?_annotate (fun _ => rfl) id other
    rw [List.foldl_cons, ih, first, Option.map_map]
    congr 1
    funext notes
    by_cases same : other = id
    · by_cases again : id ∈ rest <;> simp [same, again]
    · simp [same]

theorem loopNotes?_annotateLoop (members : List NodeId) (kind : LoopKind)
    (follow : Option NodeId) (head latch other : NodeId) :
    (g.annotateLoop members kind follow head latch).loopNotes? other =
      (g.loopNotes? other).map fun notes =>
        notes.write members kind follow head latch other := by
  have atHead (k : FlowGraph) : (k.annotate head fun notes =>
      { notes with loopKind := some kind, loopFollow := follow }).loopNotes? other =
        (k.loopNotes? other).map fun notes =>
          if other = head then { notes with kind := some kind, follow := follow } else notes :=
    loopNotes?_annotate (fun _ => rfl) head other
  have atLatch (k : FlowGraph) : (k.annotate latch fun notes =>
      { notes with isLatch := true }).loopNotes? other =
        (k.loopNotes? other).map fun notes =>
          if other = latch then { notes with latch := true } else notes :=
    loopNotes?_annotate (fun _ => rfl) latch other
  rw [annotateLoop, atLatch, atHead, loopNotes?_annotateMembers, Option.map_map, Option.map_map]
  congr 1
  funext notes
  by_cases headed : other = head
  · subst headed
    by_cases closed : other = latch
    · simp [LoopNotes.write, closed]
    · simp [LoopNotes.write, closed, Ne.symm closed]
  · by_cases closed : other = latch
    · subst closed
      simp [LoopNotes.write, headed]
    · simp [LoopNotes.write, headed, closed, Ne.symm closed]

/-! ## Nothing noted yet -/

/-- No node is in a loop yet, heads one or closes one. -/
def Unlooped (g : FlowGraph) : Prop := ∀ id notes, g.loopNotes? id = some notes → notes = .blank

namespace Unlooped

theorem loopNotes?_eq (unlooped : g.Unlooped) (live : id ∈ g.nodeIds) :
    g.loopNotes? id = some .blank := by
  obtain ⟨n, member, rfl⟩ := mem_nodeIds.mp live
  have found : (g.node? n.id).isSome = true := List.find?_isSome.mpr ⟨n, member, by simp⟩
  obtain ⟨m, found⟩ := Option.isSome_iff_exists.mp found
  have noted : g.loopNotes? n.id = some m.notes.loops := by simp [loopNotes?, notes?, found]
  rw [noted, unlooped n.id m.notes.loops noted]

theorem of_eq (unlooped : g.Unlooped) (same : h.loopNotes? = g.loopNotes?) : h.Unlooped := by
  intro id notes noted
  exact unlooped id notes (same ▸ noted)

theorem resetAnnotations (g : FlowGraph) : g.resetAnnotations.Unlooped := by
  intro id notes noted
  simp only [loopNotes?, notes?, Option.map_map, Option.map_eq_some_iff] at noted
  obtain ⟨n, found, rfl⟩ := noted
  obtain ⟨m, -, rfl⟩ := List.mem_map.mp (List.mem_of_find?_eq_some found)
  rfl

theorem removeNode (unlooped : g.Unlooped) (id : NodeId) : (g.removeNode id).Unlooped := by
  intro other notes noted
  by_cases same : other = id
  · subst same
    have gone : (g.removeNode other).node? other = none := by simp [node?, FlowGraph.removeNode]
    simp [loopNotes?, notes?, gone] at noted
  · apply unlooped other
    rwa [loopNotes?, notes?, removeNode_node? same] at noted

end Unlooped

theorem loopNotes?_recordNumbers (numbering : Numbering) :
    (g.recordNumbers numbering).loopNotes? = g.loopNotes? := by
  funext id
  exact recordNumbers_notes? (fun _ _ _ _ => rfl) numbering id

/-! ## Writing loops down -/

/-- The kind and the follow of a loop. -/
def loopFinding (g : FlowGraph) (dom : DominatorTree) (numbering : Numbering)
    (loop : NodeId × NodeId) : LoopKind × Option NodeId :=
  let members := g.loopMembers dom numbering loop.1 loop.2
  let kind := g.loopKindOf members loop.1 loop.2
  (kind, g.loopFollowOf numbering members kind loop.1 loop.2)

/-- The last loop of a head. -/
def lastOf (loops : List (NodeId × NodeId)) (head : NodeId) : Option (NodeId × NodeId) :=
  (loops.filter (·.1 == head)).getLast?

/-- What some loops leave in the notes of a node when they are written down one after the other. -/
def loopNotesOf (g : FlowGraph) (dom : DominatorTree) (numbering : Numbering)
    (loops : List (NodeId × NodeId)) (id : NodeId) : LoopNotes where
  head := (loops.find? fun loop =>
    (g.loopMembers dom numbering loop.1 loop.2).contains id).map Prod.fst
  kind := (lastOf loops id).map fun loop => (g.loopFinding dom numbering loop).1
  follow := (lastOf loops id).bind fun loop => (g.loopFinding dom numbering loop).2
  latch := loops.any (·.2 == id)

theorem lastOf_concat : lastOf (loops ++ [loop]) id =
    if id = loop.1 then some loop else lastOf loops id := by
  by_cases headed : loop.1 = id
  · simp [lastOf, headed]
  · simp [lastOf, headed, Ne.symm headed]

theorem loopNotesOf_concat : g.loopNotesOf dom numbering (loops ++ [loop]) id =
    (g.loopNotesOf dom numbering loops id).write (g.loopMembers dom numbering loop.1 loop.2)
      (g.loopFinding dom numbering loop).1 (g.loopFinding dom numbering loop).2 loop.1 loop.2
      id := by
  simp only [loopNotesOf, LoopNotes.write, lastOf_concat, LoopNotes.mk.injEq]
  refine ⟨?_, ?_, ?_, ?_⟩
  · rw [List.find?_append, Option.map_or]
    by_cases member : id ∈ g.loopMembers dom numbering loop.1 loop.2 <;> simp [member]
  · split <;> rfl
  · split <;> rfl
  · simp

end FlowGraph

end ControlFlow
