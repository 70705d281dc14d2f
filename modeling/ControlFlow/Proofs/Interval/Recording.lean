import ControlFlow.Proofs.Interval.Closings
import ControlFlow.Proofs.Interval.LoopNotes

/-! Which loops are written down. Of the closing edges, in the order in which they are found, each
is written down unless its latch is a member of a loop written down before. So no two loops share a
latch, and a loop is left out exactly when its latch is a member of one inside it. -/
namespace ControlFlow.FlowGraph

variable {g h : FlowGraph} {dom : DominatorTree} {numbering : Numbering} {id start : NodeId}
variable {kept : List (NodeId × NodeId)} {found : List Region × FlowGraph}

/-- Whether a node is in a loop that is written down. -/
def inSomeLoop (g : FlowGraph) (id : NodeId) : Bool :=
  (g.notes? id).any fun notes => notes.loopHead.isSome

/-- The record of a loop, by its head and its latch. -/
def loopRegion (g : FlowGraph) (dom : DominatorTree) (numbering : Numbering)
    (loop : NodeId × NodeId) : Region :=
  .loop (g.loopFinding dom numbering loop).1 (g.label loop.1) (g.label loop.2)
    ((g.loopFinding dom numbering loop).2.map g.label)

/-- Keeps one more loop unless its latch is a member of one that is kept. -/
def keepLoop (g : FlowGraph) (dom : DominatorTree) (numbering : Numbering)
    (kept : List (NodeId × NodeId)) (loop : NodeId × NodeId) : List (NodeId × NodeId) :=
  if kept.any fun other => (g.loopMembers dom numbering other.1 other.2).contains loop.2 then kept
  else kept ++ [loop]

/-! ## Graphs that differ in annotations -/

namespace SameCore

variable (same : g.SameCore h)
include same

theorem loopMembers : g.loopMembers = h.loopMembers := by
  funext dom numbering head latch
  have natural : g.naturalLoop = h.naturalLoop := by
    funext head latch
    rw [naturalLoop, naturalLoop, same.preds, same.nodeIds]
  simp only [FlowGraph.loopMembers, natural, same.nodeIds]

theorem loopFinding : g.loopFinding = h.loopFinding := by
  have out : g.wayOut? = h.wayOut? := by
    funext members id
    rw [wayOut?, wayOut?, same.succs]
  funext dom numbering loop
  simp only [FlowGraph.loopFinding, same.loopMembers, loopKindOf, loopFollowOf, out, same.succs,
    same.nodeIds]

theorem loopRegion : g.loopRegion = h.loopRegion := by
  funext dom numbering loop
  simp only [FlowGraph.loopRegion, same.loopFinding, same.label]

theorem loopNotesOf : g.loopNotesOf = h.loopNotesOf := by
  funext dom numbering loops id
  simp only [FlowGraph.loopNotesOf, same.loopMembers, same.loopFinding]

end SameCore

/-! ## Runs -/

theorem closingNodes?_eq_some_iff {closing : String × String} {head latch : NodeId} :
    g.closingNodes? closing = some (head, latch) ↔
      g.find? closing.1 = some head ∧ g.find? closing.2 = some latch := by
  simp only [closingNodes?, Option.bind_eq_some_iff, Option.map_eq_some_iff, Prod.mk.injEq]
  constructor
  · rintro ⟨a, first, b, second, rfl, rfl⟩
    exact ⟨first, second⟩
  · rintro ⟨first, second⟩
    exact ⟨head, first, latch, second, rfl, rfl⟩

/-- A closing edge is written down unless its latch is in a loop. -/
theorem recordLoop_eq {regions : List Region} {closing : String × String} {head latch : NodeId}
    (named : g.closingNodes? closing = some (head, latch)) :
    recordLoop dom numbering (regions, g) closing =
      if g.inSomeLoop latch then (regions, g)
      else (regions ++ [g.loopRegion dom numbering (head, latch)],
        g.annotateLoop (g.loopMembers dom numbering head latch)
          (g.loopFinding dom numbering (head, latch)).1
          (g.loopFinding dom numbering (head, latch)).2 head latch) := by
  obtain ⟨headFound, latchFound⟩ := closingNodes?_eq_some_iff.mp named
  simp only [recordLoop, headFound, latchFound]
  rfl

/-- A closing edge without live ends is passed over. -/
theorem recordLoop_eq_self {closing : String × String} (named : g.closingNodes? closing = none)
    (core : found.2.SameCore g) : recordLoop dom numbering found closing = found := by
  obtain ⟨regions, k⟩ := found
  have same : k.find? = g.find? := core.find?_eq
  simp only [recordLoop, same]
  cases head : g.find? closing.1 with
  | none => rfl
  | some a =>
    cases latch : g.find? closing.2 with
    | none => rfl
    | some b => simp [closingNodes?, head, latch] at named

/-- Where the search for loops stands once it has kept some loops. -/
structure Recorded (g : FlowGraph) (dom : DominatorTree) (numbering : Numbering)
    (kept : List (NodeId × NodeId)) (found : List Region × FlowGraph) : Prop where
  regions : found.1 = kept.map (g.loopRegion dom numbering)
  core : found.2.SameCore g
  notes : ∀ id ∈ g.nodeIds, found.2.loopNotes? id = some (g.loopNotesOf dom numbering kept id)

namespace Recorded

/-- A node is in a loop that is written down if it is a member of one that is kept. -/
theorem inSomeLoop_eq (recorded : Recorded g dom numbering kept found) (live : id ∈ g.nodeIds) :
    found.2.inSomeLoop id =
      kept.any fun loop => (g.loopMembers dom numbering loop.1 loop.2).contains id := by
  have noted := recorded.notes id live
  obtain ⟨notes, present, loops⟩ := Option.map_eq_some_iff.mp noted
  have head : notes.loopHead = (g.loopNotesOf dom numbering kept id).head :=
    congrArg LoopNotes.head loops
  rw [inSomeLoop, present, Option.any_some, head, loopNotesOf, Option.isSome_map,
    Bool.eq_iff_iff, List.find?_isSome, List.any_eq_true]

theorem recordLoop (recorded : Recorded g dom numbering kept found) {closing : String × String}
    {loop : NodeId × NodeId} (named : g.closingNodes? closing = some loop) :
    Recorded g dom numbering (g.keepLoop dom numbering kept loop)
      (recordLoop dom numbering found closing) := by
  obtain ⟨regions, k⟩ := found
  obtain ⟨head, latch⟩ := loop
  have core : k.SameCore g := recorded.core
  have latchLive := find?_live (closingNodes?_eq_some_iff.mp named).2
  have marked : k.inSomeLoop latch = _ := recorded.inSomeLoop_eq latchLive
  have named' : k.closingNodes? closing = some (head, latch) := by
    rw [closingNodes?, core.find?_eq]
    exact named
  rw [recordLoop_eq named', keepLoop, ← marked, core.loopRegion, core.loopMembers,
    core.loopFinding]
  split
  · exact recorded
  · refine ⟨?_, (sameCore_annotateLoop _ _ _ _ _).trans core, fun id live => ?_⟩
    · have before : regions = kept.map (g.loopRegion dom numbering) := recorded.regions
      rw [List.map_append, List.map_singleton, before]
    · have before : k.loopNotes? id = some (g.loopNotesOf dom numbering kept id) :=
        recorded.notes id live
      rw [loopNotes?_annotateLoop, before, Option.map_some, loopNotesOf_concat]

theorem foldl_recordLoop (recorded : Recorded g dom numbering kept found)
    (closings : List (String × String)) :
    Recorded g dom numbering
      ((closings.filterMap g.closingNodes?).foldl (g.keepLoop dom numbering) kept)
      (closings.foldl (FlowGraph.recordLoop dom numbering) found) := by
  induction closings generalizing kept found with
  | nil => exact recorded
  | cons closing rest ih =>
    cases named : g.closingNodes? closing with
    | none =>
      rw [List.filterMap_cons_none named, List.foldl_cons,
        recordLoop_eq_self named recorded.core]
      exact ih recorded
    | some loop =>
      rw [List.filterMap_cons_some named]
      exact ih (recorded.recordLoop named)

end Recorded

/-! ## Which loops are kept -/

/-- Of some loops those are kept with a latch that is no member of one kept before. -/
structure Keeps (g : FlowGraph) (dom : DominatorTree) (numbering : Numbering)
    (loops kept : List (NodeId × NodeId)) : Prop where
  sublist : kept.Sublist loops
  apart : kept.Pairwise fun earlier later =>
    later.2 ∉ g.loopMembers dom numbering earlier.1 earlier.2
  covered : ∀ loop ∈ loops, loop ∈ kept ∨ ∃ other ∈ kept,
    loop.2 ∈ g.loopMembers dom numbering other.1 other.2 ∧ [other, loop].Sublist loops

theorem foldl_keepLoop (g : FlowGraph) (dom : DominatorTree) (numbering : Numbering)
    (loops : List (NodeId × NodeId)) :
    Keeps g dom numbering loops (loops.foldl (g.keepLoop dom numbering) []) := by
  induction loops using List.reverseRecOn with
  | nil => exact ⟨.refl _, .nil, nofun⟩
  | append_singleton loops last ih =>
    rw [List.foldl_append, List.foldl_cons, List.foldl_nil, keepLoop]
    generalize loops.foldl (g.keepLoop dom numbering) [] = kept at ih ⊢
    have before (loop : NodeId × NodeId) (member : loop ∈ loops) :
        loop ∈ kept ∨ ∃ other ∈ kept, loop.2 ∈ g.loopMembers dom numbering other.1 other.2 ∧
          [other, loop].Sublist (loops ++ [last]) := by
      rcases ih.covered loop member with isKept | ⟨other, isKept, inside, order⟩
      · exact .inl isKept
      · exact .inr ⟨other, isKept, inside, order.trans (List.sublist_append_left _ _)⟩
    split
    · next refused =>
      simp only [List.any_eq_true, List.contains_iff_mem] at refused
      obtain ⟨other, isKept, inside⟩ := refused
      refine ⟨ih.sublist.trans (List.sublist_append_left _ _), ih.apart, fun loop member => ?_⟩
      rcases List.mem_append.mp member with old | new
      · exact before loop old
      · rw [List.mem_singleton.mp new]
        have order := List.singleton_sublist.mpr (ih.sublist.subset isKept)
        exact .inr ⟨other, isKept, inside, order.append (.refl [last])⟩
    · next free =>
      simp only [List.any_eq_true, List.contains_iff_mem, not_exists, not_and] at free
      refine ⟨ih.sublist.append (.refl _), ?_, fun loop member => ?_⟩
      · refine List.pairwise_append.mpr ⟨ih.apart, List.pairwise_singleton _ _, ?_⟩
        intro earlier isKept later new
        rw [List.mem_singleton.mp new]
        exact free earlier isKept
      · rcases List.mem_append.mp member with old | new
        · rcases before loop old with isKept | ⟨other, isKept, rest⟩
          · exact .inl (List.mem_append_left _ isKept)
          · exact .inr ⟨other, List.mem_append_left _ isKept, rest⟩
        · exact .inl (List.mem_append_right _ new)

end ControlFlow.FlowGraph
