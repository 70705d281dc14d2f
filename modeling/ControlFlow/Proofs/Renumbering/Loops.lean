import ControlFlow.Proofs.Renumbering.Annotations
import ControlFlow.Proofs.Renumbering.Interval

/-! Loops of renumbered graphs. The edges that close loops are handed from level to level by their
labels, so the same ones are found for both graphs. What is then found out about each loop are
nodes of its own graph, which correspond, and the record of it, which is the same. -/
namespace ControlFlow

variable {ren : NodeId → NodeId} {g h : FlowGraph}

section

variable {α β : Type} {f : α → β} {key : α → Nat} {key' : β → Nat}
  (keys : ∀ a, key' (f a) = key a) (items : List α)
include keys

theorem greatest?_map : greatest? key' (items.map f) = (greatest? key items).map f := by
  rw [greatest?, greatest?, List.foldl_map]
  show items.foldl _ (Option.map f none) = _
  refine List.foldl_hom (Option.map f) fun best a => ?_
  cases best with
  | none => rfl
  | some other =>
    simp only [Option.map_some, keys]
    split <;> rfl

theorem least?_map : least? key' (items.map f) = (least? key items).map f := by
  rw [least?, least?, List.foldl_map]
  show items.foldl _ (Option.map f none) = _
  refine List.foldl_hom (Option.map f) fun best a => ?_
  cases best with
  | none => rfl
  | some other =>
    simp only [Option.map_some, keys]
    split <;> rfl

end

/-! ## Closing edges -/

namespace Level

variable {level level' : Level}

section

variable (same : level.graph.Renumbers ren level'.graph)
include same

theorem numbering_renumber : level'.numbering = level.numbering.renumber ren := by
  rw [numbering, numbering, same.entry_eq]
  cases level.graph.entry? with
  | none => rfl
  | some entry => exact same.numbering entry

theorem latestPred?_renumber (i : Interval) (id : NodeId) :
    level'.latestPred? (i.renumber ren) (ren id) = (level.latestPred? i id).map ren := by
  rw [latestPred?, latestPred?, same.preds, List.filter_map, numbering_renumber same,
    greatest?_map (Numbering.rank_renumber same.injective level.numbering)]
  simp only [Function.comp_def, Interval.renumber, same.contains_map]

end

theorem Alike.closings (alike : level.Alike level') : level'.closings = level.closings := by
  obtain ⟨ren, same, intervals⟩ := alike
  rw [Level.closings, Level.closings, intervals, List.filterMap_map]
  refine List.filterMap_congr fun i _ => ?_
  rw [Function.comp_apply, show (i.renumber ren).header = ren i.header from rfl,
    latestPred?_renumber same, Option.map_map]
  simp only [Function.comp_def, same.label]

theorem Alike.descend? (alike : level.Alike level') (head latch : String) :
    level'.descend? head latch = level.descend? head latch := by
  obtain ⟨ren, same, intervals⟩ := alike
  simp only [Level.descend?, same.find?, intervals, List.find?_map, Function.comp_def,
    Interval.renumber, same.label, Option.bind_eq_bind, Option.bind_map]
  congr 1
  funext id
  congr 1
  funext i
  have latest := latestPred?_renumber same i id
  simp only [Interval.renumber] at latest
  simp only [latest, Option.bind_map, Function.comp_def, same.label]

theorem traceBack_alike {below below' : List Level} (passed : List.Forall₂ Alike below below')
    (head latch : String) :
    below'.foldlM (fun latch (level : Level) => level.descend? head latch) latch =
      below.foldlM (fun latch (level : Level) => level.descend? head latch) latch := by
  induction passed generalizing latch with
  | nil => rfl
  | cons first rest ih => simp only [List.foldlM_cons, first.descend?, ih]

/-- The same closing edges are traced back to the first level. -/
theorem tracedClosings_alike {below below' levels levels' : List Level}
    (passed : List.Forall₂ Alike below below') (alike : List.Forall₂ Alike levels levels') :
    tracedClosings below' levels' = tracedClosings below levels := by
  induction alike generalizing below below' with
  | nil => rfl
  | cons first rest ih =>
    simp only [tracedClosings, first.closings, traceBack_alike passed, ih (.cons first passed)]

end Level

namespace FlowGraph

namespace Renumbers

variable (same : Renumbers ren g h) (dom : DominatorTree) (numbering : Numbering)
  (members : List NodeId) (head latch : NodeId)
include same

/-! ## What is found out about a loop -/

theorem naturalLoop : h.naturalLoop (ren head) (ren latch) = (g.naturalLoop head latch).map ren := by
  have available : h.nodeIds.filter (· != ren head) = (g.nodeIds.filter (· != head)).map ren := by
    simp only [same.nodeIds, List.filter_map, Function.comp_def, same.bne]
  have searched := searchFrom_renumber same.injective same.preds
    (g.nodeIds.filter (· != head)) [latch]
  rw [FlowGraph.naturalLoop, FlowGraph.naturalLoop, available, ← List.map_singleton, searched,
    Forest.preorder_renumber, List.map_cons]

theorem loopMembers : h.loopMembers (dom.renumber ren) (numbering.renumber ren) (ren head)
    (ren latch) = (g.loopMembers dom numbering head latch).map ren := by
  simp only [FlowGraph.loopMembers, Numbering.revPostNum?_renumber same.injective]
  split
  · simp only [same.naturalLoop, same.nodeIds, List.filter_map, Function.comp_def,
      same.contains_map, DominatorTree.dominates_renumber same.injective,
      Numbering.revPostNum?_renumber same.injective]
  · rfl

theorem loopKindOf : h.loopKindOf (members.map ren) (ren head) (ren latch) =
    g.loopKindOf members head latch := by
  simp only [FlowGraph.loopKindOf, same.succs, List.length_map, same.beq, List.all_map,
    Function.comp_def, same.contains_map]

theorem wayOut? (id : NodeId) :
    h.wayOut? (members.map ren) (ren id) = (g.wayOut? members id).map ren := by
  simp only [FlowGraph.wayOut?, same.succs, List.find?_map, Function.comp_def, same.contains_map]

theorem loopFollowOf (kind : LoopKind) :
    h.loopFollowOf (numbering.renumber ren) (members.map ren) kind (ren head) (ren latch) =
      (g.loopFollowOf numbering members kind head latch).map ren := by
  cases kind with
  | pre => exact same.wayOut? members head
  | post => exact same.wayOut? members latch
  | endless =>
    have exits : (h.nodeIds.filterMap fun id =>
        if (members.map ren).contains id && (h.succs id).length == 2 then
          (h.wayOut? (members.map ren) id).map fun exit =>
            ((numbering.renumber ren).rank id, exit)
        else none) =
        (g.nodeIds.filterMap fun id =>
          if members.contains id && (g.succs id).length == 2 then
            (g.wayOut? members id).map fun exit => (numbering.rank id, exit)
          else none).map (Prod.map id ren) := by
      rw [same.nodeIds, List.filterMap_map, List.map_filterMap]
      refine List.filterMap_congr fun id _ => ?_
      simp only [Function.comp_apply, same.contains_map, same.succs, List.length_map, same.wayOut?,
        Numbering.rank_renumber same.injective, Option.map_map]
      split
      · rw [Option.map_map]
        rfl
      · rfl
    simp only [FlowGraph.loopFollowOf, exits]
    rw [least?_map (f := Prod.map id ren) (fun _ => rfl), Option.map_map, Option.map_map]
    rfl

end Renumbers

/-- The same regions have been recorded, and the graphs are annotated alike. -/
structure Findings (ren : NodeId → NodeId) (found found' : List Region × FlowGraph) : Prop where
  regions : found'.1 = found.1
  annotated : Annotated ren found.2 found'.2

theorem Annotated.annotateLoop (same : Annotated ren g h) (members : List NodeId) (kind : LoopKind)
    (follow : Option NodeId) (head latch : NodeId) :
    Annotated ren (g.annotateLoop members kind follow head latch)
      (h.annotateLoop (members.map ren) kind (follow.map ren) (ren head) (ren latch)) := by
  simp only [FlowGraph.annotateLoop]
  refine ((same.foldl_annotate members ?_).annotate head ?_).annotate latch ?_
  · intro notes
    simp only [Notes.renumber]
    cases notes.loopHead <;> rfl
  · exact fun _ => rfl
  · exact fun _ => rfl

variable {found found' : List Region × FlowGraph}

theorem Findings.recordLoop (findings : Findings ren found found') (dom : DominatorTree)
    (numbering : Numbering) (closing : String × String) :
    Findings ren (FlowGraph.recordLoop dom numbering found closing)
      (FlowGraph.recordLoop (dom.renumber ren) (numbering.renumber ren) found' closing) := by
  obtain ⟨regions, g⟩ := found
  obtain ⟨_, h⟩ := found'
  obtain ⟨rfl, annotated⟩ := findings
  have same := annotated.renumbers
  simp only [FlowGraph.recordLoop, same.find?]
  cases g.find? closing.1 with
  | none => exact ⟨rfl, annotated⟩
  | some head => cases g.find? closing.2 with
    | none => exact ⟨rfl, annotated⟩
    | some latch =>
      simp only [Option.map_some, annotated.notes?, Option.any_map, Function.comp_def,
        Notes.renumber, Option.isSome_map, same.loopMembers, same.loopKindOf, same.loopFollowOf,
        same.label, Option.map_map]
      split
      · exact ⟨rfl, annotated⟩
      · exact ⟨rfl, annotated.annotateLoop _ _ _ head latch⟩

theorem Findings.foldl_recordLoop (findings : Findings ren found found') (dom : DominatorTree)
    (numbering : Numbering) (closings : List (String × String)) :
    Findings ren (closings.foldl (FlowGraph.recordLoop dom numbering) found)
      (closings.foldl (FlowGraph.recordLoop (dom.renumber ren) (numbering.renumber ren)) found') := by
  induction closings generalizing found found' with
  | nil => exact findings
  | cons closing closings ih => exact ih (findings.recordLoop dom numbering closing)

/-- The same loops are found. -/
theorem Annotated.structureLoops (same : Annotated ren g h) :
    Agree (Findings ren) g.structureLoops h.structureLoops := by
  refine same.number.bind ?_
  rintro ⟨numbering, k⟩ ⟨_, k'⟩ ⟨rfl, same⟩
  refine same.renumbers.dominators.bind ?_
  rintro dom _ rfl
  refine same.renumbers.derivedSequence.bind fun levels levels' alike => ?_
  rw [Level.tracedClosings_alike .nil alike]
  have start : Findings ren ([], k) ([], k') := ⟨rfl, same⟩
  exact start.foldl_recordLoop dom numbering _

end FlowGraph

end ControlFlow
