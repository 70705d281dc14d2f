import ControlFlow.Graph.Dominators
import ControlFlow.Proofs.Renumbering.Basic

/-! Searches and dominators of renumbered graphs. A search follows the lists of successors and never
compares numbers but for equality, so it takes the same course in a renumbered graph. The same holds
of the places of nodes in its orders and of the refinement that finds dominators. -/
namespace ControlFlow

variable {ren : NodeId → NodeId} {g h : FlowGraph}

/-! ## New numbers for what a search finds -/

namespace Forest

/-- A forest with new numbers for its nodes. -/
def renumber (ren : NodeId → NodeId) : Forest → Forest
  | empty => empty
  | tree root below right => tree (ren root) (below.renumber ren) (right.renumber ren)

@[simp] theorem preorder_renumber (forest : Forest) :
    (forest.renumber ren).preorder = forest.preorder.map ren := by
  induction forest with
  | empty => rfl
  | tree root below right ihBelow ihRight => simp [renumber, preorder, ihBelow, ihRight]

@[simp] theorem postorder_renumber (forest : Forest) :
    (forest.renumber ren).postorder = forest.postorder.map ren := by
  induction forest with
  | empty => rfl
  | tree root below right ihBelow ihRight => simp [renumber, postorder, ihBelow, ihRight]

end Forest

section

variable {succs succs' : NodeId → List NodeId} (injective : Function.Injective ren)
  (follows : ∀ id, succs' (ren id) = (succs id).map ren)
include injective

theorem searchRoots_renumber {descend descend' : List NodeId → List NodeId → Forest × List NodeId}
    (follows : ∀ id, succs' (ren id) = (succs id).map ren)
    (descends : ∀ available roots, descend' (available.map ren) (roots.map ren) =
      ((descend available roots).1.renumber ren, (descend available roots).2.map ren))
    (available roots : List NodeId) :
    searchRoots succs' descend' (available.map ren) (roots.map ren) =
      ((searchRoots succs descend available roots).1.renumber ren,
        (searchRoots succs descend available roots).2.map ren) := by
  induction roots generalizing available with
  | nil => simp [searchRoots, Forest.renumber]
  | cons root roots ih =>
    have listed : (available.map ren).contains (ren root) = available.contains root := by
      simp [injective.eq_iff]
    rw [List.map_cons, searchRoots, searchRoots, listed]
    -- Both searches descend from the root, or both have met it before.
    split
    · simp only [follows, ← List.map_erase injective, descends, ih, Forest.renumber]
    · exact ih available

include follows

theorem searchTo_renumber (depth : Nat) (available roots : List NodeId) :
    searchTo succs' depth (available.map ren) (roots.map ren) =
      ((searchTo succs depth available roots).1.renumber ren,
        (searchTo succs depth available roots).2.map ren) := by
  induction depth generalizing available roots with
  | zero => rfl
  | succ depth ih => exact searchRoots_renumber injective follows ih available roots

theorem searchFrom_renumber (available roots : List NodeId) :
    searchFrom succs' (available.map ren) (roots.map ren) =
      (searchFrom succs available roots).renumber ren := by
  rw [searchFrom, searchFrom, List.length_map, searchTo_renumber injective follows]

end

namespace Numbering

/-- A numbering of nodes that have got new numbers. -/
def renumber (ren : NodeId → NodeId) (n : Numbering) : Numbering := ⟨n.met.map ren, n.left.map ren⟩

@[simp] theorem count_renumber (n : Numbering) : (n.renumber ren).count = n.count :=
  List.length_map ..

@[simp] theorem reversePostorder_renumber (n : Numbering) :
    (n.renumber ren).reversePostorder = n.reversePostorder.map ren := List.map_reverse.symm

variable (injective : Function.Injective ren) (n : Numbering) (id : NodeId)
include injective

private theorem idxOf?_map (ids : List NodeId) : (ids.map ren).idxOf? (ren id) = ids.idxOf? id := by
  induction ids with
  | nil => rfl
  | cons first rest ih => simp [List.idxOf?_cons, injective.beq_eq, ih]

theorem preNum?_renumber : (n.renumber ren).preNum? (ren id) = n.preNum? id :=
  idxOf?_map injective id n.met

theorem postNum?_renumber : (n.renumber ren).postNum? (ren id) = n.postNum? id :=
  idxOf?_map injective id n.left

theorem revPostNum?_renumber : (n.renumber ren).revPostNum? (ren id) = n.revPostNum? id := by
  rw [revPostNum?, revPostNum?, postNum?_renumber injective, count_renumber]

theorem rank_renumber : (n.renumber ren).rank (ren id) = n.rank id := by
  rw [rank, rank, revPostNum?_renumber injective]

theorem isReachable_renumber : (n.renumber ren).isReachable (ren id) = n.isReachable id := by
  simp [isReachable, renumber, injective.eq_iff]

end Numbering

namespace FlowGraph.Renumbers

variable (same : Renumbers ren g h)
include same

theorem search (start : NodeId) : h.search (ren start) = (g.search start).renumber ren := by
  rw [FlowGraph.search, FlowGraph.search, same.nodeIds]
  exact searchFrom_renumber same.injective same.succs g.nodeIds [start]

theorem numbering (start : NodeId) :
    h.numbering (ren start) = (g.numbering start).renumber ren := by
  simp [FlowGraph.numbering, Numbering.ofForest, Numbering.renumber, same.search]

/-- Both graphs have an entry, or none has. -/
theorem entry : Agree (fun a b => b = ren a) g.entry h.entry := by
  rw [FlowGraph.entry, FlowGraph.entry, same.entry_eq]
  cases g.entry? with
  | none => trivial
  | some entry => exact rfl

theorem validate : Agree (fun _ _ => True) g.validate h.validate := by
  refine same.entry.bind ?_
  rintro entry _ rfl
  have orphan : (h.nodeIds.find? fun id => !(h.numbering (ren entry)).isReachable id) =
      (g.nodeIds.find? fun id => !(g.numbering entry).isReachable id).map ren := by
    rw [same.nodeIds, List.find?_map, same.numbering]
    simp only [Function.comp_def, Numbering.isReachable_renumber same.injective]
  simp only [orphan]
  cases g.nodeIds.find? fun id => !(g.numbering entry).isReachable id <;> trivial

end FlowGraph.Renumbers

/-! ## Dominators -/

private theorem lookup_map {α : Type} (injective : Function.Injective ren) (f : α → α)
    (table : List (NodeId × α)) (id : NodeId) :
    (table.map (Prod.map ren f)).lookup (ren id) = (table.lookup id).map f := by
  induction table with
  | nil => rfl
  | cons entry table ih =>
    rw [List.map_cons, Prod.map, List.lookup_cons, List.lookup_cons, injective.beq_eq]
    cases id == entry.1 with
    | true => rfl
    | false => exact ih

private theorem mapM_map {f f' : NodeId → Option NodeId}
    (moved : ∀ id, f' (ren id) = (f id).map ren) (ids : List NodeId) :
    (ids.map ren).mapM f' = (ids.mapM f).map (List.map ren) := by
  induction ids with
  | nil => rfl
  | cons id ids ih =>
    rw [List.map_cons, List.mapM_cons, List.mapM_cons, moved, ih]
    cases f id with
    | none => rfl
    | some _ => cases ids.mapM f <;> rfl

namespace Ascent

/-- A table of nodes that have got new numbers. -/
def renumber (ren : NodeId → NodeId) (ascent : Ascent) : Ascent :=
  ⟨ascent.links.map (Prod.map ren ren)⟩

theorem start_renumber (order : List NodeId) :
    start (order.map ren) = (start order).renumber ren := by
  cases order <;> rfl

variable {rank rank' : NodeId → Nat} (injective : Function.Injective ren) (ascent : Ascent)
include injective

theorem renumber_injective : Function.Injective (renumber ren) := fun _ _ equal =>
  congrArg mk ((List.map_injective_iff.mpr (injective.prodMap injective)) (congrArg links equal))

theorem above?_renumber (id : NodeId) :
    (ascent.renumber ren).above? (ren id) = (ascent.above? id).map ren :=
  lookup_map injective ren ascent.links id

theorem put_renumber (id above : NodeId) :
    (ascent.renumber ren).put (ren id) (ren above) = (ascent.put id above).renumber ren := by
  simp [put, renumber, List.filter_map, Function.comp_def, bne, injective.beq_eq]

theorem addDepth_renumber (depths : List (NodeId × Nat)) (node : NodeId) :
    (ascent.renumber ren).addDepth (depths.map (Prod.map ren id)) (ren node) =
      (ascent.addDepth depths node).map (Prod.map ren id) := by
  rw [addDepth, addDepth, above?_renumber injective]
  cases ascent.above? node with
  | none => rfl
  | some above => simp [lookup_map injective]

theorem depths_renumber (order : List NodeId) :
    (ascent.renumber ren).depths (order.map ren) =
      (ascent.depths order).map (Prod.map ren id) := by
  have behind (ids : List NodeId) (depths : List (NodeId × Nat)) :
      (ids.map ren).foldl (ascent.renumber ren).addDepth (depths.map (Prod.map ren id)) =
        (ids.foldl ascent.addDepth depths).map (Prod.map ren id) := by
    induction ids generalizing depths with
    | nil => rfl
    | cons first ids ih =>
      rw [List.map_cons, List.foldl_cons, addDepth_renumber injective, ih, List.foldl_cons]
  rw [depths, depths, ← List.map_tail]
  exact behind order.tail []

section

variable (ranks : ∀ id, rank' (ren id) = rank id)
include ranks

theorem meetWithin_renumber (bound : Nat) (a b : NodeId) :
    (ascent.renumber ren).meetWithin rank' bound (ren a) (ren b) =
      (ascent.meetWithin rank bound a b).map ren := by
  induction bound generalizing a b with
  | zero =>
    rw [meetWithin, meetWithin, injective.beq_eq]
    split <;> rfl
  | succ bound ih =>
    simp only [meetWithin, injective.beq_eq, ranks, above?_renumber injective]
    split
    · rfl
    · split
      · cases ascent.above? a <;> simp [ih]
      · cases ascent.above? b <;> simp [ih]

theorem nearer?_renumber (nearest : Option NodeId) (id : NodeId) :
    (ascent.renumber ren).nearer? rank' (nearest.map ren) (ren id) =
      (ascent.nearer? rank nearest id).map ren := by
  cases nearest with
  | none =>
    simp only [nearer?, Option.map_none, above?_renumber injective, Option.isNone_map]
    split <;> rfl
  | some other =>
    simp only [nearer?, Option.map_some, above?_renumber injective, Option.isNone_map, ranks,
      meetWithin_renumber injective ascent ranks]
    split <;> rfl

theorem nearest?_renumber (ids : List NodeId) :
    (ascent.renumber ren).nearest? rank' (ids.map ren) = (ascent.nearest? rank ids).map ren := by
  have folded (nearest : Option NodeId) :
      (ids.map ren).foldl ((ascent.renumber ren).nearer? rank') (nearest.map ren) =
        (ids.foldl (ascent.nearer? rank) nearest).map ren := by
    induction ids generalizing nearest with
    | nil => rfl
    | cons id ids ih =>
      rw [List.map_cons, List.foldl_cons, List.foldl_cons, nearer?_renumber injective ascent ranks,
        ih]
  exact folded none

end

end Ascent

namespace FlowGraph.Renumbers

variable (same : Renumbers ren g h)
include same

theorem refine {rank rank' : NodeId → Nat} (ranks : ∀ id, rank' (ren id) = rank id)
    (ascent : Ascent) (id : NodeId) :
    Ascent.refine h rank' (ascent.renumber ren) (ren id) =
      (Ascent.refine g rank ascent id).renumber ren := by
  rw [Ascent.refine, Ascent.refine, same.preds, Ascent.nearest?_renumber same.injective ascent ranks,
    Ascent.above?_renumber same.injective]
  cases ascent.nearest? rank (g.preds id) with
  | none => rfl
  | some above =>
    simp only [Option.map_some, same.beq_option, Ascent.put_renumber same.injective]
    split <;> rfl

theorem sweep (numbering : Numbering) (ascent : Ascent) :
    Ascent.sweep h (numbering.renumber ren) (ascent.renumber ren) =
      (Ascent.sweep g numbering ascent).renumber ren := by
  rw [Ascent.sweep, Ascent.sweep, Numbering.reversePostorder_renumber, ← List.map_tail]
  induction numbering.reversePostorder.tail generalizing ascent with
  | nil => rfl
  | cons id ids ih =>
    rw [List.map_cons, List.foldl_cons, List.foldl_cons,
      same.refine (Numbering.rank_renumber same.injective numbering), ih]

theorem settle (numbering : Numbering) (bound : Nat) (ascent : Ascent) :
    Ascent.settle h (numbering.renumber ren) bound (ascent.renumber ren) =
      (Ascent.settle g numbering bound ascent).renumber ren := by
  induction bound generalizing ascent with
  | zero => rfl
  | succ bound ih =>
    simp only [Ascent.settle, same.sweep, (Ascent.renumber_injective same.injective).beq_eq]
    split
    · rfl
    · exact ih _

theorem ascentFrom (root : NodeId) : h.ascentFrom (ren root) = (g.ascentFrom root).renumber ren := by
  simp only [FlowGraph.ascentFrom, same.numbering, Numbering.count_renumber,
    Numbering.reversePostorder_renumber, Ascent.start_renumber, same.settle]

end FlowGraph.Renumbers

namespace DominatorTree

/-- A tree of nodes that have got new numbers. -/
def renumber (ren : NodeId → NodeId) (tree : DominatorTree) : DominatorTree :=
  ⟨ren tree.root, tree.parents.map (Prod.map ren ren), tree.depths.map (Prod.map ren id)⟩

@[simp] theorem size_renumber (tree : DominatorTree) : (tree.renumber ren).size = tree.size :=
  List.length_map ..

variable (injective : Function.Injective ren) (tree : DominatorTree)
include injective

theorem isReachable_renumber (id : NodeId) :
    (tree.renumber ren).isReachable (ren id) = tree.isReachable id := by
  rw [isReachable, isReachable, renumber, lookup_map injective, Option.isSome_map]

theorem immediate?_renumber (id : NodeId) :
    (tree.renumber ren).immediate? (ren id) = (tree.immediate? id).map ren := by
  simp only [immediate?, renumber, injective.beq_eq, lookup_map injective]
  split <;> rfl

theorem children_renumber (id : NodeId) :
    (tree.renumber ren).children (ren id) = (tree.children id).map ren := by
  simp [children, renumber, List.filter_map, Function.comp_def, bne, injective.beq_eq]

theorem level_renumber (id : NodeId) : (tree.renumber ren).level (ren id) = tree.level id := by
  rw [level, level, renumber, lookup_map injective, Option.map_id]
  rfl

theorem lift_renumber (level bound : Nat) (id : NodeId) :
    (tree.renumber ren).lift level bound (ren id) = (tree.lift level bound id).map ren := by
  induction bound generalizing id with
  | zero => rfl
  | succ bound ih =>
    rw [lift, lift, level_renumber injective, immediate?_renumber injective]
    split
    · cases tree.immediate? id with
      | none => rfl
      | some above => exact ih above
    · rfl

theorem dominates_renumber (a b : NodeId) :
    (tree.renumber ren).dominates (ren a) (ren b) = tree.dominates a b := by
  simp only [dominates, isReachable_renumber injective, level_renumber injective, size_renumber,
    lift_renumber injective, ← Option.map_some (f := ren), (Option.map_injective injective).beq_eq]

theorem gather_renumber (bound : Nat) (ids : List NodeId) :
    (tree.renumber ren).gather bound (ids.map ren) = (tree.gather bound ids).map ren := by
  induction bound generalizing ids with
  | zero => rfl
  | succ bound ih =>
    cases ids with
    | nil => rfl
    | cons first rest =>
      have together : ((rest.map ren).all (· == ren first)) = rest.all (· == first) := by
        simp only [List.all_map, Function.comp_def, injective.beq_eq]
      rw [List.map_cons, gather, gather, together, ← List.map_cons,
        mapM_map (immediate?_renumber injective tree)]
      split
      · rfl
      · cases (first :: rest).mapM tree.immediate? with
        | none => rfl
        | some ups => exact ih ups

theorem common?_renumber (ids : List NodeId) :
    (tree.renumber ren).common? (ids.map ren) = (tree.common? ids).map ren := by
  simp only [common?, List.all_map, List.map_map, Function.comp_def,
    isReachable_renumber injective, level_renumber injective, size_renumber]
  split
  · rw [mapM_map (lift_renumber injective tree _ _)]
    cases ids.mapM (tree.lift ((ids.map tree.level).min?.getD 0) tree.size) with
    | none => rfl
    | some lifted => exact gather_renumber injective tree tree.size lifted
  · rfl

end DominatorTree

namespace FlowGraph.Renumbers

variable (same : Renumbers ren g h)
include same

theorem dominatorsFrom (root : NodeId) :
    h.dominatorsFrom (ren root) = (g.dominatorsFrom root).renumber ren := by
  simp only [FlowGraph.dominatorsFrom, DominatorTree.renumber, same.nodeIds, same.ascentFrom,
    List.filterMap_map, List.map_filterMap, Function.comp_def,
    Ascent.above?_renumber same.injective, Option.map_map, Prod.map, same.numbering,
    Numbering.reversePostorder_renumber, Ascent.depths_renumber same.injective]

theorem dominators : Agree (fun dom dom' => dom' = dom.renumber ren) g.dominators h.dominators := by
  refine same.entry.bind ?_
  rintro entry _ rfl
  exact same.dominatorsFrom entry

end FlowGraph.Renumbers

end ControlFlow
