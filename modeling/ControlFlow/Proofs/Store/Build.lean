import ControlFlow.Proofs.Except
import ControlFlow.Proofs.Store.Edges
import ControlFlow.Proofs.Store.Nodes
import ControlFlow.Store.Build

/-! The tables of graphs that are read. Tables and graph are built by the same additions in the same
order, so they are refused together, and tables that are made hold the graph that is made. -/
namespace ControlFlow.Store

variable {s : Store} {g : FlowGraph}

/-- A procedure that mirrors a change leaves tables behind as the change leaves a graph. -/
theorem Mirrors.agree {α : Type} {procedure : Procedure Store α}
    {outcome : Except GraphError (α × FlowGraph)} (mirrors : s.Mirrors procedure outcome)
    (sound : ∀ a h, outcome = .ok (a, h) → h.Sound) :
    Agree HoldsSound (procedure.leaves s) ((·.2) <$> outcome) := by
  cases outcome with
  | error error =>
    rw [Procedure.leaves, show procedure.runOn s = _ from mirrors]
    trivial
  | ok result =>
    obtain ⟨t, ran, holds⟩ := mirrors
    rw [Procedure.leaves, ran]
    exact ⟨holds, sound _ _ rfl⟩

namespace HoldsSound

variable (held : s.HoldsSound g)
include held

theorem addNode (label : String) (attrs : AttrMap) :
    Agree HoldsSound ((addNode label attrs).leaves s) ((·.2) <$> g.addNode label attrs) :=
  (held.holds.addNode held.sound label attrs).agree fun _ _ => held.sound.addNode

theorem addEdge (source target : NodeId) (attrs : AttrMap) :
    Agree HoldsSound ((addEdge source target attrs).leaves s)
      ((·.2) <$> g.addEdge source target attrs) :=
  (held.holds.addEdge held.sound source target attrs).agree fun _ _ => held.sound.addEdge

end HoldsSound

theorem holdsSound_bare (name : String) (attrs : AttrMap) :
    HoldsSound { empty name with attrs } { FlowGraph.empty name with attrs } where
  holds := { holds_empty name with attrs := rfl }
  sound := FlowGraph.Sound.keptByAdding.bare name attrs

theorem itemwise {α : Type} (items : List α) : List.Forall₂ (· = ·) items items :=
  List.forall₂_refl items

/-! ## Texts -/

theorem ofDocument_agree (doc : Dot.Document) :
    Agree HoldsSound (ofDocument doc) doc.toGraph := by
  refine Agree.bind (Agree.foldlM ?_ (itemwise doc.nodes)
    (holdsSound_bare doc.name doc.graphAttrs)) ?_
  · rintro s g node _ held rfl
    exact held.addNode node.1 node.2
  · intro s g held
    refine Agree.foldlM ?_ (itemwise doc.edges) held
    rintro s g edge _ held rfl
    simp only [held.holds.find?]
    cases g.find? edge.1.1 with
    | none => exact held
    | some source =>
      cases g.find? edge.1.2 with
      | none => exact held
      | some target => exact held.addEdge source target edge.2

theorem read_agree (text : String) : Agree HoldsSound (read text) (Dot.read text) := by
  refine (Agree.refl (Dot.lexemes text)).bind ?_
  rintro lexemes _ rfl
  refine (Agree.refl (Dot.Outline.ofLexemes lexemes)).bind ?_
  rintro outline _ rfl
  refine (Agree.refl (Dot.Document.ofText outline)).bind ?_
  rintro doc _ rfl
  exact (ofDocument_agree doc).mapError _ _

/-! ## Blocks -/

theorem HoldsSound.addBlocks (held : s.HoldsSound g) (isFirst : Bool) (blocks : List BasicBlock) :
    Agree HoldsSound (s.addBlocks isFirst blocks) (g.addBlocks isFirst blocks) := by
  induction blocks generalizing s g isFirst with
  | nil => exact held
  | cons block rest ih =>
    have added := held.addNode block.name (FlowGraph.blockAttrs isFirst block)
    have split : g.addBlocks isFirst (block :: rest) =
        (·.2) <$> g.addNode block.name (FlowGraph.blockAttrs isFirst block) >>=
          (·.addBlocks false rest) := by
      rw [bind_map_left]
      rfl
    rw [Store.addBlocks, split]
    exact added.bind fun _ _ held => ih held false

theorem HoldsSound.addTarget (held : s.HoldsSound g) (block target : String)
    (cond : Option String) :
    Agree HoldsSound (s.addTarget block target cond) (g.addTarget block target cond) := by
  rw [Store.addTarget, FlowGraph.addTarget, held.holds.find?, held.holds.find?]
  cases g.find? block with
  | none => trivial
  | some source =>
    cases g.find? target with
    | none => trivial
    | some id => exact held.addEdge source id _

theorem HoldsSound.addTargets (held : s.HoldsSound g) (block : BasicBlock) :
    Agree HoldsSound (s.addTargets block) (g.addTargets block) := by
  refine (Agree.refl block.terminator.targets).bind ?_
  rintro targets _ rfl
  refine Agree.foldlM ?_ (itemwise targets) held
  rintro s g target _ held rfl
  exact (held.addTarget block.name target.1 target.2).mapError _ _

theorem ofBlocks_agree (name : String) (blocks : List BasicBlock) :
    Agree HoldsSound (ofBlocks name blocks) (FlowGraph.ofBlocks name blocks) := by
  rw [ofBlocks, FlowGraph.ofBlocks]
  split
  · trivial
  · refine (((holdsSound_bare name .empty).addBlocks true blocks).mapError _ _).bind ?_
    intro s g held
    refine Agree.foldlM ?_ (itemwise blocks) held
    rintro s g block _ held rfl
    exact held.addTargets block

end ControlFlow.Store
