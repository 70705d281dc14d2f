import ControlFlow.Dot.Document
import ControlFlow.Graph.Blocks
import ControlFlow.Proofs.Except
import ControlFlow.Proofs.Graph.Update

/-! Graphs that are read. Reading a text and translating a list of blocks both build a graph up from
nothing by adding nodes and edges, so what every addition keeps, the graph that is read has. It is
well-formed, in particular. -/
namespace ControlFlow

namespace FlowGraph

variable {g h : FlowGraph}

theorem WellFormed.addNode (wf : g.WellFormed) {label : String} {attrs : AttrMap} {id : NodeId}
    (added : g.addNode label attrs = .ok (id, h)) : h.WellFormed := by
  obtain ⟨fresh, single, result⟩ := addNode_eq_ok_iff.mp added
  cases result
  exact wf.insertNode fresh single

theorem WellFormed.addEdge (wf : g.WellFormed) {source target : NodeId} {attrs : AttrMap} {id : Nat}
    (added : g.addEdge source target attrs = .ok (id, h)) : h.WellFormed := by
  obtain ⟨sourceLive, targetLive, free, result⟩ := addEdge_eq_ok_iff.mp added
  cases result
  exact wf.insertEdge sourceLive targetLive free

/-- A property that graphs without nodes have and that additions keep. -/
structure KeptByAdding (P : FlowGraph → Prop) : Prop where
  bare (name : String) (attrs : AttrMap) : P { empty name with attrs }
  addNode {g h : FlowGraph} {label : String} {attrs : AttrMap} {id : NodeId} :
    P g → g.addNode label attrs = .ok (id, h) → P h
  addEdge {g h : FlowGraph} {source target : NodeId} {attrs : AttrMap} {id : Nat} :
    P g → g.addEdge source target attrs = .ok (id, h) → P h

theorem keptByAdding_wellFormed : KeptByAdding WellFormed where
  bare _ _ := ⟨List.nodup_nil, nofun, List.nodup_nil, nofun, nofun, List.nodup_nil⟩
  addNode wf added := wf.addNode added
  addEdge wf added := wf.addEdge added

/-- What every step of a fold keeps, the fold keeps. -/
theorem foldlM_keeps {P : FlowGraph → Prop} {ε α : Type} {f : FlowGraph → α → Except ε FlowGraph}
    {items : List α} (step : ∀ {g h} a, P g → f g a = .ok h → P h) (before : P g)
    (ran : items.foldlM f g = .ok h) : P h := by
  induction items generalizing g with
  | nil =>
    cases ran
    exact before
  | cons a rest ih =>
    rw [List.foldlM_cons] at ran
    obtain ⟨next, first, ran⟩ := bind_eq_ok_iff.mp ran
    exact ih (step a before first) ran

namespace KeptByAdding

variable {P : FlowGraph → Prop} (kept : KeptByAdding P)
include kept

/-! ## Blocks -/

theorem addBlocks (before : P g) {isFirst : Bool} {blocks : List BasicBlock}
    (ran : g.addBlocks isFirst blocks = .ok h) : P h := by
  induction blocks generalizing g isFirst with
  | nil =>
    cases ran
    exact before
  | cons block rest ih =>
    obtain ⟨next, added, ran⟩ := bind_eq_ok_iff.mp ran
    exact ih (kept.addNode before added) ran

theorem addTarget (before : P g) {block target : String} {cond : Option String}
    (ran : g.addTarget block target cond = .ok h) : P h := by
  unfold FlowGraph.addTarget at ran
  split at ran
  · obtain ⟨result, added, same⟩ := bind_eq_ok_iff.mp ran
    cases same
    exact kept.addEdge before added
  · cases ran

theorem addTargets (before : P g) {block : BasicBlock} (ran : g.addTargets block = .ok h) :
    P h := by
  obtain ⟨targets, -, ran⟩ := bind_eq_ok_iff.mp ran
  refine foldlM_keeps ?_ before ran
  intro g h target before added
  exact kept.addTarget before (mapError_eq_ok_iff.mp added)

theorem ofBlocks {name : String} {blocks : List BasicBlock}
    (ran : FlowGraph.ofBlocks name blocks = .ok g) : P g := by
  unfold FlowGraph.ofBlocks at ran
  split at ran
  · cases ran
  · obtain ⟨nodes, added, ran⟩ := bind_eq_ok_iff.mp ran
    have before := kept.addBlocks (kept.bare name .empty) (mapError_eq_ok_iff.mp added)
    exact foldlM_keeps (fun block before step => kept.addTargets before step) before ran

/-! ## Texts -/

theorem toGraph {doc : Dot.Document} (ran : doc.toGraph = .ok g) : P g := by
  obtain ⟨nodes, added, ran⟩ := bind_eq_ok_iff.mp ran
  have before : P nodes := by
    refine foldlM_keeps ?_ (kept.bare doc.name doc.graphAttrs) added
    intro g h node before step
    obtain ⟨result, one, same⟩ := bind_eq_ok_iff.mp step
    cases same
    exact kept.addNode before one
  refine foldlM_keeps ?_ before ran
  intro g h edge before step
  dsimp only at step
  split at step
  · obtain ⟨result, one, same⟩ := bind_eq_ok_iff.mp step
    cases same
    exact kept.addEdge before one
  · cases step
    exact before

theorem read {text : String} (ran : Dot.read text = .ok g) : P g := by
  obtain ⟨lexed, -, ran⟩ := bind_eq_ok_iff.mp ran
  obtain ⟨outline, -, ran⟩ := bind_eq_ok_iff.mp ran
  obtain ⟨doc, -, ran⟩ := bind_eq_ok_iff.mp ran
  exact kept.toGraph (mapError_eq_ok_iff.mp ran)

end KeptByAdding

/-- The graph of a list of blocks is well-formed. -/
theorem wellFormed_ofBlocks {name : String} {blocks : List BasicBlock}
    (ran : ofBlocks name blocks = .ok g) : g.WellFormed :=
  keptByAdding_wellFormed.ofBlocks ran

end FlowGraph

/-- Every graph that is read is well-formed. -/
theorem Dot.wellFormed_read {text : String} {g : FlowGraph} (ran : read text = .ok g) :
    g.WellFormed :=
  FlowGraph.keptByAdding_wellFormed.read ran

end ControlFlow
