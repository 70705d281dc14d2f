import ControlFlow.Proofs.Graph.Ordered
import ControlFlow.Proofs.Graph.Rewiring

/-! The calls that change a graph. Each of them settles a sound graph: either it comes to a sound graph
with at most one more node, under a number that no node has had, or it fails and has changed nothing. -/
namespace ControlFlow

/-- A call that changes a graph. -/
inductive Change where
  | addNode (label : String) (attrs : AttrMap)
  | addBlock (label : String)
  | removeNode (id : NodeId)
  | addEdge (source target : NodeId) (attrs : AttrMap)
  | connect (source target : NodeId) (entries : List (String × String))
  | removeEdge (source target : NodeId)
  | setEdgeAttr (source target : NodeId) (key value : String)
  | setEntry (id : NodeId)
  | mergeNodes (ids : List NodeId) (loopEdge : Option (NodeId × NodeId))
  | mergeRegion (region : Region)
  | resetAnnotations
  | number
  | exportAnnotations

namespace Change

/-- A change that makes no new node. -/
def nodeless (step : FlowGraph → Except GraphError FlowGraph) : InPlace (Option NodeId) :=
  Procedure.change fun g => (none, ·) <$> step g

/-- What a call does to the graph, and the new node if it makes one. -/
def inPlace : Change → InPlace (Option NodeId)
  | addNode label attrs => some <$> Procedure.change (·.addNode label attrs)
  | addBlock label => some <$> Procedure.change (·.addBlock label)
  | removeNode id => nodeless fun g => .ok (g.removeNode id)
  | addEdge source target attrs => nodeless fun g => (·.2) <$> g.addEdge source target attrs
  | connect source target entries =>
    nodeless fun g => (·.2) <$> g.addEdge source target (.ofList entries)
  | removeEdge source target => nodeless fun g => .ok (g.removeEdge source target)
  | setEdgeAttr source target key value => nodeless (·.setEdgeAttr source target key value)
  | setEntry id => nodeless (·.setEntry id)
  | mergeNodes ids loopEdge => some <$> InPlace.mergeNodes ids loopEdge
  | mergeRegion region => some <$> InPlace.mergeRegion region
  | resetAnnotations => nodeless fun g => .ok g.resetAnnotations
  | number => nodeless fun g => (·.2) <$> g.number
  | exportAnnotations => nodeless fun g => .ok g.exportAnnotations

end Change

/-- Where a graph comes from. -/
inductive Origin where
  | empty (name : String)
  | read (text : String)
  | ofBlocks (name : String) (blocks : List BasicBlock)

/-- The graph that is made, if one is. -/
def Origin.graph? : Origin → Option FlowGraph
  | empty name => some (.empty name)
  | read text => (Dot.read text).toOption
  | ofBlocks name blocks => (FlowGraph.ofBlocks name blocks).toOption

namespace FlowGraph

variable {g h k : FlowGraph}

/-- A step to a sound graph that has at most one more node, under a number never given before. -/
structure Advances (g : FlowGraph) (id? : Option NodeId) (h : FlowGraph) : Prop where
  sound : h.Sound
  grows : g.nextNode ≤ h.nextNode
  fresh : ∀ id ∈ id?, g.nextNode ≤ id ∧ id < h.nextNode
  live : ∀ id ∈ h.nodeIds, id ∈ g.nodeIds ∨ id ∈ id?

/-- A program comes to a result and advances the graph, or fails and leaves it alone. -/
def Settles (g : FlowGraph) (program : InPlace α) (new : α → Option NodeId) : Prop :=
  match program.runOn g with
  | (.ok a, h) => g.Advances (new a) h
  | (.error _, h) => h = g

/-- The nodes do not get more and no number is used. -/
theorem Advances.nodeless (sound : h.Sound) (next : h.nextNode = g.nextNode)
    (fewer : h.nodeIds ⊆ g.nodeIds) : g.Advances none h where
  sound := sound
  grows := next.ge
  fresh := nofun
  live _ live := .inl (fewer live)

theorem Advances.sameNodes (sound : h.Sound) (next : h.nextNode = g.nextNode)
    (same : h.nodeIds = g.nodeIds) : g.Advances none h :=
  .nodeless sound next (same ▸ List.Subset.refl _)

theorem settles_nodeless {step : FlowGraph → Except GraphError FlowGraph}
    (advances : ∀ h, step g = .ok h → g.Advances none h) :
    g.Settles (Change.nodeless step) id := by
  rw [Settles, Change.nodeless, Procedure.runOn_change]
  cases ran : step g with
  | ok h => exact advances h ran
  | error error => rfl

theorem Settles.some {program : InPlace NodeId} (settles : g.Settles program Option.some) :
    g.Settles (Option.some <$> program) id := by
  rw [Settles] at settles
  rw [Settles, Procedure.runOn_map]
  cases ran : program.runOn g with
  | mk result left =>
    rw [ran] at settles
    cases result with
    | ok id => exact settles
    | error error => exact settles

theorem settles_addNode (sound : g.Sound) (label : String) (attrs : AttrMap) :
    g.Settles (Procedure.change (·.addNode label attrs)) some := by
  rw [Settles, Procedure.runOn_change]
  cases added : g.addNode label attrs with
  | error error => rfl
  | ok result =>
    have after := sound.addNode added
    obtain ⟨-, -, rfl⟩ := addNode_eq_ok_iff.mp added
    refine ⟨after, Nat.le_succ _, ?_, fun id live => ?_⟩
    · intro id new
      obtain rfl := Option.mem_some_iff.mp new
      exact ⟨Nat.le_refl _, Nat.lt_succ_self _⟩
    · rcases mem_insertNode_nodeIds.mp live with rfl | old
      · exact .inr rfl
      · exact .inl old

theorem settles_addEdge (sound : g.Sound) (source target : NodeId) (attrs : AttrMap) :
    g.Settles (Change.nodeless fun g => (·.2) <$> g.addEdge source target attrs) id := by
  refine settles_nodeless fun h ran => ?_
  cases added : g.addEdge source target attrs with
  | error error => simp [added] at ran
  | ok result =>
    rw [added] at ran
    cases ran
    have after := sound.addEdge added
    obtain ⟨-, -, -, rfl⟩ := addEdge_eq_ok_iff.mp added
    exact .sameNodes after rfl rfl

theorem Sound.mergeNodes (sound : g.Sound) {head merged : NodeId} {ids : List NodeId}
    {loopEdge : Option (NodeId × NodeId)}
    (ran : g.mergeNodes (head :: ids) loopEdge = .ok (merged, h)) : h.Sound := by
  obtain ⟨model, inserted, -, added, edges⟩ := mergeNodes_steps ran
  have removed : ((g.mergeOrder head (head :: ids)).foldl FlowGraph.removeNode g).Sound :=
    List.foldlRecOn _ _ sound fun k sound id _ => sound.removeNode id
  refine foldlM_keeps (P := Sound) ?_ (removed.addNode added) edges
  intro k k' edge sound step
  obtain ⟨result, one, same⟩ := bind_eq_ok_iff.mp step
  cases same
  exact sound.addEdge one

theorem settles_mergeNodes (sound : g.Sound) (ids : List NodeId)
    (loopEdge : Option (NodeId × NodeId)) :
    g.Settles (InPlace.mergeNodes ids loopEdge) some := by
  rw [Settles]
  by_cases mergeable : g.Mergeable ids
  · cases ids with
    | nil => exact absurd rfl mergeable.nonempty
    | cons head rest =>
      obtain ⟨merged, h, ran, done⟩ :=
        mergeNodes_merged sound.wf mergeable.live mergeable.nodup loopEdge
      -- The in-place merge succeeds with the computed one, so what that one does can be read off.
      have performs : InPlace.Performs _ g _ := .mergeNodes (head :: rest) loopEdge
      rw [ran] at performs
      rw [show Procedure.runOn _ g = _ from performs]
      obtain ⟨model, inserted, -, added, edges⟩ := mergeNodes_steps ran
      obtain ⟨-, next, -⟩ := addEdges_exact edges
      obtain ⟨-, -, result⟩ := addNode_eq_ok_iff.mp added
      obtain ⟨first, rfl⟩ := Prod.mk.inj result
      rw [removeAll_nextNode] at first
      subst first
      replace next : h.nextNode = g.nextNode + 1 := next.trans
        (congrArg (· + 1) removeAll_nextNode)
      refine ⟨sound.mergeNodes ran, next ▸ Nat.le_succ _, ?_, fun id live => ?_⟩
      · intro id new
        obtain rfl := Option.mem_some_iff.mp new
        exact ⟨Nat.le_refl _, next ▸ Nat.lt_succ_self _⟩
      · rcases done.nodeIds.mp live with ⟨old, -⟩ | rfl
        · exact .inl old
        · exact .inr rfl
  · obtain ⟨error, -, ran⟩ := mergeNodes_refused mergeable loopEdge
    rw [ran]

theorem settles_mergeRegion (sound : g.Sound) (region : Region) :
    g.Settles (InPlace.mergeRegion region) some := by
  rw [Settles, InPlace.mergeRegion, Procedure.runOn_bind, Procedure.runOn_check]
  cases g.findAll region.labels with
  | error error => trivial
  | ok ids =>
    have later := settles_mergeNodes sound ids (g.loopEdge? region)
    rw [Settles] at later
    simp only [Procedure.runOn_get_bind]
    exact later

end FlowGraph

/-- Every call settles: it advances a sound graph to a sound one, or leaves it alone. -/
theorem Change.settles {g : FlowGraph} (sound : g.Sound) (change : Change) :
    g.Settles change.inPlace id := by
  cases change with
  | addNode label attrs => exact (FlowGraph.settles_addNode sound label attrs).some
  | addBlock label => exact (FlowGraph.settles_addNode sound label .empty).some
  | mergeNodes ids loopEdge => exact (FlowGraph.settles_mergeNodes sound ids loopEdge).some
  | mergeRegion region => exact (FlowGraph.settles_mergeRegion sound region).some
  | addEdge source target attrs => exact FlowGraph.settles_addEdge sound source target attrs
  | connect source target entries => exact FlowGraph.settles_addEdge sound source target _
  | removeNode id =>
    refine FlowGraph.settles_nodeless fun h ran => ?_
    cases ran
    exact .nodeless (sound.removeNode id) rfl fun _ live =>
      (FlowGraph.mem_removeNode_nodeIds.mp live).1
  | removeEdge source target =>
    refine FlowGraph.settles_nodeless fun h ran => ?_
    cases ran
    exact .sameNodes (sound.removeEdge source target) rfl rfl
  | setEdgeAttr source target key value =>
    refine FlowGraph.settles_nodeless fun h ran => ?_
    have after := sound.setEdgeAttr ran
    unfold FlowGraph.setEdgeAttr at ran
    split at ran
    · cases ran
    · cases ran
      exact .sameNodes after rfl rfl
  | setEntry id =>
    refine FlowGraph.settles_nodeless fun h ran => ?_
    have after := sound.setEntry ran
    obtain ⟨-, rfl⟩ := FlowGraph.setEntry_eq_ok ran
    exact .sameNodes after rfl (FlowGraph.nodeIds_map fun n => by split <;> rfl)
  | resetAnnotations =>
    refine FlowGraph.settles_nodeless fun h ran => ?_
    cases ran
    exact .sameNodes (sound.of_sameCore FlowGraph.sameCore_resetAnnotations) rfl
      FlowGraph.resetAnnotations_nodeIds
  | number =>
    refine FlowGraph.settles_nodeless fun h ran => ?_
    cases entered : g.entry? with
    | none => simp [FlowGraph.number, FlowGraph.entry, entered, bind, Except.bind] at ran
    | some entry =>
      rw [FlowGraph.number_eq_ok entered] at ran
      cases ran
      have same := g.sameCore_recordNumbers (g.numbering entry)
      exact .sameNodes (sound.of_sameCore same) rfl same.nodeIds
  | exportAnnotations =>
    refine FlowGraph.settles_nodeless fun h ran => ?_
    cases ran
    exact .sameNodes sound.exportAnnotations rfl (FlowGraph.nodeIds_map fun _ => rfl)

/-- The number of a node that is gone is not given again, and a merge that fails uses none. -/
example : ([.addBlock "A", .addBlock "B", .mergeNodes [0, 7] none, .mergeNodes [0, 1] none,
      .removeNode 2, .addBlock "A"].foldl (fun g change => (Change.inPlace change |>.runOn g).2)
        (.empty "f")).nodeIds = [3] := by
  rfl

/-- The graphs that are made are sound. -/
theorem Origin.sound {g : FlowGraph} {origin : Origin} (made : origin.graph? = some g) :
    g.Sound := by
  cases origin with
  | empty name =>
    cases made
    exact FlowGraph.Sound.keptByAdding.bare name .empty
  | read text =>
    cases ran : Dot.read text with
    | ok h =>
      rw [Origin.graph?, ran] at made
      cases made
      exact FlowGraph.Sound.keptByAdding.read ran
    | error error =>
      rw [Origin.graph?, ran] at made
      cases made
  | ofBlocks name blocks =>
    cases ran : FlowGraph.ofBlocks name blocks with
    | ok h =>
      rw [Origin.graph?, ran] at made
      cases made
      exact FlowGraph.Sound.keptByAdding.ofBlocks ran
    | error error =>
      rw [Origin.graph?, ran] at made
      cases made

end ControlFlow
