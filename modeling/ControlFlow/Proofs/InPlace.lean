import ControlFlow.Procedure
import ControlFlow.Proofs.Hammock.Executions
import ControlFlow.Strategy

/-! Structuring in place. The computations of a strategy give new graphs and leave the old one alone.
Here the same steps are carried out on one graph that is changed as they go: what has been done to it
when a step fails stays done. Each program comes to what its computation gives, and leaves the graph
behind that is computed. Only where a computation fails is there more to say, namely what the graph
has become by then. -/
namespace ControlFlow

open Procedure

variable {α β γ : Type}

/-- A program that changes a graph in place, and may fail in the middle of that. -/
abbrev InPlace (α : Type) : Type := Procedure FlowGraph α

namespace InPlace

/-- Changes the graph by a step that cannot fail. -/
def edit (step : FlowGraph → FlowGraph) : InPlace Unit := modify step

/-! ## The programs -/

/-- Adds a list of edges, one after the other. -/
def addEdges : List (NodeId × NodeId × AttrMap) → InPlace Unit
  | [] => pure ()
  | (source, target, attrs) :: rest => do
    let _ ← change (·.addEdge source target attrs)
    addEdges rest

/-- Replaces nodes by one: takes them out of the graph, then adds the new node, then its edges. -/
def mergeNodes (ids : List NodeId) (loopEdge : Option (NodeId × NodeId)) : InPlace NodeId := do
  match ids with
  | [] => throw .nothingToMerge
  | head :: _ =>
    check (·.checkMembers [] ids)
    let g ← get
    match g.node? head with
    | none => throw (.unknownNode head)
    | some model =>
      let members := g.mergeOrder head ids
      members.forM fun id => edit (·.removeNode id)
      let merged ← change (·.addNode model.label (g.mergedAttrs model members))
      addEdges ((g.rewiring head members loopEdge).edges merged)
      pure merged

/-- Replaces the blocks of a region by one node. -/
def mergeRegion (region : Region) : InPlace NodeId := do
  let ids ← check (·.findAll region.labels)
  let g ← get
  mergeNodes ids (g.loopEdge? region)

/-- Merges regions as long as there are any, at most `bound` of them. -/
def mergeWithin : Nat → List Region → InPlace Analysis
  | 0, found => pure ⟨found, none⟩
  | bound + 1, found => do
    match ← check Hammock.nextMove with
    | .done => pure ⟨found, none⟩
    | .stuck =>
      let g ← get
      pure ⟨found, some ⟨g.size, false⟩⟩
    | .merge region =>
      let _ ← mergeRegion region
      mergeWithin bound (found ++ [region])

/-- Reduces a valid graph. -/
def reduce : InPlace Analysis := do
  check FlowGraph.validate
  let g ← get
  mergeWithin g.size []

/-- Carries out a contraction: takes the inner block out, then adds the new edge, then writes down the
condition. -/
def contract (c : ShortCircuit.Contraction) : InPlace Unit := do
  let g ← get
  edit (·.removeNode c.inner)
  let _ ← change (·.addEdge c.outer c.target
    (((g.edge? c.outer c.inner).map Edge.attrs).getD .empty))
  edit (·.annotate c.outer fun notes => { notes with
    compound := some (ShortCircuit.join c.junction (ShortCircuit.condition g c.outer)
      (ShortCircuit.condition g c.inner)) })

/-- Joins tests, at most `bound` times. -/
def contractWithin : Nat → InPlace (List Region)
  | 0 => pure []
  | bound + 1 => do
    let numbering ← change FlowGraph.number
    let g ← get
    match numbering.reversePostorder.findSome? (ShortCircuit.contraction? g) with
    | none => pure []
    | some c =>
      contract c
      let regions ← contractWithin bound
      pure (c.region g :: regions)

/-- Finds the follows of one kind of conditional. -/
def findFollows (search : FlowGraph.FollowSearch) : InPlace (List Region) := do
  let numbering ← change FlowGraph.number
  let dom ← check FlowGraph.dominators
  change fun g =>
    let state := numbering.reversePostorder.reverse.foldl (search.visit dom numbering)
      { regions := [], waiting := [], graph := g }
    .ok (state.regions, state.graph)

/-- Finds the loops. -/
def structureLoops : InPlace (List Region) := do
  let numbering ← change FlowGraph.number
  let dom ← check FlowGraph.dominators
  let levels ← check FlowGraph.derivedSequence
  change fun g =>
    .ok ((Level.tracedClosings [] levels).foldl (FlowGraph.recordLoop dom numbering) ([], g))

/-- Annotates a valid graph. -/
def structureIntervals : InPlace (List Region) := do
  check FlowGraph.validate
  edit FlowGraph.resetAnnotations
  let g ← get
  let joined ← contractWithin g.size
  let switches ← findFollows .switches
  let loops ← structureLoops
  let tests ← findFollows .tests
  pure (joined ++ switches ++ loops ++ tests)

end InPlace

/-- Structures a graph in place. -/
def Strategy.inPlace : Strategy → InPlace Analysis
  | hammock => InPlace.reduce
  | interval => do
    let regions ← InPlace.structureIntervals
    pure ⟨regions, none⟩

namespace InPlace

/-! ## What the programs compute -/

/-- A program does in place what a computation does: where the computation gives a result and a graph,
the program comes to the result and leaves the graph behind, and where it fails, the program does. -/
def Performs (program : InPlace α) (g : FlowGraph) : Except GraphError (α × FlowGraph) → Prop
  | .ok (a, h) => program.runOn g = (.ok a, h)
  | .error error => ∃ left, program.runOn g = (.error error, left)

variable {g : FlowGraph} {program : InPlace α} {next : α → InPlace β}

theorem runOn_removeNodes (ids : List NodeId) :
    Procedure.runOn (ids.forM fun id => edit (·.removeNode id)) g =
      (.ok (), ids.foldl FlowGraph.removeNode g) := by
  induction ids generalizing g with
  | nil => rfl
  | cons id rest ih => exact ih

namespace Performs

theorem pure (a : α) : Performs (Pure.pure a) g (.ok (a, g)) := rfl

theorem throw (error : GraphError) :
    Performs (MonadExcept.throw error : InPlace α) g (.error error) :=
  ⟨g, rfl⟩

theorem change (step : FlowGraph → Except GraphError (α × FlowGraph)) :
    Performs (Procedure.change step) g (step g) := by
  have ran := runOn_change step g
  cases result : step g with
  | ok done =>
    rw [result] at ran
    exact ran
  | error error =>
    rw [result] at ran
    exact ⟨g, ran⟩

/-- Programs one after the other do what the computations do one after the other. -/
theorem bind_map {x : Except GraphError γ} (split : γ → α × FlowGraph)
    {f : γ → Except GraphError (β × FlowGraph)} (first : Performs program g (split <$> x))
    (rest : ∀ c, Performs (next (split c).1) (split c).2 (f c)) :
    Performs (program >>= next) g (x >>= f) := by
  cases x with
  | ok c =>
    have ran : program.runOn g = (.ok (split c).1, (split c).2) := first
    have later := rest c
    show Performs _ g (f c)
    unfold Performs at later ⊢
    rw [runOn_bind, ran]
    exact later
  | error error =>
    obtain ⟨left, ran⟩ := first
    refine ⟨left, ?_⟩
    rw [runOn_bind, ran]

theorem bind {x : Except GraphError (α × FlowGraph)}
    {f : α × FlowGraph → Except GraphError (β × FlowGraph)} (first : Performs program g x)
    (rest : ∀ a h, Performs (next a) h (f (a, h))) : Performs (program >>= next) g (x >>= f) := by
  refine bind_map id ?_ fun (a, h) => rest a h
  cases x with
  | ok result => exact first
  | error error => exact first

theorem check_bind {test : FlowGraph → Except GraphError α}
    {f : α → Except GraphError (β × FlowGraph)} (rest : ∀ a, Performs (next a) g (f a)) :
    Performs (Procedure.check test >>= next) g (test g >>= f) := by
  refine bind_map (·, g) ?_ rest
  cases result : test g with
  | ok a =>
    show (Procedure.check test).runOn g = (.ok a, g)
    rw [runOn_check, result]
  | error error =>
    refine ⟨g, ?_⟩
    rw [runOn_check, result]

theorem map {x : Except GraphError (α × FlowGraph)} (performs : Performs program g x)
    (f : α → β) : Performs (f <$> program) g (Prod.map f id <$> x) := by
  cases x with
  | ok result =>
    have ran : program.runOn g = (.ok result.1, result.2) := performs
    show (f <$> program).runOn g = (.ok (f result.1), result.2)
    rw [runOn_map, ran]
  | error error =>
    obtain ⟨left, ran⟩ := performs
    refine ⟨left, ?_⟩
    rw [runOn_map, ran]

/-- What cannot fail can be left out of account. -/
theorem ok_bind {a : α} {h : FlowGraph} {outcome : Except GraphError (β × FlowGraph)}
    (ran : program.runOn g = (.ok a, h)) (rest : Performs (next a) h outcome) :
    Performs (program >>= next) g outcome := by
  have same : (program >>= next).runOn g = (next a).runOn h := by
    rw [runOn_bind, ran]
  unfold Performs at rest ⊢
  rwa [same]

/-! ## The programs of the hammock strategy -/

theorem addEdges (edges : List (NodeId × NodeId × AttrMap)) :
    Performs (InPlace.addEdges edges) g (((), ·) <$> g.addEdges edges) := by
  induction edges generalizing g with
  | nil => rfl
  | cons edge rest ih =>
    rw [FlowGraph.addEdges, List.foldlM_cons, bind_assoc, map_bind]
    refine bind (change _) ?_
    intro added h
    exact ih

theorem mergeNodes (ids : List NodeId) (loopEdge : Option (NodeId × NodeId)) :
    Performs (InPlace.mergeNodes ids loopEdge) g (g.mergeNodes ids loopEdge) := by
  cases ids with
  | nil => exact throw _
  | cons head others =>
    refine check_bind ?_
    intro fine
    refine ok_bind rfl ?_
    cases found : g.node? head with
    | none => exact throw _
    | some model =>
      refine ok_bind (runOn_removeNodes _) (bind (change _) ?_)
      intro merged rest
      refine bind_map _ (addEdges _) ?_
      intro result
      rfl

theorem mergeRegion (region : Region) :
    Performs (InPlace.mergeRegion region) g (g.mergeRegion region) := by
  refine check_bind ?_
  intro ids
  exact ok_bind rfl (mergeNodes ids _)

theorem mergeWithin (bound : Nat) (found : List Region) :
    Performs (InPlace.mergeWithin bound found) g
      (Id.run (Hammock.runWithin .silent bound g found)) := by
  induction bound generalizing g found with
  | zero => exact pure _
  | succ bound ih =>
    rw [Hammock.runWithin_silent]
    refine check_bind ?_
    intro move
    cases move with
    | done => exact pure _
    | stuck => rfl
    | merge region =>
      refine bind (mergeRegion region) ?_
      intro merged h
      exact ih _

theorem reduce : Performs InPlace.reduce g (Hammock.reduce g) := by
  have split : Hammock.reduce g =
      g.validate >>= fun _ => Id.run (Hammock.runWithin .silent g.size g []) := by
    rw [Hammock.reduce, Hammock.reduceObserved]
    cases g.validate with
    | ok valid => rfl
    | error error => rfl
  rw [split]
  refine check_bind ?_
  intro valid
  exact ok_bind rfl (mergeWithin _ _)

/-! ## The programs of the interval strategy -/

theorem contract (c : ShortCircuit.Contraction) :
    Performs (InPlace.contract c) g (((), ·) <$> ShortCircuit.contract g c) := by
  rw [ShortCircuit.contract, map_bind]
  refine ok_bind rfl (ok_bind rfl (bind (change _) ?_))
  intro added joined
  rfl

theorem contractWithin (bound : Nat) :
    Performs (InPlace.contractWithin bound) g (ShortCircuit.contractWithin bound g) := by
  induction bound generalizing g with
  | zero => exact pure _
  | succ bound ih =>
    refine bind (change _) ?_
    intro numbering numbered
    refine ok_bind rfl ?_
    dsimp only
    cases numbering.reversePostorder.findSome? (ShortCircuit.contraction? numbered) with
    | none => exact pure _
    | some c =>
      refine bind_map _ (contract c) ?_
      intro joined
      refine bind ih ?_
      intro regions result
      exact pure _

theorem findFollows (search : FlowGraph.FollowSearch) :
    Performs (InPlace.findFollows search) g (search.run g) := by
  refine bind (change _) ?_
  intro numbering numbered
  refine check_bind ?_
  intro dom
  exact change _

theorem structureLoops : Performs InPlace.structureLoops g g.structureLoops := by
  refine bind (change _) ?_
  intro numbering numbered
  refine check_bind ?_
  intro dom
  refine check_bind ?_
  intro levels
  exact change _

theorem structureIntervals : Performs InPlace.structureIntervals g g.structureIntervals := by
  refine check_bind ?_
  intro fine
  refine ok_bind rfl (ok_bind rfl ?_)
  refine bind (contractWithin _) ?_
  intro joined g₁
  refine bind (findFollows .switches) ?_
  intro switches g₂
  refine bind structureLoops ?_
  intro loops g₃
  refine bind (findFollows .tests) ?_
  intro tests h
  exact pure _

end Performs

end InPlace

/-- Structuring in place does what structuring does. -/
theorem Strategy.performs (strategy : Strategy) (g : FlowGraph) :
    InPlace.Performs strategy.inPlace g (strategy.analyze g) := by
  cases strategy with
  | hammock => exact InPlace.Performs.reduce
  | interval =>
    refine .bind .structureIntervals ?_
    intro regions h
    exact .pure _

end ControlFlow
