import ControlFlow.Proofs.Graph.Changes
import ControlFlow.Proofs.Store.Annotations
import ControlFlow.Proofs.Store.Build
import ControlFlow.Proofs.Store.Consistent
import ControlFlow.Proofs.Store.EdgeAttributes
import ControlFlow.Proofs.Store.Merge

/-! The tables of a graph over its whole life. They are made empty, from a text or from blocks, and then
changed by calls in any order, of which some fail. Whatever the calls were, no table has anything that
another one denies, the number of a node was never given to another node, and a call that fails has
written to none of them. One call takes tables that hold a sound graph to tables that hold a sound graph;
the life is an induction over the calls. -/
namespace ControlFlow

/-- What a call does to the tables, and the new node if it makes one. -/
def Change.procedure : Change → Procedure Store (Option NodeId)
  | addNode label attrs => some <$> Store.addNode label attrs
  | addBlock label => some <$> Store.addBlock label
  | removeNode id => (fun _ => none) <$> Store.removeNode id
  | addEdge source target attrs => (fun _ => none) <$> Store.addEdge source target attrs
  | connect source target entries => (fun _ => none) <$> Store.connect source target entries
  | removeEdge source target => (fun _ => none) <$> Store.removeEdge source target
  | setEdgeAttr source target key value =>
    (fun _ => none) <$> Store.setEdgeAttr source target key value
  | setEntry id => (fun _ => none) <$> Store.setEntry id
  | mergeNodes ids loopEdge => some <$> Store.mergeNodes ids loopEdge
  | mergeRegion region => some <$> Store.mergeRegion region
  | resetAnnotations => (fun _ => none) <$> Store.resetAnnotations
  | number => (fun _ => none) <$> Store.number
  | exportAnnotations => (fun _ => none) <$> Store.exportAnnotations

/-- The tables that are made, if any are. -/
def Origin.store? : Origin → Option Store
  | empty name => some (.empty name)
  | read text => (Store.read text).toOption
  | ofBlocks name blocks => (Store.ofBlocks name blocks).toOption

/-- A call of any kind. -/
inductive Call where
  | make (origin : Origin)
  | change (change : Change)

/-- The tables of a graph, and the numbers that its nodes have ever had. -/
structure Lifetime where
  store : Store
  issued : List NodeId

namespace Lifetime

/-- The life of a graph begins with the nodes that it is made of. -/
def begin (s : Store) : Lifetime := ⟨s, s.order⟩

/-- One call. Where a change fails, the life goes on with what the tables have become by then. -/
def call (life : Lifetime) : Call → Lifetime
  | .make origin => (origin.store?.map begin).getD life
  | .change change =>
    match change.procedure.runOn life.store with
    | (.ok id?, t) => ⟨t, life.issued ++ id?.toList⟩
    | (.error _, t) => ⟨t, life.issued⟩

end Lifetime

namespace Store

variable {α : Type} {s : Store} {g : FlowGraph}

/-! ## One call on tables and on a graph -/

theorem second_of_unit {β : Type} (x : Except GraphError β) :
    (·.2) <$> ((), ·) <$> x = x := by
  cases x with
  | ok b => rfl
  | error error => rfl

/-- A change without a new node is carried out on tables as on the graph that they hold. -/
theorem Mirrors.nodeless {procedure : Procedure Store α}
    {outcome : Except GraphError (α × FlowGraph)} (mirrors : s.Mirrors procedure outcome)
    {step : FlowGraph → Except GraphError FlowGraph} (same : (·.2) <$> outcome = step g) :
    ∃ outcome, s.Mirrors ((fun _ => none) <$> procedure) outcome ∧
      InPlace.Performs (Change.nodeless step) g outcome := by
  have performs : InPlace.Performs (Change.nodeless step) g ((none, ·) <$> step g) := .change _
  rw [← same, Functor.map_map] at performs
  exact ⟨_, mirrors.map _, performs⟩

namespace HoldsSound

variable (held : s.HoldsSound g)
include held

/-- What a call comes to on tables is what it comes to on the graph that they hold. -/
theorem performs (change : Change) : ∃ outcome, s.Mirrors change.procedure outcome ∧
    InPlace.Performs change.inPlace g outcome := by
  obtain ⟨holds, sound⟩ := held
  cases change with
  | addNode label attrs =>
    exact ⟨_, (holds.addNode sound label attrs).map some, .map (.change _) some⟩
  | addBlock label =>
    exact ⟨_, (holds.addNode sound label .empty).map some, .map (.change _) some⟩
  | mergeNodes ids loopEdge =>
    exact ⟨_, (holds.mergeNodes sound ids loopEdge).map some, .map (.mergeNodes _ _) some⟩
  | mergeRegion region =>
    exact ⟨_, (holds.mergeRegion sound region).map some, .map (.mergeRegion _) some⟩
  | removeNode id => exact (holds.removeNode sound id).nodeless rfl
  | addEdge source target attrs => exact (holds.addEdge sound source target attrs).nodeless rfl
  | connect source target entries => exact (holds.addEdge sound source target _).nodeless rfl
  | removeEdge source target => exact (holds.removeEdge sound source target).nodeless rfl
  | setEdgeAttr source target key value =>
    exact (holds.setEdgeAttr sound source target key value).nodeless (second_of_unit _)
  | setEntry id => exact (holds.setEntry sound id).nodeless (second_of_unit _)
  | resetAnnotations => exact holds.resetAnnotations.nodeless rfl
  | number => exact (holds.number sound).nodeless rfl
  | exportAnnotations => exact (holds.exportAnnotations sound).nodeless rfl

/-- A call takes tables of a sound graph to tables of the graph that it advances to, or it fails and
writes to none of them. -/
theorem settles (change : Change) :
    match change.procedure.runOn s with
    | (.ok id?, t) => ∃ h, t.HoldsSound h ∧ g.Advances id? h
    | (.error _, t) => t = s := by
  obtain ⟨outcome, mirrors, performs⟩ := held.performs change
  cases outcome with
  | error error =>
    rw [show change.procedure.runOn s = _ from mirrors]
  | ok result =>
    obtain ⟨t, ran, holds⟩ := mirrors
    have advances := change.settles held.sound
    rw [FlowGraph.Settles, show change.inPlace.runOn g = _ from performs] at advances
    rw [ran]
    exact ⟨result.2, ⟨holds, advances.sound⟩, advances⟩

end HoldsSound

theorem exists_toOption {ε ε' : Type} {x : Except ε Store} {y : Except ε' FlowGraph}
    (agree : Agree HoldsSound x y) (made : x.toOption = some s) : ∃ g, s.HoldsSound g := by
  cases x with
  | error error => cases made
  | ok t =>
    obtain rfl := Option.some.inj made
    obtain ⟨g, -, held⟩ := agree.exists_ok
    exact ⟨g, held⟩

/-- Tables that are made hold a sound graph. -/
theorem holdsSound_of_origin {origin : Origin} (made : origin.store? = some s) :
    ∃ g, s.HoldsSound g := by
  cases origin with
  | empty name =>
    obtain rfl := Option.some.inj made
    exact ⟨_, holdsSound_bare name .empty⟩
  | read text => exact exists_toOption (read_agree text) made
  | ofBlocks name blocks => exact exists_toOption (ofBlocks_agree name blocks) made

end Store

/-! ## A whole life -/

namespace Lifetime

/-- The tables hold a sound graph, whose nodes are among those that numbers have been given to, each of
them once and below the next one. -/
structure Orderly (life : Lifetime) (g : FlowGraph) : Prop where
  held : life.store.HoldsSound g
  issuedNodup : life.issued.Nodup
  issuedBelow : ∀ id ∈ life.issued, id < g.nextNode
  live : ∀ id ∈ g.nodeIds, id ∈ life.issued

theorem orderly_begin {s : Store} {g : FlowGraph} (held : s.HoldsSound g) :
    (begin s).Orderly g := by
  have issued : (begin s).issued = g.nodeIds := held.holds.order
  refine ⟨held, ?_, ?_, ?_⟩ <;> rw [issued]
  · exact held.sound.wf.idsNodup
  · exact held.sound.wf.idsBelow
  · exact fun _ live => live

namespace Orderly

variable {life : Lifetime} {g : FlowGraph} (orderly : life.Orderly g)
include orderly

/-- A number that is given now is none of those that have been given. -/
theorem not_issued {id? : Option NodeId} {h : FlowGraph} (advances : g.Advances id? h) :
    ∀ id ∈ id?, id ∉ life.issued := by
  intro id new issued
  have above := (advances.fresh id new).1
  exact absurd (orderly.issuedBelow id issued) (Nat.not_lt.mpr above)

theorem advance {id? : Option NodeId} {t : Store} {h : FlowGraph} (held : t.HoldsSound h)
    (advances : g.Advances id? h) : Orderly ⟨t, life.issued ++ id?.toList⟩ h where
  held := held
  issuedNodup := by
    refine List.nodup_append.mpr ⟨orderly.issuedNodup, by cases id? <;> simp, ?_⟩
    rintro id old _ new rfl
    exact orderly.not_issued advances id (Option.mem_toList.mp new) old
  issuedBelow id member := by
    rcases List.mem_append.mp member with old | new
    · exact Nat.lt_of_lt_of_le (orderly.issuedBelow id old) advances.grows
    · exact (advances.fresh id (Option.mem_toList.mp new)).2
  live id live := by
    rcases advances.live id live with old | new
    · exact List.mem_append_left _ (orderly.live id old)
    · exact List.mem_append_right _ (Option.mem_toList.mpr new)

theorem call (call : Call) : ∃ h, (life.call call).Orderly h := by
  cases call with
  | make origin =>
    rw [Lifetime.call]
    cases made : origin.store? with
    | none => exact ⟨g, orderly⟩
    | some s =>
      obtain ⟨h, held⟩ := Store.holdsSound_of_origin made
      exact ⟨h, orderly_begin held⟩
  | change change =>
    have settles := orderly.held.settles change
    rw [Lifetime.call]
    cases ran : change.procedure.runOn life.store with
    | mk result t =>
      rw [ran] at settles
      cases result with
      | ok id? =>
        obtain ⟨h, held, advances⟩ := settles
        exact ⟨h, orderly.advance held advances⟩
      | error error =>
        obtain rfl : t = life.store := settles
        exact ⟨g, orderly⟩

theorem calls (calls : List Call) : ∃ h, (calls.foldl Lifetime.call life).Orderly h := by
  refine List.foldlRecOn (motive := fun life => ∃ h, Orderly life h) calls _ ⟨g, orderly⟩ ?_
  rintro life ⟨h, orderly⟩ call -
  exact orderly.call call

end Orderly

/-- Whatever has been called, the tables are consistent, no number was given twice, and only nodes
that were given a number are live. Whatever is called next, a new node gets a number that none has had
before, and a call that fails leaves all tables as they were. -/
theorem tables_consistent_after (name : String) (calls : List Call) :
    let life := calls.foldl Lifetime.call (begin (.empty name))
    life.store.Consistent ∧ life.issued.Nodup ∧ life.store.order ⊆ life.issued ∧
      ∀ change : Change, match change.procedure.runOn life.store with
        | (.ok id?, _) => ∀ id ∈ id?, id ∉ life.issued
        | (.error _, t) => t = life.store := by
  intro life
  have first : (begin (.empty name)).Orderly (.empty name) :=
    orderly_begin (Store.holdsSound_bare name .empty)
  obtain ⟨g, orderly⟩ := first.calls calls
  have live : life.store.order ⊆ life.issued := fun id listed =>
    orderly.live id (orderly.held.holds.order ▸ listed)
  refine ⟨orderly.held.consistent, orderly.issuedNodup, live, fun change => ?_⟩
  have settles := orderly.held.settles change
  cases ran : change.procedure.runOn life.store with
  | mk result t =>
    rw [ran] at settles
    cases result with
    | error error => exact settles
    | ok id? =>
      obtain ⟨h, -, advances⟩ := settles
      exact orderly.not_issued advances

end Lifetime

end ControlFlow
