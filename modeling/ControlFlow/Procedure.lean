import ControlFlow.Graph.Error

/-! Procedures change a state as they go along. One that fails in the middle leaves behind what it has
done by then. -/
namespace ControlFlow

variable {σ α β : Type}

/-- Changes a state in place, and may fail in the middle of that. -/
abbrev Procedure (σ α : Type) : Type := ExceptT GraphError (StateM σ) α

namespace Procedure

/-- What a procedure comes to, and the state that it leaves behind. -/
def runOn (procedure : Procedure σ α) (state : σ) : Except GraphError α × σ :=
  Id.run (StateT.run (ExceptT.run procedure) state)

/-- Computes something of the state. -/
def check (test : σ → Except GraphError α) : Procedure σ α := do
  match test (← get) with
  | .ok a => pure a
  | .error error => throw error

/-- Changes the state by a step that leaves it alone where it fails. -/
def change (step : σ → Except GraphError (α × σ)) : Procedure σ α := do
  match step (← get) with
  | .ok (a, next) =>
    set next
    pure a
  | .error error => throw error

variable {procedure : Procedure σ α} {next : α → Procedure σ β} {state : σ}

theorem runOn_bind : (procedure >>= next).runOn state =
    match procedure.runOn state with
    | (.ok a, left) => (next a).runOn left
    | (.error error, left) => (.error error, left) := by
  show Id.run (StateT.run (ExceptT.bindCont next (procedure.runOn state).1)
    (procedure.runOn state).2) = _
  obtain ⟨result, left⟩ := procedure.runOn state
  cases result with
  | ok a => rfl
  | error error => rfl

theorem runOn_map (f : α → β) : (f <$> procedure).runOn state =
    match procedure.runOn state with
    | (.ok a, left) => (.ok (f a), left)
    | (.error error, left) => (.error error, left) := by
  rw [map_eq_pure_bind, runOn_bind]
  rfl

theorem runOn_get_bind {next : σ → Procedure σ β} :
    (get >>= next).runOn state = (next state).runOn state := rfl

theorem runOn_check (test : σ → Except GraphError α) (state : σ) :
    (check test).runOn state = (test state, state) := by
  rw [check, runOn_get_bind]
  cases test state with
  | ok a => rfl
  | error error => rfl

theorem runOn_change (step : σ → Except GraphError (α × σ)) (state : σ) :
    (change step).runOn state =
      match step state with
      | .ok (a, next) => (.ok a, next)
      | .error error => (.error error, state) := by
  rw [change, runOn_get_bind]
  cases step state with
  | ok result => rfl
  | error error => rfl

end Procedure

end ControlFlow
