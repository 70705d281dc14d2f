import Mathlib

/-! Computations that can fail. -/
namespace ControlFlow

variable {ε ε' α β : Type}

/-- A sequence succeeds when its parts do. -/
theorem bind_eq_ok_iff {x : Except ε α} {f : α → Except ε β} {b : β} :
    x >>= f = .ok b ↔ ∃ a, x = .ok a ∧ f a = .ok b := by
  cases x with
  | error error => simp [bind, Except.bind]
  | ok a => simp [bind, Except.bind]

theorem ok_bind (a : α) (f : α → Except ε β) : (.ok a : Except ε α) >>= f = f a := rfl

theorem mapError_eq_ok_iff {x : Except ε α} {f : ε → ε'} {a : α} :
    x.mapError f = .ok a ↔ x = .ok a := by
  cases x with
  | error error => simp [Except.mapError]
  | ok a => simp [Except.mapError]

theorem map_eq_ok_iff {x : Except ε α} {f : α → β} {b : β} :
    x.map f = .ok b ↔ ∃ a, x = .ok a ∧ f a = b := by
  cases x with
  | error error => simp [Except.map]
  | ok a => simp [Except.map]

/-- Two computations both fail, or both succeed with related results. -/
def Agree (R : α → β → Prop) : Except ε α → Except ε' β → Prop
  | .ok a, .ok b => R a b
  | .error _, .error _ => True
  | _, _ => False

namespace Agree

variable {γ δ : Type} {R : α → β → Prop} {S : γ → δ → Prop}

theorem mono {R' : α → β → Prop} {x : Except ε α} {y : Except ε' β} (agree : Agree R x y)
    (weaker : ∀ a b, R a b → R' a b) : Agree R' x y := by
  cases x with
  | error error => cases y with
    | error error' => trivial
    | ok b => exact agree
  | ok a => cases y with
    | error error' => exact agree
    | ok b => exact weaker a b agree

/-- Where one succeeds, the other does. -/
theorem exists_ok {a : α} {y : Except ε' β} (agree : Agree R (.ok a : Except ε α) y) :
    ∃ b, y = .ok b ∧ R a b := by
  cases y with
  | error error => exact agree.elim
  | ok b => exact ⟨b, rfl, agree⟩

theorem exists_error {error : ε} {y : Except ε' β} (agree : Agree R (.error error) y) :
    ∃ error', y = .error error' := by
  cases y with
  | error error' => exact ⟨error', rfl⟩
  | ok b => exact agree.elim

/-- Computations that agree on their results succeed alike. -/
theorem ok_iff {x : Except ε α} {y : Except ε' α} (agree : Agree (· = ·) x y) {a : α} :
    x = .ok a ↔ y = .ok a := by
  cases x <;> cases y <;> simp_all [Agree]

theorem refl (x : Except ε α) : Agree (· = ·) x x := by
  cases x with
  | error error => trivial
  | ok a => rfl

/-- It does not matter how errors are told. -/
theorem mapError {ε₁ ε₂ : Type} {x : Except ε α} {y : Except ε' β} (agree : Agree R x y)
    (f : ε → ε₁) (f' : ε' → ε₂) : Agree R (x.mapError f) (y.mapError f') := by
  cases x with
  | error error => cases y with
    | error error' => trivial
    | ok b => exact agree
  | ok a => cases y with
    | error error' => exact agree
    | ok b => exact agree

/-- Sequences agree when their parts do. -/
theorem bind {x : Except ε α} {y : Except ε' β} {f : α → Except ε γ} {g : β → Except ε' δ}
    (first : Agree R x y) (rest : ∀ a b, R a b → Agree S (f a) (g b)) :
    Agree S (x >>= f) (y >>= g) := by
  cases x with
  | error error => cases y with
    | error error' => trivial
    | ok b => exact first.elim
  | ok a => cases y with
    | error error' => exact first.elim
    | ok b => exact rest a b first

/-- So do loops whose rounds do. -/
theorem foldlM {Q : γ → δ → Prop} {f : α → γ → Except ε α} {g : β → δ → Except ε' β}
    (round : ∀ a b c d, R a b → Q c d → Agree R (f a c) (g b d)) {items : List γ}
    {items' : List δ} (listed : List.Forall₂ Q items items') {a : α} {b : β} (start : R a b) :
    Agree R (items.foldlM f a) (items'.foldlM g b) := by
  induction listed generalizing a b with
  | nil => exact start
  | cons head tail ih =>
    rw [List.foldlM_cons, List.foldlM_cons]
    exact (round _ _ _ _ start head).bind fun _ _ => ih

end Agree

/-- A computation succeeds as one predicate tells or fails as another one does. -/
def Outcome (done : α → Prop) (failed : ε → Prop) : Except ε α → Prop
  | .ok a => done a
  | .error error => failed error

namespace Outcome

variable {done : α → Prop} {failed : ε → Prop} {x : Except ε α}

theorem of_ok {a : α} (outcome : Outcome done failed x) (ran : x = .ok a) : done a := by
  subst ran
  exact outcome

theorem of_error {error : ε} (outcome : Outcome done failed x) (ran : x = .error error) :
    failed error := by
  subst ran
  exact outcome

theorem mono {done' : α → Prop} {failed' : ε → Prop} (outcome : Outcome done failed x)
    (weaker : ∀ a, done a → done' a) (likewise : ∀ error, failed error → failed' error) :
    Outcome done' failed' x := by
  cases x with
  | error error => exact likewise error outcome
  | ok a => exact weaker a outcome

theorem bind {done' : β → Prop} {f : α → Except ε β} (first : Outcome done failed x)
    (rest : ∀ a, done a → Outcome done' failed (f a)) : Outcome done' failed (x >>= f) := by
  cases x with
  | error error => exact first
  | ok a => exact rest a first

theorem mapError {failed' : ε' → Prop} {f : ε → ε'}
    (outcome : Outcome done (fun error => failed' (f error)) x) :
    Outcome done failed' (x.mapError f) := by
  cases x with
  | error error => exact outcome
  | ok a => exact outcome

/-- A loop whose rounds take what is known of the items behind them to the next item. -/
theorem foldlM {known : List β → α → Prop} {f : α → β → Except ε α} (items : List β)
    (round : ∀ seen item rest a, seen ++ item :: rest = items → known seen a →
      Outcome (known (seen ++ [item])) failed (f a item)) {a : α} (start : known [] a) :
    Outcome (known items) failed (items.foldlM f a) := by
  have from_here (rest seen : List β) (a : α) (split : seen ++ rest = items) (here : known seen a) :
      Outcome (known items) failed (rest.foldlM f a) := by
    induction rest generalizing seen a with
    | nil =>
      rw [List.append_nil] at split
      subst split
      exact here
    | cons item rest ih =>
      rw [List.foldlM_cons]
      exact (round seen item rest a split here).bind fun b => ih (seen ++ [item]) b (by simp [split])
  exact from_here items [] a rfl start

end Outcome

end ControlFlow
