import Mathlib

/-!
# Computations that may fault

A computation of the source either returns or meets a `Fault`. Below are the few equations about
`Except` that peel a computation apart: a bind after a result, a bind that
produced a result, a mapped result, and a monadic search or map whose body never faults.
-/

namespace TensorOS

/-- What a C execution can do instead of returning. -/
inductive Fault
  /-- An array is read or written outside its bounds. -/
  | outOfBounds
  /-- A loop is never left. -/
  | diverges
  deriving DecidableEq, Repr

universe u

variable {ε : Type u} {α β : Type u}

@[simp] theorem ok_bind (a : α) (f : α → Except ε β) : (Except.ok a >>= f) = f a := rfl

@[simp] theorem error_bind (e : ε) (f : α → Except ε β) :
    ((Except.error e : Except ε α) >>= f) = .error e := rfl

theorem bind_eq_ok {x : Except ε α} {f : α → Except ε β} {b : β} :
    x >>= f = .ok b ↔ ∃ a, x = .ok a ∧ f a = .ok b := by
  cases x with
  | error e => simp
  | ok a => simp

theorem map_eq_ok {x : Except ε α} {f : α → β} {b : β} :
    x.map f = .ok b ↔ ∃ a, x = .ok a ∧ f a = b := by
  cases x with
  | error e => simp [Except.map]
  | ok a => simp [Except.map]

theorem findM?_eq_ok {ε α : Type} {p : α → Except ε Bool} {q : α → Bool} {l : List α}
    (h : ∀ a ∈ l, p a = .ok (q a)) : l.findM? p = .ok (l.find? q) := by
  induction l with
  | nil => rfl
  | cons a l ih =>
    rw [List.findM?, h a (by simp), ok_bind, List.find?_cons]
    cases q a with
    | true => rfl
    | false => exact ih fun b hb ↦ h b (by simp [hb])

theorem mapM_eq_ok {ε α β : Type} {f : α → Except ε β} {g : α → β} {l : List α}
    (h : ∀ a ∈ l, f a = .ok (g a)) : l.mapM f = .ok (l.map g) := by
  induction l with
  | nil => rfl
  | cons a l ih =>
    rw [List.mapM_cons, h a (by simp), ok_bind, ih fun b hb ↦ h b (by simp [hb]), ok_bind]
    rfl

end TensorOS
