import Mathlib

/-!
# Reachable states of a transition system

A transition system is a set of start states and a step relation. The two rules below are what the
rest of the development uses: an invariant that holds at the start and is kept by every step holds
in every reachable state, and a stronger invariant may be carried along while another is proved.
-/

namespace TensorOS

/-- The states reached from a start state by finitely many steps. -/
inductive Reachable {σ : Type*} (start : σ → Prop) (step : σ → σ → Prop) : σ → Prop
  | start {s : σ} : start s → Reachable start step s
  | step {s t : σ} : Reachable start step s → step s t → Reachable start step t

namespace Reachable

variable {σ : Type*} {start : σ → Prop} {step step' : σ → σ → Prop} {s : σ}

/-- The invariant rule. -/
theorem invariant {P : σ → Prop} (h₀ : ∀ s, start s → P s)
    (hstep : ∀ s t, P s → step s t → P t) (h : Reachable start step s) : P s := by
  induction h with
  | start hs => exact h₀ _ hs
  | step _ hst ih => exact hstep _ _ ih hst

theorem mono (hle : ∀ s t, step s t → step' s t) (h : Reachable start step s) :
    Reachable start step' s := by
  induction h with
  | start hs => exact .start hs
  | step _ hst ih => exact .step ih (hle _ _ hst)

theorem foldlM {Λ : Type*} {next : σ → Λ → Option σ}
    (hnext : ∀ s l t, next s l = some t → step s t) {labels : List Λ} {t : σ}
    (h : Reachable start step s) (hrun : labels.foldlM next s = some t) :
    Reachable start step t := by
  induction labels generalizing s with
  | nil =>
    obtain rfl := Option.some.inj hrun
    exact h
  | cons l labels ih =>
    rw [List.foldlM_cons] at hrun
    obtain ⟨u, hu, hrun⟩ := Option.bind_eq_some_iff.mp hrun
    exact ih (h.step (hnext s l u hu)) hrun

end Reachable

end TensorOS
