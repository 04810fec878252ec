import Mathlib

/-!
# Overwriting a part of an array

An operation on an array overwrites a set of places if it changes nothing elsewhere, and what it
leaves in the set does not depend on what was there. Loops of assignments are built from single ones
by composition. Two arrays that go through the same operation agree on the set afterwards, whatever
they held before.
-/

namespace TensorOS

variable {ι α β : Type*}

/-- The operation overwrites the places in the set. -/
structure Overwrites (R : Set ι) (f : (ι → α) → ι → α) : Prop where
  frame : ∀ a {i}, i ∉ R → f a i = a i
  agree : ∀ a b {i}, i ∈ R → f a i = f b i

namespace Overwrites

variable {R S : Set ι} {f g : (ι → α) → ι → α}

theorem id : Overwrites (∅ : Set ι) fun a : ι → α ↦ a :=
  ⟨fun _ _ _ ↦ rfl, fun _ _ _ hi ↦ hi.elim⟩

/-- A single assignment. -/
theorem update [DecidableEq ι] (i : ι) (x : α) :
    Overwrites {i} fun a : ι → α ↦ Function.update a i x := by
  constructor
  · intro a j hj
    exact Function.update_of_ne hj ..
  · rintro a b j rfl
    rw [Function.update_self, Function.update_self]

/-- One operation after the other. -/
theorem comp (hg : Overwrites S g) (hf : Overwrites R f) :
    Overwrites (R ∪ S) fun a ↦ g (f a) := by
  constructor
  · intro a i hi
    rw [hg.frame _ fun hS ↦ hi (Or.inr hS), hf.frame _ fun hR ↦ hi (Or.inl hR)]
  · intro a b i hi
    by_cases hS : i ∈ S
    · exact hg.agree _ _ hS
    · rw [hg.frame _ hS, hg.frame _ hS]
      exact hf.agree _ _ (hi.resolve_right hS)

theorem congr (hf : Overwrites R f) (h : R = S) : Overwrites S f := h ▸ hf

/-- A loop of operations. -/
theorem foldl {l : List β} {T : β → Set ι} {step : (ι → α) → β → ι → α}
    (h : ∀ x ∈ l, Overwrites (T x) fun a ↦ step a x) :
    Overwrites {i | ∃ x ∈ l, i ∈ T x} fun a ↦ l.foldl step a := by
  induction l with
  | nil => exact id.congr (by simp)
  | cons x l ih =>
    have htail := ih fun y hy ↦ h y (List.mem_cons_of_mem _ hy)
    refine (htail.comp (h x List.mem_cons_self)).congr ?_
    ext i
    simp

end Overwrites

end TensorOS
