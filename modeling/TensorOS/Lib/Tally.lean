import Mathlib

/-!
# Counting the indices with a property

A tally counts the indices of a finite type that have a property. What is used of it is when it is
zero, and how it changes when the property changes at one index.
-/

namespace TensorOS

variable {ι : Type*} [Fintype ι] {p q : ι → Prop} [DecidablePred p] [DecidablePred q]

/-- How many indices have the property. -/
def tally (p : ι → Prop) [DecidablePred p] : ℕ := (Finset.univ.filter p).card

theorem tally_congr (h : ∀ i, p i ↔ q i) : tally p = tally q := by
  rw [tally, tally, Finset.filter_congr fun i _ ↦ h i]

theorem tally_pos : 0 < tally p ↔ ∃ i, p i := by
  rw [tally, Finset.card_pos, Finset.filter_nonempty_iff]
  simp

theorem tally_eq_zero : tally p = 0 ↔ ∀ i, ¬ p i := by
  rw [tally, Finset.card_eq_zero, Finset.filter_eq_empty_iff]
  simp

theorem tally_le : tally p ≤ Fintype.card ι := Finset.card_filter_le _ _

theorem tally_mono (h : ∀ i, p i → q i) : tally p ≤ tally q :=
  Finset.card_le_card (Finset.monotone_filter_right _ fun i _ ↦ h i)

section One

variable {i : ι} (h : ∀ j, j ≠ i → (p j ↔ q j))

include h

theorem tally_gain (hp : ¬ p i) (hq : q i) : tally q = tally p + 1 := by
  classical
  have hset : Finset.univ.filter q = insert i (Finset.univ.filter p) := by
    ext j
    by_cases hj : j = i
    · simp [hj, hq]
    · simp [hj, h j hj]
  rw [tally, hset, Finset.card_insert_of_notMem (by simpa using hp), ← tally]

theorem tally_lose (hp : p i) (hq : ¬ q i) : tally q + 1 = tally p :=
  (tally_gain (fun j hj ↦ (h j hj).symm) hq hp).symm

/-- The index on which they may differ has the property in both or in neither. -/
theorem tally_same (hi : p i ↔ q i) : tally p = tally q := by
  refine tally_congr fun j ↦ ?_
  by_cases hj : j = i
  · rw [hj, hi]
  · exact h j hj

end One

end TensorOS
