import Mathlib

/-!
# Parent maps and rooted chains

A tree stored as a parent map `p : α → α` with a distinguished root `r`: every element reaches `r`
by following `p`. What `p` does at the root itself is irrelevant here, since a walk stops there;
this is what lets a walk be reasoned about even when the root's own parent entry has been changed.

The two facts a mutation needs are that redirecting one element keeps every chain rooted as soon
as the new parent's chain avoids that element (`Rooted.update`), and that on a finite type a rooted
chain has fewer steps than there are elements (`Rooted.exists_lt_card`).
-/

namespace TensorOS

variable {α : Type*} {p : α → α} {r : α}

/-- Following `p` from the element reaches the root. -/
inductive Rooted (p : α → α) (r : α) : α → Prop
  | root : Rooted p r r
  | step {i : α} : i ≠ r → Rooted p r (p i) → Rooted p r i

/-- The element `n` is met on the walk from `i` before the walk stops at the root. -/
inductive OnChain (p : α → α) (r n : α) : α → Prop
  | here : n ≠ r → OnChain p r n n
  | up {i : α} : i ≠ r → OnChain p r n (p i) → OnChain p r n i

theorem OnChain.ne_root {n i : α} (h : OnChain p r n i) : i ≠ r := by
  cases h with
  | here h => exact h
  | up h _ => exact h

theorem OnChain.target_ne_root {n i : α} (h : OnChain p r n i) : n ≠ r := by
  induction h with
  | here h => exact h
  | up _ _ ih => exact ih

/-- What is above an element of the chain is on the chain. -/
theorem OnChain.parent {n i : α} (h : OnChain p r n i) (hn : p n ≠ r) : OnChain p r (p n) i := by
  induction h with
  | here hne => exact .up hne (.here hn)
  | up hne _ ih => exact .up hne ih

/-- A property of the start that parents inherit holds of everything on the chain. -/
theorem OnChain.induct_up {P : α → Prop} {n i : α} (hup : ∀ j, j ≠ r → P j → p j ≠ r → P (p j))
    (h : OnChain p r n i) (hi : P i) : P n := by
  induction h with
  | here _ => exact hi
  | up hne hrest ih => exact ih (hup _ hne hi hrest.ne_root)

namespace Rooted

variable [DecidableEq α] {n q i : α}

/-- A chain that does not meet `n` does not notice that `n` was redirected. -/
theorem update_of_not_onChain (h : Rooted p r i) (hn : ¬OnChain p r n i) :
    Rooted (Function.update p n q) r i := by
  induction h with
  | root => exact .root
  | @step i hne hrest ih =>
    have hin : i ≠ n := fun h ↦ hn (h ▸ .here (h ▸ hne))
    refine .step hne ?_
    rw [Function.update_of_ne hin]
    exact ih fun hc ↦ hn (.up hne hc)

/-- Redirecting `n` to `q` keeps every chain rooted, provided the chain of `q` avoids `n`. -/
theorem update (hq : Rooted p r q) (hn : ¬OnChain p r n q) (h : Rooted p r i) :
    Rooted (Function.update p n q) r i := by
  have hq' := hq.update_of_not_onChain (q := q) hn
  induction h with
  | root => exact .root
  | @step i hne hrest ih =>
    refine .step hne ?_
    by_cases hin : i = n
    · rw [hin, Function.update_self]
      exact hq'
    · rw [Function.update_of_ne hin]
      exact ih

omit [DecidableEq α] in
theorem parent_ne (h : Rooted p r i) (hne : i ≠ r) : p i ≠ i := by
  induction h with
  | root => exact absurd rfl hne
  | @step i _ hrest ih =>
    intro hself
    exact ih (hself.symm ▸ hne) (congrArg p hself)

omit [DecidableEq α] in
/-- No element is above itself. -/
theorem not_onChain_parent (h : Rooted p r i) (hne : i ≠ r) : ¬OnChain p r i (p i) := by
  induction h with
  | root => exact absurd rfl hne
  | @step i hi hrest ih =>
    intro hon
    have hp := hon.ne_root
    refine ih hp ?_
    generalize hq : p i = q at hon hp
    cases hon with
    | here _ =>
      rw [hq]
      exact .here hp
    | up _ hup => exact hq ▸ hup.parent (hq ▸ hp)

omit [DecidableEq α] in
/-- The walk as an iterate, stopping at the first visit to the root. -/
theorem exists_iterate (h : Rooted p r i) : ∃ k, p^[k] i = r ∧ ∀ j < k, p^[j] i ≠ r := by
  induction h with
  | root => exact ⟨0, rfl, by simp⟩
  | @step i hne hrest ih =>
    obtain ⟨k, hk, hlt⟩ := ih
    refine ⟨k + 1, hk, fun j hj ↦ ?_⟩
    cases j with
    | zero => exact hne
    | succ j => exact hlt j (by omega)

omit [DecidableEq α] in
/-- On a finite type the walk is shorter than the number of elements: a repetition before the root
would never leave its cycle. -/
theorem exists_lt_card [Fintype α] (h : Rooted p r i) :
    ∃ k < Fintype.card α, p^[k] i = r ∧ ∀ j < k, p^[j] i ≠ r := by
  obtain ⟨k, hk, hlt⟩ := h.exists_iterate
  have hinj : Function.Injective fun j : Fin (k + 1) ↦ p^[(j : ℕ)] i := by
    have key : ∀ a b : ℕ, a < b → b ≤ k → p^[a] i ≠ p^[b] i := by
      intro a b hab hbk heq
      have hroot : p^[k - b + a] i = r := by
        rw [Function.iterate_add_apply, heq, ← Function.iterate_add_apply,
          Nat.sub_add_cancel hbk, hk]
      exact hlt _ (by omega) hroot
    intro a b hab
    rcases lt_trichotomy (a : ℕ) b with h | h | h
    · exact absurd hab (key a b h (by omega))
    · exact Fin.ext h
    · exact absurd hab.symm (key b a h (by omega))
  have hcard := Fintype.card_le_of_injective _ hinj
  rw [Fintype.card_fin] at hcard
  exact ⟨k, by omega, hk, hlt⟩

omit [DecidableEq α] in
/-- The rule for a loop that walks to the root and counts its steps: one less than there are
elements are enough. -/
theorem walk_of_card_le [Fintype α] {P : ℕ → α → Prop} (hroot : ∀ left, P left r)
    (hstep : ∀ left j, j ≠ r → P left (p j) → P (left + 1) j) (h : Rooted p r i) {left : ℕ}
    (hleft : Fintype.card α ≤ left + 1) : P left i := by
  have key : ∀ (k left : ℕ) (j : α), k ≤ left → p^[k] j = r → (∀ n < k, p^[n] j ≠ r) →
      P left j := by
    intro k
    induction k with
    | zero =>
      rintro left _ _ rfl _
      exact hroot left
    | succ k ih =>
      intro left j hle hend hne
      obtain ⟨left, rfl⟩ : ∃ l, left = l + 1 := ⟨left - 1, by omega⟩
      exact hstep left j (hne 0 (by omega))
        (ih left (p j) (by omega) hend fun n hn ↦ hne (n + 1) (by omega))
  obtain ⟨k, hk, hend, hne⟩ := h.exists_lt_card
  exact key k _ i (by omega) hend hne

omit [DecidableEq α] in
theorem walk [Fintype α] {P : ℕ → α → Prop} (hroot : ∀ left, P left r)
    (hstep : ∀ left j, j ≠ r → P left (p j) → P (left + 1) j) (h : Rooted p r i) :
    P (Fintype.card α) i :=
  h.walk_of_card_le hroot hstep (Nat.le_succ _)

end Rooted

end TensorOS
