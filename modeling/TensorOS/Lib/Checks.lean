import Mathlib
import TensorOS.Lib.Partiality

/-!
# Sequences of checks that read memory

A validator is a sequence of checks. Each of them first reads what it needs, which may be out of
bounds, and then answers; the first answer that is not OK ends the sequence. A check is a pair:
whether its reads are in bounds, and its answer. What a check answers matters for the reads of the
ones behind it, since they are reached only if it is OK.

`Contained` says this by recursion on the list. The lemmas split it along concatenations and loops,
so that what keeps a validator in bounds is read off its parts.
-/

namespace TensorOS

variable {σ : Type} [DecidableEq σ] (good : σ)

/-- Run the checks up to the first one that reads out of bounds or does not answer `good`. -/
def runChecks : List (Bool × σ) → Except Fault σ
  | [] => .ok good
  | (inBounds, status) :: rest =>
    if inBounds = false then .error .outOfBounds
    else if status ≠ good then .ok status
    else runChecks rest

/-- Every check that is reached reads in bounds. -/
def Contained : List (Bool × σ) → Prop
  | [] => True
  | (inBounds, status) :: rest => inBounds = true ∧ (status = good → Contained rest)

/-- All answers are good. -/
def AllGood (checks : List (Bool × σ)) : Prop := ∀ check ∈ checks, check.2 = good

variable {good}

/-- **The checks return** exactly if they are contained. -/
theorem runChecks_returns_iff {checks : List (Bool × σ)} :
    (∃ status, runChecks good checks = .ok status) ↔ Contained good checks := by
  induction checks with
  | nil => simp [runChecks, Contained]
  | cons check rest ih =>
    obtain ⟨inBounds, status⟩ := check
    rw [runChecks, Contained, ← ih]
    cases inBounds with
    | false => simp
    | true =>
      by_cases hgood : status = good
      · simp [hgood]
      · simp [hgood]

omit [DecidableEq σ] in
theorem contained_append {before after : List (Bool × σ)} : Contained good (before ++ after) ↔
    Contained good before ∧ (AllGood good before → Contained good after) := by
  induction before with
  | nil => simp [Contained, AllGood]
  | cons check before ih =>
    obtain ⟨inBounds, status⟩ := check
    rw [List.cons_append, Contained, Contained, ih]
    simp only [AllGood, List.forall_mem_cons]
    tauto

omit [DecidableEq σ] in
theorem allGood_append {before after : List (Bool × σ)} : AllGood good (before ++ after) ↔
    AllGood good before ∧ AllGood good after :=
  List.forall_mem_append

omit [DecidableEq σ] in
theorem allGood_flatMap {α : Type} {l : List α} {round : α → List (Bool × σ)} :
    AllGood good (l.flatMap round) ↔ ∀ a ∈ l, AllGood good (round a) := by
  simp only [AllGood, List.mem_flatMap]
  exact ⟨fun h a ha check hcheck ↦ h check ⟨a, ha, hcheck⟩,
    fun h check ⟨a, ha, hcheck⟩ ↦ h a ha check hcheck⟩

omit [DecidableEq σ] in
/-- A loop is contained if each round is, once the rounds before it were good. -/
theorem contained_flatMap_range {n : ℕ} {round : ℕ → List (Bool × σ)} :
    Contained good ((List.range n).flatMap round) ↔
      ∀ k < n, (∀ j < k, AllGood good (round j)) → Contained good (round k) := by
  induction n with
  | zero => simp [Contained]
  | succ n ih =>
    rw [List.range_succ, List.flatMap_append, contained_append, ih, allGood_flatMap]
    simp only [List.mem_range, List.flatMap_cons, List.flatMap_nil, List.append_nil]
    constructor
    · rintro ⟨hbefore, hlast⟩ k hk hgood
      rcases Nat.lt_or_eq_of_le (Nat.lt_succ_iff.mp hk) with hlt | rfl
      · exact hbefore k hlt hgood
      · exact hlast hgood
    · intro h
      exact ⟨fun k hk ↦ h k (by omega), h n (by omega)⟩

omit [DecidableEq σ] in
/-- Checks whose reads are all in bounds are contained. -/
theorem contained_of_forall {checks : List (Bool × σ)} (h : ∀ check ∈ checks, check.1 = true) :
    Contained good checks := by
  induction checks with
  | nil => trivial
  | cons check rest ih =>
    obtain ⟨hfirst, hrest⟩ := List.forall_mem_cons.mp h
    exact ⟨hfirst, fun _ ↦ ih hrest⟩

end TensorOS
