import Mathlib

/-!
# Bytes up to a terminator, and components between separators

Two readings of a byte buffer. `cstr` is the text before the first zero byte, which is all that a
terminated string means. `components` cuts a text at a separator and drops the empty pieces, which
is all that a path means; the facts below let a left-to-right scanner be matched against it.
-/

namespace TensorOS

/-! ## Terminated text -/

/-- The text before the first zero. -/
def cstr {α : Type*} [DecidableEq α] [Zero α] (l : List α) : List α := l.takeWhile (· ≠ 0)

section Terminated

variable {α : Type*} [DecidableEq α] [Zero α] {l : List α} {a : α}

theorem cstr_cons_zero : cstr (0 :: l) = [] := by simp [cstr]

theorem cstr_cons_of_ne (h : a ≠ 0) : cstr (a :: l) = a :: cstr l := by simp [cstr, h]

theorem cstr_append_zero (h : ∀ a ∈ l, a ≠ 0) (r : List α) : cstr (l ++ 0 :: r) = l := by
  induction l with
  | nil => exact cstr_cons_zero
  | cons a l ih =>
    rw [List.cons_append, cstr_cons_of_ne (h a (by simp)), ih fun b hb ↦ h b (by simp [hb])]

theorem cstr_eq_take {k : ℕ} (hk : k < l.length) (hzero : l[k] = 0)
    (hne : ∀ j, (hj : j < k) → l[j] ≠ 0) : cstr l = l.take k := by
  have hsplit : l = l.take k ++ 0 :: l.drop (k + 1) := by
    conv_lhs => rw [← List.take_append_drop k l]
    rw [List.drop_eq_getElem_cons hk, hzero]
  rw [hsplit, cstr_append_zero, ← hsplit]
  intro a ha
  obtain ⟨j, hj, rfl⟩ := List.mem_iff_getElem.mp ha
  rw [List.length_take] at hj
  rw [List.getElem_take]
  exact hne j (by omega)

theorem cstr_length_lt (h : (0 : α) ∈ l) : (cstr l).length < l.length := by
  induction l with
  | nil => simp at h
  | cons a l ih =>
    by_cases ha : a = 0
    · rw [ha, cstr_cons_zero]
      simp
    · rw [cstr_cons_of_ne ha]
      have := ih (by simpa [Ne.symm ha] using h)
      simpa using this

theorem ne_zero_of_mem_cstr (h : a ∈ cstr l) : a ≠ 0 := by
  simpa using List.mem_takeWhile_imp h

end Terminated

/-! ## Components -/

section Components

variable {α : Type*} [DecidableEq α] (sep : α)

/-- The non-empty pieces of a text between occurrences of `sep`, scanned with the piece read so far
in reverse. -/
def componentsAux : List α → List α → List (List α)
  | [], [] => []
  | [], cur => [cur.reverse]
  | c :: cs, [] => if c = sep then componentsAux cs [] else componentsAux cs [c]
  | c :: cs, cur =>
    if c = sep then cur.reverse :: componentsAux cs [] else componentsAux cs (c :: cur)

/-- The non-empty pieces of a text between occurrences of `sep`. -/
def components (l : List α) : List (List α) := componentsAux sep l []

@[simp] theorem components_nil : components sep [] = [] := rfl

@[simp] theorem components_cons_sep (l : List α) :
    components sep (sep :: l) = components sep l := by
  simp [components, componentsAux]

theorem components_dropWhile_sep (l : List α) :
    components sep (l.dropWhile (· = sep)) = components sep l := by
  induction l with
  | nil => rfl
  | cons c l ih =>
    by_cases h : c = sep
    · rw [List.dropWhile_cons_of_pos (by simpa using h), ih, h, components_cons_sep]
    · rw [List.dropWhile_cons_of_neg (by simpa using h)]

theorem componentsAux_eq_cons {l cur : List α} (hcur : cur ≠ []) :
    componentsAux sep l cur
      = (cur.reverse ++ l.takeWhile (· ≠ sep)) :: components sep (l.dropWhile (· ≠ sep)) := by
  induction l generalizing cur with
  | nil =>
    cases cur with
    | nil => exact absurd rfl hcur
    | cons d cur => simp [componentsAux]
  | cons c l ih =>
    cases cur with
    | nil => exact absurd rfl hcur
    | cons d cur =>
      by_cases h : c = sep
      · subst h
        simp [componentsAux, components]
      · have hstep : componentsAux sep (c :: l) (d :: cur)
            = componentsAux sep l (c :: d :: cur) := by
          simp [componentsAux, h]
        rw [hstep, ih (List.cons_ne_nil _ _)]
        simp [h]

/-- A component is not empty, holds no separator, and consists of characters of the text. -/
theorem mem_componentsAux {l cur c : List α} (hcur : sep ∉ cur) (h : c ∈ componentsAux sep l cur) :
    c ≠ [] ∧ sep ∉ c ∧ ∀ a ∈ c, a ∈ cur ∨ a ∈ l := by
  fun_induction componentsAux sep l cur with
  | case1 => simp at h
  | case2 cur hne =>
    obtain rfl := List.mem_singleton.mp h
    exact ⟨by simpa using hne, by simpa using hcur, by simp⟩
  | case3 cs ih =>
    obtain ⟨h₁, h₂, h₃⟩ := ih hcur h
    exact ⟨h₁, h₂, fun a ha ↦ by simpa using Or.inr (h₃ a ha)⟩
  | case4 c' cs hc ih =>
    obtain ⟨h₁, h₂, h₃⟩ := ih (by simpa using Ne.symm hc) h
    exact ⟨h₁, h₂, fun a ha ↦ by simpa using h₃ a ha⟩
  | case5 cs cur hne ih =>
    rcases List.mem_cons.mp h with rfl | h
    · exact ⟨by simpa using hne, by simpa using hcur, fun a ha ↦ by simp_all⟩
    · obtain ⟨h₁, h₂, h₃⟩ := ih (by simp) h
      exact ⟨h₁, h₂, fun a ha ↦ by simp_all⟩
  | case6 c' cs cur hne hc ih =>
    obtain ⟨h₁, h₂, h₃⟩ := ih (by simp [hcur, Ne.symm hc]) h
    refine ⟨h₁, h₂, fun a ha ↦ ?_⟩
    rcases h₃ a ha with hmem | hmem
    · rcases List.mem_cons.mp hmem with rfl | hmem
      · exact Or.inr (by simp)
      · exact Or.inl hmem
    · exact Or.inr (List.mem_cons_of_mem _ hmem)

theorem mem_components {l c : List α} (h : c ∈ components sep l) :
    c ≠ [] ∧ sep ∉ c ∧ ∀ a ∈ c, a ∈ l := by
  simpa using mem_componentsAux sep List.not_mem_nil h

/-- A text that starts with an ordinary character splits off its first piece. -/
theorem components_eq_cons {c : α} {l : List α} (h : c ≠ sep) :
    components sep (c :: l)
      = (c :: l).takeWhile (· ≠ sep) :: components sep ((c :: l).dropWhile (· ≠ sep)) := by
  rw [components, componentsAux, if_neg h, componentsAux_eq_cons sep (List.cons_ne_nil _ _)]
  simp [h]

theorem components_append_sep (l m : List α) :
    components sep (l ++ sep :: m) = components sep l ++ components sep m := by
  have key : ∀ (l cur : List α),
      componentsAux sep (l ++ sep :: m) cur = componentsAux sep l cur ++ components sep m := by
    intro l
    induction l with
    | nil =>
      intro cur
      cases cur with
      | nil => simp [componentsAux, components]
      | cons d cur => simp [componentsAux, components]
    | cons c l ih =>
      intro cur
      by_cases hc : c = sep
      · cases cur with
        | nil => simp [componentsAux, hc, ih]
        | cons d cur => simp [componentsAux, hc, ih]
      · cases cur with
        | nil => simp [componentsAux, hc, ih]
        | cons d cur => simp [componentsAux, hc, ih]
  exact key l []

theorem components_of_not_mem {l : List α} (hne : l ≠ []) (hsep : sep ∉ l) :
    components sep l = [l] := by
  cases l with
  | nil => exact absurd rfl hne
  | cons c l =>
    have hall : ∀ a ∈ c :: l, (decide (a ≠ sep)) = true := by
      intro a ha
      have hne : a ≠ sep := ne_of_mem_of_not_mem ha hsep
      simpa using hne
    rw [components_eq_cons sep fun h ↦ hsep (by simp [h]), List.takeWhile_eq_self_iff.mpr hall,
      List.dropWhile_eq_nil_iff.mpr hall, components_nil]

/-- The text that joins components, with a separator in front of each. -/
def joinComponents (names : List (List α)) : List α := names.flatMap (sep :: ·)

omit [DecidableEq α] in
theorem joinComponents_append (names : List (List α)) (name : List α) :
    joinComponents sep (names ++ [name]) = joinComponents sep names ++ sep :: name := by
  simp [joinComponents]

/-- **Joining and splitting.** Joined names are read back exactly if each of them could be a
component. -/
theorem components_joinComponents_iff (names : List (List α)) :
    components sep (joinComponents sep names) = names ↔ ∀ n ∈ names, n ≠ [] ∧ sep ∉ n := by
  constructor
  · intro h n hn
    rw [← h] at hn
    exact ⟨(mem_components sep hn).1, (mem_components sep hn).2.1⟩
  · intro h
    induction names using List.reverseRecOn with
    | nil => rfl
    | append_singleton names name ih =>
      have hname := h name (by simp)
      rw [joinComponents_append, components_append_sep, ih fun n hn ↦ h n (by simp [hn]),
        components_of_not_mem sep hname.1 hname.2]

end Components

end TensorOS
