import Mathlib

/-!
# Texts cut at a separator

`List.splitOn` keeps the empty pieces, and `List.intercalate` is its inverse. A scanner does not cut
the whole text: it reads the first piece, looks at what stands behind it and goes on from there.
-/

namespace TensorOS

/-- The pieces of `c :: l` from the pieces of `l`: a separator ends an empty piece, any other
element goes in front of the first one. -/
theorem exists_of_splitOnP_cons {α : Type*} {p : α → Bool} {c : α} {l line : List α}
    {lines : List (List α)} (h : (c :: l).splitOnP p = line :: lines) :
    ∃ first others, l.splitOnP p = first :: others ∧
      (p c = true ∧ line = [] ∧ lines = first :: others ∨
        ¬ p c = true ∧ line = c :: first ∧ lines = others) := by
  obtain ⟨first, others, hsplit⟩ := List.exists_cons_of_ne_nil (List.splitOnP_ne_nil p l)
  rw [List.splitOnP_cons_eq_if_modifyHead, hsplit] at h
  refine ⟨first, others, hsplit, ?_⟩
  by_cases hc : p c = true
  · rw [if_pos hc] at h
    obtain ⟨rfl, rfl⟩ := List.cons.inj h
    exact .inl ⟨hc, rfl, rfl⟩
  · rw [if_neg hc, List.modifyHead_cons] at h
    obtain ⟨rfl, rfl⟩ := List.cons.inj h
    exact .inr ⟨hc, rfl, rfl⟩

variable {α : Type*} [DecidableEq α] {sep : α} {piece : List α}

theorem exists_of_splitOn_cons {c : α} {l line : List α} {lines : List (List α)}
    (h : (c :: l).splitOn sep = line :: lines) :
    ∃ first others, l.splitOn sep = first :: others ∧
      (c = sep ∧ line = [] ∧ lines = first :: others ∨
        c ≠ sep ∧ line = c :: first ∧ lines = others) := by
  obtain ⟨first, others, hsplit, hline⟩ := exists_of_splitOnP_cons h
  exact ⟨first, others, hsplit, by simpa using hline⟩

theorem not_mem_of_mem_splitOn {l : List α} (h : piece ∈ l.splitOn sep) : sep ∉ piece := by
  induction l generalizing piece with
  | nil =>
    rw [List.splitOn_nil, List.mem_singleton] at h
    simp [h]
  | cons c l ih =>
    obtain ⟨line, lines, hcut⟩ := List.exists_cons_of_ne_nil (List.splitOn_ne_nil sep (c :: l))
    obtain ⟨first, others, hsplit, hline⟩ := exists_of_splitOn_cons hcut
    rw [hcut, List.mem_cons] at h
    rw [hsplit] at ih
    obtain ⟨hc, rfl, rfl⟩ | ⟨hc, rfl, rfl⟩ := hline
    · rcases h with rfl | h
      · exact List.not_mem_nil
      · exact ih h
    · rcases h with rfl | h
      · rw [List.mem_cons, not_or]
        exact ⟨Ne.symm hc, ih (by simp)⟩
      · exact ih (by simp [h])

theorem takeWhile_intercalate (pieces : List (List α)) (h : sep ∉ piece) :
    ([sep].intercalate (piece :: pieces)).takeWhile (· ≠ sep) = piece := by
  have hall : ∀ a ∈ piece, decide (a ≠ sep) = true := fun a ha ↦ by
    simpa using ne_of_mem_of_not_mem ha h
  cases pieces with
  | nil =>
    rw [List.intercalate_singleton]
    exact List.takeWhile_eq_self_iff.mpr hall
  | cons next pieces =>
    rw [List.intercalate_cons_cons, List.append_assoc, List.takeWhile_append_of_pos hall,
      List.singleton_append, List.takeWhile_cons_of_neg (by simp), List.append_nil]

omit [DecidableEq α] in
/-- Behind the first piece stands the separator and the text of the others. -/
theorem drop_intercalate_cons (sep : α) (piece next : List α) (pieces : List (List α)) :
    ([sep].intercalate (piece :: next :: pieces)).drop piece.length
      = sep :: [sep].intercalate (next :: pieces) := by
  rw [List.intercalate_cons_cons, List.append_assoc, List.drop_left]
  rfl

omit [DecidableEq α] in
/-- The text of the other pieces stands behind the first one, so it is shorter. -/
theorem length_intercalate_cons (sep : α) (piece : List α) (pieces : List (List α)) :
    piece.length + ([sep].intercalate pieces).length
      ≤ ([sep].intercalate (piece :: pieces)).length := by
  cases pieces with
  | nil => simp
  | cons next pieces =>
    rw [List.intercalate_cons_cons, List.length_append, List.length_append, List.length_singleton]
    omega

end TensorOS
