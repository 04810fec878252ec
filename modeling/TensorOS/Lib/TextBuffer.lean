import Mathlib
import TensorOS.Lib.CString
import TensorOS.Lib.Partiality

/-!
# Text in a buffer of fixed capacity

A C function that builds a string stores its characters one by one in a buffer the caller owns. The
buffer is a vector of bytes here, and an access outside it is a fault. `HoldsText` says that the
buffer holds a text and its terminator; a store at the end of what has been written so far extends
the text, and `store_end` is the one fact about stores that the builders need.
-/

namespace TensorOS

/-- The bytes of a buffer. -/
abbrev TextBuffer (capacity : ℕ) := Vector UInt8 capacity

namespace TextBuffer

variable {capacity : ℕ} {buffer : TextBuffer capacity} {pre rest chars : List UInt8}

/-- Write the byte at an index. -/
def store (buffer : TextBuffer capacity) (index : ℕ) (value : UInt8) :
    Except Fault (TextBuffer capacity) :=
  if h : index < capacity then .ok (buffer.set index value h) else .error .outOfBounds

/-- Read the byte at an index. -/
def load (buffer : TextBuffer capacity) (index : ℕ) : Except Fault UInt8 :=
  match buffer.toList[index]? with
  | some value => .ok value
  | none => .error .outOfBounds

/-- Read the buffer as a terminated string. -/
def read (buffer : TextBuffer capacity) : Except Fault (List UInt8) :=
  if 0 ∈ buffer.toList then .ok (cstr buffer.toList) else .error .outOfBounds

/-- The buffer starts with a text and its terminator. -/
def HoldsText (buffer : TextBuffer capacity) (chars : List UInt8) : Prop :=
  ∃ rest, buffer.toList = chars ++ 0 :: rest

/-! ## Stores -/

theorem exists_cons_of_lt (h : buffer.toList = pre ++ rest) (hlt : pre.length < capacity) :
    ∃ old rest', rest = old :: rest' := by
  refine List.exists_cons_of_length_pos ?_
  have := congrArg List.length h
  rw [Vector.length_toList, List.length_append] at this
  omega

/-- Writing behind the first bytes replaces the next one. -/
theorem toList_set_end {old : UInt8} (h : buffer.toList = pre ++ old :: rest) (value : UInt8)
    (hlt : pre.length < capacity) :
    (buffer.set pre.length value hlt).toList = pre ++ value :: rest := by
  rw [Vector.toList_set, h, List.set_append_right _ _ le_rfl, Nat.sub_self, List.set_cons_zero]

/-- A store behind the first bytes stays in the buffer. -/
theorem store_end {old : UInt8} (h : buffer.toList = pre ++ old :: rest) (value : UInt8) :
    ∃ after, buffer.store pre.length value = .ok after ∧ after.toList = pre ++ value :: rest := by
  have hlt : pre.length < capacity := by
    have := congrArg List.length h
    simp only [Vector.length_toList, List.length_append, List.length_cons] at this
    omega
  exact ⟨buffer.set pre.length value hlt, dif_pos hlt, toList_set_end h value hlt⟩

/-- The terminator in front makes any buffer hold the empty text. -/
theorem store_zero (buffer : TextBuffer capacity) (h : 0 < capacity) :
    ∃ after, buffer.store 0 0 = .ok after ∧ after.HoldsText [] := by
  obtain ⟨rest, hsplit⟩ : ∃ rest, buffer.toList = [] ++ rest := ⟨buffer.toList, rfl⟩
  obtain ⟨old, rest, rfl⟩ := exists_cons_of_lt hsplit h
  obtain ⟨after, hstore, hafter⟩ := store_end hsplit 0
  exact ⟨after, hstore, rest, hafter⟩

/-! ## Held text -/

theorem HoldsText.length_lt (h : buffer.HoldsText chars) : chars.length < capacity := by
  obtain ⟨rest, h⟩ := h
  have := congrArg List.length h
  simp only [Vector.length_toList, List.length_append, List.length_cons] at this
  omega

theorem HoldsText.read_eq (h : buffer.HoldsText chars) (hne : ∀ c ∈ chars, c ≠ 0) :
    buffer.read = .ok chars := by
  obtain ⟨rest, h⟩ := h
  rw [read, h, if_pos (by simp), cstr_append_zero hne]

theorem HoldsText.load_last {c : UInt8} (h : buffer.HoldsText (chars ++ [c])) :
    buffer.load chars.length = .ok c := by
  obtain ⟨rest, h⟩ := h
  have hget : buffer.toList[chars.length]? = some c := by simp [h]
  rw [load, hget]

/-- A character stored over the terminator, and a new terminator behind it. -/
theorem HoldsText.push (h : buffer.HoldsText chars) (hfits : chars.length + 1 < capacity)
    (c : UInt8) : ∃ between after, buffer.store chars.length c = .ok between ∧
      between.store (chars.length + 1) 0 = .ok after ∧ after.HoldsText (chars ++ [c]) := by
  obtain ⟨rest, h⟩ := h
  have hend : buffer.toList = (chars ++ [0]) ++ rest := by simp [h]
  obtain ⟨old, rest, rfl⟩ := exists_cons_of_lt hend (by simpa using hfits)
  obtain ⟨between, hfirst, hbetween⟩ := store_end h c
  have hsplit : between.toList = (chars ++ [c]) ++ old :: rest := by
    rw [hbetween, List.append_assoc]
    rfl
  obtain ⟨after, hsecond, hafter⟩ := store_end hsplit 0
  rw [List.length_append, List.length_singleton] at hsecond
  exact ⟨between, after, hfirst, hsecond, rest, hafter⟩

end TextBuffer

/-! ## Comparison -/

/-- The loop that compares two texts character by character up to the end of both. -/
def textEquals : List UInt8 → List UInt8 → Bool
  | a :: left, b :: right => if a ≠ b then false else textEquals left right
  | [], [] => true
  | _, _ => false

theorem textEquals_iff {left right : List UInt8} : textEquals left right = true ↔ left = right := by
  fun_induction textEquals left right with
  | case1 a left b right hne => simp [hne]
  | case2 a left b right heq ih => simp_all
  | case3 => simp
  | case4 left right h₁ h₂ =>
    cases left with
    | nil =>
      cases right with
      | nil => exact absurd rfl (h₂ rfl)
      | cons b right => simp
    | cons a left =>
      cases right with
      | nil => simp
      | cons b right => exact (h₁ a left b right rfl rfl).elim

end TensorOS
