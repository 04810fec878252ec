import Mathlib
import TensorOS.Lib.Partiality

/-!
# Scanning memory that ends

The memory behind a pointer as the list of its cells: a read at or behind the end is out of bounds.
A scan that stops at a terminator returns what it would on the text alone, whatever is behind the
terminator, so it does not read that.
-/

namespace TensorOS

variable {α : Type} {l more : List α} {z : α}

/-- Read a cell. -/
def readAt (l : List α) (index : ℕ) : Except Fault α :=
  match l[index]? with
  | none => .error .outOfBounds
  | some c => .ok c

/-- Move the pointer on while the cell it points to passes the test. -/
def skipWhile (p : α → Bool) : List α → Except Fault (List α)
  | [] => .error .outOfBounds
  | c :: l => if p c then skipWhile p l else .ok (c :: l)

theorem readAt_eq_ok {index : ℕ} {c : α} (h : l[index]? = some c) : readAt l index = .ok c := by
  rw [readAt, h]

theorem readAt_beyond {index : ℕ} (h : l.length ≤ index) :
    readAt l index = .error .outOfBounds := by
  rw [readAt, List.getElem?_eq_none h]

theorem readAt_terminated {index : ℕ} (h : index ≤ l.length) :
    readAt (l ++ z :: more) index = .ok (l.getD index z) := by
  refine readAt_eq_ok ?_
  rcases Nat.lt_or_eq_of_le h with hlt | rfl
  · rw [List.getElem?_append_left hlt, List.getD_eq_getElem?_getD, List.getElem?_eq_getElem hlt,
      Option.getD_some]
  · rw [List.getElem?_append_right le_rfl, Nat.sub_self, List.getElem?_cons_zero,
      List.getD_eq_default _ _ le_rfl]

theorem skipWhile_terminated {p : α → Bool} (hz : p z = false) :
    skipWhile p (l ++ z :: more) = .ok (l.dropWhile p ++ z :: more) := by
  induction l with
  | nil => rw [List.nil_append, skipWhile, hz, List.dropWhile_nil]; rfl
  | cons c l ih =>
    rw [List.cons_append, skipWhile, List.dropWhile_cons]
    by_cases hc : p c = true
    · rw [if_pos hc, if_pos hc, ih]
    · rw [if_neg hc, if_neg hc, List.cons_append]

end TensorOS
