import Mathlib

/-!
# Byte files with independent cursors

What an open file is for, in its own terms: a volume is a family of lists, and a cursor is a file
together with a position, which may lie beyond the end. The events below are the successful or
refused operations a client can observe, with the data they transfer, and `Volume.Step` says how
each one changes the volume. Positions and lengths are bounded by a capacity.
-/

namespace TensorOS

/-! ## Overwriting a range -/

section WriteAt

variable {α : Type*} [Zero α]

/-- Replace the elements of `l` from position `o` on by those of `w`, filling a gap between the end
of `l` and `o` with zeros. -/
def writeAt (l : List α) (o : ℕ) (w : List α) : List α :=
  (l ++ List.replicate (o - l.length) 0).take o ++ w ++ l.drop (o + w.length)

theorem length_writeAt (l : List α) (o : ℕ) (w : List α) :
    (writeAt l o w).length = max l.length (o + w.length) := by
  simp only [writeAt, List.length_append, List.length_take, List.length_replicate,
    List.length_drop]
  omega

theorem getElem?_writeAt (l : List α) (o : ℕ) (w : List α) (k : ℕ) :
    (writeAt l o w)[k]? =
      if o ≤ k ∧ k < o + w.length then w[k - o]?
      else if l.length ≤ k ∧ k < o then some 0
      else l[k]? := by
  have hhead : ((l ++ List.replicate (o - l.length) 0).take o).length = o := by
    simp only [List.length_take, List.length_append, List.length_replicate]
    omega
  rw [writeAt, List.append_assoc]
  by_cases hk : k < o
  · rw [List.getElem?_append_left (by omega), List.getElem?_take_of_lt hk,
      if_neg (by omega)]
    by_cases hl : l.length ≤ k
    · rw [List.getElem?_append_right hl, if_pos ⟨hl, hk⟩, List.getElem?_replicate,
        if_pos (by omega)]
    · rw [List.getElem?_append_left (by omega), if_neg (by omega)]
  · rw [List.getElem?_append_right (by omega), hhead, if_neg (by omega : ¬(l.length ≤ k ∧ k < o))]
    by_cases hw : k < o + w.length
    · rw [List.getElem?_append_left (by omega), if_pos (by omega)]
    · rw [List.getElem?_append_right (by omega), if_neg (by omega), List.getElem?_drop]
      congr 1
      omega

end WriteAt

/-! ## Volumes -/

variable {ι κ α : Type*}

/-- Files by index, and for each cursor that is open the file and the position. -/
structure Volume (ι κ α : Type*) where
  file : ι → List α
  cursor : κ → Option (ι × ℕ)

/-- Where a seek counts from. -/
inductive Whence
  | start
  | cursor
  | finish
  deriving DecidableEq, Repr

/-- The position a seek counts from, for a cursor at `offset` in a file of the given length. -/
def Whence.base (offset length : ℕ) : Whence → ℕ
  | start => 0
  | cursor => offset
  | finish => length

/-- What a client observes of one operation on a cursor. -/
inductive FileEvent (ι κ α : Type*)
  /-- The cursor was opened on the file, which was emptied if `truncate` holds. -/
  | open (k : κ) (i : ι) (truncate : Bool)
  /-- A read of `n` elements delivered `w`. -/
  | read (k : κ) (n : ℕ) (w : List α)
  | write (k : κ) (w : List α)
  /-- A write of `w` was refused for lack of space. -/
  | writeRefused (k : κ) (w : List α)
  | seek (k : κ) (whence : Whence) (delta : Int) (target : ℕ)
  | seekRefused (k : κ) (whence : Whence) (delta : Int)
  | close (k : κ)

namespace Volume

variable [DecidableEq ι] [DecidableEq κ] [Zero α]

/-- Move a cursor. -/
def setCursor (v : Volume ι κ α) (k : κ) (c : Option (ι × ℕ)) : Volume ι κ α :=
  { v with cursor := Function.update v.cursor k c }

/-- Replace the contents of a file. -/
def setFile (v : Volume ι κ α) (i : ι) (l : List α) : Volume ι κ α :=
  { v with file := Function.update v.file i l }

/-- One operation on a volume whose files hold at most `cap` elements. -/
inductive Step (cap : ℕ) (v : Volume ι κ α) : FileEvent ι κ α → Volume ι κ α → Prop
  | open {k : κ} {i : ι} {truncate : Bool} : v.cursor k = none →
      Step cap v (.open k i truncate)
        ((if truncate then v.setFile i [] else v).setCursor k (some (i, 0)))
  | read {k : κ} {i : ι} {o n : ℕ} : v.cursor k = some (i, o) →
      Step cap v (.read k n (((v.file i).drop o).take n))
        (v.setCursor k (some (i, o + (((v.file i).drop o).take n).length)))
  | write {k : κ} {i : ι} {o : ℕ} {w : List α} : v.cursor k = some (i, o) → o + w.length ≤ cap →
      Step cap v (.write k w)
        ((v.setFile i (writeAt (v.file i) o w)).setCursor k (some (i, o + w.length)))
  | writeRefused {k : κ} {i : ι} {o : ℕ} {w : List α} : v.cursor k = some (i, o) →
      cap < o + w.length → Step cap v (.writeRefused k w) v
  | seek {k : κ} {i : ι} {o target : ℕ} {whence : Whence} {delta : Int} : v.cursor k = some (i, o) →
      (target : Int) = whence.base o (v.file i).length + delta → target ≤ cap →
      Step cap v (.seek k whence delta target) (v.setCursor k (some (i, target)))
  | seekRefused {k : κ} {i : ι} {o : ℕ} {whence : Whence} {delta : Int} :
      v.cursor k = some (i, o) → ¬(0 ≤ whence.base o (v.file i).length + delta ∧
        whence.base o (v.file i).length + delta ≤ cap) →
      Step cap v (.seekRefused k whence delta) v
  | close {k : κ} {i : ι} {o : ℕ} : v.cursor k = some (i, o) →
      Step cap v (.close k) (v.setCursor k none)

/-- A sequence of operations. -/
inductive Run (cap : ℕ) : Volume ι κ α → List (FileEvent ι κ α) → Volume ι κ α → Prop
  | nil {v : Volume ι κ α} : Run cap v [] v
  | cons {v v' v'' : Volume ι κ α} {e : FileEvent ι κ α} {es : List (FileEvent ι κ α)} :
      Step cap v e v' → Run cap v' es v'' → Run cap v (e :: es) v''

end Volume

end TensorOS
