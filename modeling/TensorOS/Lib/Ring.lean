import Mathlib

/-!
# Ring buffers

A ring buffer keeps a queue in an array: the elements stand one behind the other from a start index
on, round the end of the array. Read as a list from the start on, writing behind the last element
appends it and advancing the start drops the oldest one. Neither moves an element, and the list does
not show where in the array it begins.
-/

namespace TensorOS

section Ring

variable {α : Type*} {n : ℕ} [NeZero n]

/-- The `count` elements from `start` on, the oldest first. -/
def ringContents (slots : Fin n → α) (start : Fin n) (count : ℕ) : List α :=
  (List.range count).map fun k ↦ slots (Fin.ofNat n (start + k))

@[simp] theorem length_ringContents (slots : Fin n → α) (start : Fin n) (count : ℕ) :
    (ringContents slots start count).length = count := by
  rw [ringContents, List.length_map, List.length_range]

@[simp] theorem ringContents_zero (slots : Fin n → α) (start : Fin n) :
    ringContents slots start 0 = [] := rfl

/-- The place behind the last element is not one of those in use. -/
theorem ofNat_add_ne (start : Fin n) {k count : ℕ} (hk : k < count) (hcount : count < n) :
    Fin.ofNat n (start + k) ≠ Fin.ofNat n (start + count) := by
  intro heq
  have hmod : start + k ≡ start + count [MOD n] := congrArg Fin.val heq
  exact hk.ne (hmod.add_left_cancel'.eq_of_lt_of_lt (hk.trans hcount) hcount)

theorem ringContents_update (slots : Fin n → α) (start : Fin n) {count : ℕ} (h : count < n)
    (a : α) : ringContents (Function.update slots (Fin.ofNat n (start + count)) a) start (count + 1)
      = ringContents slots start count ++ [a] := by
  rw [ringContents, List.range_succ, List.map_append, ringContents]
  congr 1
  · apply List.map_congr_left
    intro k hk
    exact Function.update_of_ne (ofNat_add_ne start (List.mem_range.mp hk) h) ..
  · exact congrArg (· :: []) (Function.update_self ..)

theorem ringContents_succ (slots : Fin n → α) (start : Fin n) (count : ℕ) :
    ringContents slots start (count + 1)
      = slots start :: ringContents slots (Fin.ofNat n (start + 1)) count := by
  rw [ringContents, List.range_succ_eq_map, List.map_cons, List.map_map, ringContents]
  congr 1
  · congr 1
    exact Fin.ofNat_val_eq_self start
  · apply List.map_congr_left
    intro k _
    have hindex : Fin.ofNat n (start + (k + 1)) = Fin.ofNat n (Fin.ofNat n (start + 1) + k) := by
      apply Fin.ext
      rw [Fin.val_ofNat, Fin.val_ofNat, Fin.val_ofNat, Nat.mod_add_mod, Nat.add_assoc,
        Nat.add_comm 1 k]
    exact congrArg slots hindex

end Ring

end TensorOS
