import Mathlib
import TensorOS.Lib.Partiality
import TensorOS.Lib.Signed

/-!
# Snapshots into a buffer of fixed size

A function that lists things into the caller's buffer writes as many as there is room for, and
returns how many there are. The caller gets a `Snapshot`: entries that may not have been written,
and a count that may be larger than the buffer. A reader is safe if it stays below both
(`Holds.read_eq_ok`), and a loop to the count is if and only if everything found room
(`Holds.foldlM_eq_ok`, `foldlM_beyond`).
-/

namespace TensorOS

/-- The entries of a buffer, and the number the writer returned. -/
structure Snapshot (α : Type) (m : ℕ) where
  entries : Vector (Option α) m
  count : UInt32

namespace Snapshot

variable {α β : Type} {m k : ℕ} {s : Snapshot α m} {l : List α}

/-- Nothing is written yet. -/
def blank (α : Type) (m : ℕ) : Snapshot α m := ⟨Vector.replicate m none, 0⟩

/-- Write the next entry if there is room, and count it. -/
def push (s : Snapshot α m) (a : α) : Snapshot α m :=
  ⟨s.entries.setIfInBounds s.count.toNat (some a), s.count + 1⟩

/-- Read an entry. -/
def read (s : Snapshot α m) (index : ℕ) : Except Undefined α :=
  match s.entries[index]? with
  | none => .error .outOfBounds
  | some none => .error .uninitialised
  | some (some a) => .ok a

/-- **The snapshot of a list**: its first `m` members, and its length. -/
structure Holds (s : Snapshot α m) (l : List α) : Prop where
  entry : ∀ index < m, s.entries[index]? = some l[index]?
  count : s.count.toNat = l.length

theorem holds_blank : (blank α m).Holds [] where
  entry index h := by simp [blank, h]
  count := rfl

theorem Holds.push (h : s.Holds l) (a : α) (hl : l.length + 1 < 2 ^ 32) :
    (s.push a).Holds (l ++ [a]) where
  entry index hi := by
    rw [Snapshot.push, h.count, Vector.getElem?_setIfInBounds]
    split
    · rename_i heq
      subst heq
      simp [hi]
    · rename_i hne
      rw [h.entry index hi]
      rcases Nat.lt_or_ge index l.length with hlt | hge
      · rw [List.getElem?_append_left hlt]
      · have hbeyond : (l ++ [a]).length ≤ index := by
          rw [List.length_append, List.length_singleton]
          omega
        rw [List.getElem?_eq_none hge, List.getElem?_eq_none hbeyond]
  count := by
    have hone : (1 : UInt32).toNat = 1 := rfl
    rw [Snapshot.push, UInt32.toNat_add, h.count, hone, Nat.mod_eq_of_lt hl, List.length_append,
      List.length_singleton]

theorem holds_foldl_push (h : l.length < 2 ^ 32) :
    (l.foldl Snapshot.push (blank α m)).Holds l := by
  induction l using List.reverseRecOn with
  | nil => exact holds_blank
  | append_singleton l a ih =>
    rw [List.length_append, List.length_singleton] at h
    rw [List.foldl_append]
    exact (ih (by omega)).push a h

/-! ## Reading -/

theorem Holds.read_eq_ok (h : s.Holds l) {index : ℕ} {a : α} (hi : index < m)
    (ha : l[index]? = some a) : s.read index = .ok a := by
  rw [read, h.entry index hi, ha]

/-- There are no entries beyond the buffer. -/
theorem read_beyond {index : ℕ} (h : m ≤ index) : s.read index = .error .outOfBounds := by
  rw [read, Vector.getElem?_eq_none h]

/-- A loop below both bounds folds over the listed members. -/
theorem Holds.foldlM_eq_ok (h : s.Holds l) (f : β → α → β) (b : β) (hm : k ≤ m)
    (hl : k ≤ l.length) :
    (List.range k).foldlM (fun b index ↦ do return f b (← s.read index)) b
      = .ok ((l.take k).foldl f b) := by
  induction k with
  | zero => rfl
  | succ k ih =>
    have hk : l[k]? = some l[k] := List.getElem?_eq_getElem hl
    rw [List.range_succ, List.foldlM_append, ih (by omega) (by omega), ok_bind, List.foldlM_cons,
      h.read_eq_ok hm hk, List.take_add_one, hk, List.foldl_append]
    rfl

/-- A loop to a count larger than the buffer reads beyond it. -/
theorem foldlM_beyond (f : β → α → β) (b b' : β) (hk : m < k) :
    (List.range k).foldlM (fun b index ↦ do return f b (← s.read index)) b ≠ .ok b' := by
  obtain ⟨n, rfl⟩ := Nat.exists_eq_add_of_lt hk
  intro heq
  rw [Nat.add_assoc, List.range_add, List.range_succ_eq_map, List.foldlM_append] at heq
  obtain ⟨c, -, hrest⟩ := bind_eq_ok.mp heq
  rw [List.map_cons, List.foldlM_cons, read_beyond (Nat.le_add_right m 0)] at hrest
  cases hrest

/-- A search below both bounds finds the first listed member that passes. -/
theorem Holds.findM?_eq_ok (h : s.Holds l) (p : α → Bool) (hm : k ≤ m) (hl : k ≤ l.length) :
    (List.range k).findM? (fun index ↦ do return p (← s.read index))
      = .ok ((List.range k).find? fun index ↦ l[index]?.any p) := by
  refine TensorOS.findM?_eq_ok fun index hindex ↦ ?_
  rw [List.mem_range] at hindex
  have hk : l[index]? = some l[index] := List.getElem?_eq_getElem (by omega)
  rw [h.read_eq_ok (by omega) hk, hk]
  rfl

end Snapshot

end TensorOS
