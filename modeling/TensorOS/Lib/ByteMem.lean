import Mathlib

/-!
# Byte memory and little-endian words

A memory is a function from addresses to bytes. `Holds m a l` says that the list `l` stands in
memory from address `a` on; it splits along `++`, so a layout of consecutive fields is read off one
field at a time. `writeBytes` is the store, described by the list that is stored, and
`writeBytes_append` and `writeBytes_comm` put any sequence of disjoint stores into one. A 32-bit
word is four bytes, least significant first.
-/

namespace TensorOS

/-! ## Words -/

/-- The word whose bytes are given, least significant first. -/
def word32 (b₀ b₁ b₂ b₃ : UInt8) : UInt32 :=
  b₀.toUInt32 ||| b₁.toUInt32 <<< 8 ||| b₂.toUInt32 <<< 16 ||| b₃.toUInt32 <<< 24

/-- The bytes of a word, least significant first. -/
def le32 (v : UInt32) : List UInt8 :=
  [(v &&& 0xFF).toUInt8, (v >>> 8 &&& 0xFF).toUInt8, (v >>> 16 &&& 0xFF).toUInt8,
    (v >>> 24 &&& 0xFF).toUInt8]

@[simp] theorem length_le32 (v : UInt32) : (le32 v).length = 4 := rfl

theorem toNat_word32 (b₀ b₁ b₂ b₃ : UInt8) : (word32 b₀ b₁ b₂ b₃).toNat
      = b₀.toNat + b₁.toNat * 2 ^ 8 + b₂.toNat * 2 ^ 16 + b₃.toNat * 2 ^ 24 := by
  have h₀ := b₀.toNat_lt
  have h₁ := b₁.toNat_lt
  have h₂ := b₂.toNat_lt
  have h₃ := b₃.toNat_lt
  have hor : ∀ {a b i : ℕ}, a < 2 ^ i → a ||| b <<< i = a + b * 2 ^ i := by
    intro a b i h
    rw [Nat.or_comm, ← Nat.shiftLeft_add_eq_or_of_lt h, Nat.shiftLeft_eq, Nat.add_comm]
  have hshift : ∀ {b k : ℕ}, b < 2 ^ 8 → k ≤ 24 → b <<< k % 2 ^ 32 = b <<< k := by
    intro b k hb hk
    refine Nat.mod_eq_of_lt ?_
    rw [Nat.shiftLeft_eq]
    calc b * 2 ^ k < 2 ^ 8 * 2 ^ k := Nat.mul_lt_mul_of_pos_right hb (by positivity)
      _ ≤ 2 ^ 8 * 2 ^ 24 := Nat.mul_le_mul_left _ (Nat.pow_le_pow_right (by decide) hk)
  simp only [word32, UInt32.toNat_or, UInt32.toNat_shiftLeft, UInt8.toNat_toUInt32]
  have e₈ : (8 : UInt32).toNat % 32 = 8 := rfl
  have e₁₆ : (16 : UInt32).toNat % 32 = 16 := rfl
  have e₂₄ : (24 : UInt32).toNat % 32 = 24 := rfl
  rw [e₈, e₁₆, e₂₄, hshift h₁ (by omega), hshift h₂ (by omega), hshift h₃ (by omega),
    hor (a := b₀.toNat) (i := 8) (by omega),
    hor (a := b₀.toNat + b₁.toNat * 2 ^ 8) (i := 16) (by omega), hor (by omega)]

theorem le32_eq (v : UInt32) : le32 v = [UInt8.ofNat v.toNat, UInt8.ofNat (v.toNat / 2 ^ 8),
    UInt8.ofNat (v.toNat / 2 ^ 16), UInt8.ofNat (v.toNat / 2 ^ 24)] := by
  have key : ∀ k : UInt32, k.toNat < 32 → (v >>> k &&& 0xFF).toUInt8
      = UInt8.ofNat (v.toNat / 2 ^ k.toNat) := by
    intro k hk
    apply UInt8.toNat_inj.mp
    rw [UInt32.toNat_toUInt8, UInt32.toNat_and, UInt32.toNat_shiftRight, Nat.mod_eq_of_lt hk,
      Nat.shiftRight_eq_div_pow, UInt8.toNat_ofNat']
    have hff : (0xFF : UInt32).toNat = 2 ^ 8 - 1 := rfl
    rw [hff, Nat.and_two_pow_sub_one_eq_mod, Nat.mod_mod]
  have k₀ := key 0 (by decide)
  have e₀ : v >>> 0 = v := by simp
  rw [e₀] at k₀
  rw [le32, key 8 (by decide), key 16 (by decide), key 24 (by decide), k₀]
  simp

/-- The bytes of a word that was put together from bytes. -/
theorem le32_word32 (b₀ b₁ b₂ b₃ : UInt8) : le32 (word32 b₀ b₁ b₂ b₃) = [b₀, b₁, b₂, b₃] := by
  have h₀ := b₀.toNat_lt
  have h₁ := b₁.toNat_lt
  have h₂ := b₂.toNat_lt
  have h₃ := b₃.toNat_lt
  have hbyte : ∀ {n : ℕ} {b : UInt8}, n % 2 ^ 8 = b.toNat → UInt8.ofNat n = b := by
    intro n b h
    apply UInt8.toNat_inj.mp
    rw [UInt8.toNat_ofNat', h]
  rw [le32_eq, toNat_word32, hbyte (b := b₀) (by omega), hbyte (b := b₁) (by omega),
    hbyte (b := b₂) (by omega), hbyte (b := b₃) (by omega)]

theorem word32_of_le32 {v : UInt32} {b₀ b₁ b₂ b₃ : UInt8} (h : le32 v = [b₀, b₁, b₂, b₃]) :
    word32 b₀ b₁ b₂ b₃ = v := by
  rw [le32_eq] at h
  obtain ⟨rfl, rfl, rfl, rfl, -⟩ : _ ∧ _ ∧ _ ∧ _ ∧ _ := by simpa only [List.cons.injEq] using h
  apply UInt32.toNat_inj.mp
  have hv := v.toNat_lt
  rw [toNat_word32]
  simp only [UInt8.toNat_ofNat']
  omega

theorem le32_injective : Function.Injective le32 := by
  intro v w h
  rw [← word32_of_le32 (v := v) rfl, ← word32_of_le32 (v := w) h.symm]

/-! ## Memory -/

variable {m m' : ℕ → UInt8} {a b k : ℕ} {l l₁ l₂ : List UInt8}

/-- The `n` bytes from address `a` on. -/
def bytesAt (m : ℕ → UInt8) (a n : ℕ) : List UInt8 := List.ofFn fun i : Fin n ↦ m (a + i)

/-- The word at address `a`. -/
def load32 (m : ℕ → UInt8) (a : ℕ) : UInt32 :=
  word32 (m a) (m (a + 1)) (m (a + 2)) (m (a + 3))

/-- Store a list of bytes from address `a` on. -/
def writeBytes (m : ℕ → UInt8) (a : ℕ) (l : List UInt8) : ℕ → UInt8 := fun k ↦
  if a ≤ k then (l[k - a]?).getD (m k) else m k

/-- The list stands in memory from address `a` on. -/
def Holds (m : ℕ → UInt8) (a : ℕ) (l : List UInt8) : Prop := bytesAt m a l.length = l

@[simp] theorem length_bytesAt (m : ℕ → UInt8) (a n : ℕ) : (bytesAt m a n).length = n := by
  simp [bytesAt]

theorem getElem?_bytesAt (m : ℕ → UInt8) (a n k : ℕ) :
    (bytesAt m a n)[k]? = if k < n then some (m (a + k)) else none := by
  rw [bytesAt, List.getElem?_ofFn]
  split <;> rfl

theorem bytesAt_append (m : ℕ → UInt8) (a i j : ℕ) :
    bytesAt m a (i + j) = bytesAt m a i ++ bytesAt m (a + i) j := by
  refine List.ext_getElem? fun k ↦ ?_
  rw [getElem?_bytesAt]
  by_cases hk : k < i
  · rw [List.getElem?_append_left (by simpa using hk), getElem?_bytesAt, if_pos (by omega),
      if_pos hk]
  · rw [List.getElem?_append_right (by simpa using hk), getElem?_bytesAt, length_bytesAt]
    by_cases hj : k < i + j
    · rw [if_pos hj, if_pos (by omega), Nat.add_assoc, Nat.add_sub_cancel' (by omega)]
    · rw [if_neg hj, if_neg (by omega)]

theorem bytesAt_congr {n : ℕ} (h : ∀ k, a ≤ k → k < a + n → m k = m' k) :
    bytesAt m a n = bytesAt m' a n := by
  refine List.ext_getElem? fun k ↦ ?_
  rw [getElem?_bytesAt, getElem?_bytesAt]
  by_cases hk : k < n
  · rw [if_pos hk, if_pos hk, h (a + k) (by omega) (by omega)]
  · rw [if_neg hk, if_neg hk]

theorem le32_load32 (m : ℕ → UInt8) (a : ℕ) : le32 (load32 m a) = bytesAt m a 4 := by
  rw [load32, le32_word32]
  simp [bytesAt, List.ofFn_succ]

theorem holds_iff : Holds m a l ↔ ∀ i, (hi : i < l.length) → m (a + i) = l[i] := by
  rw [Holds]
  constructor
  · intro h i hi
    have hget := getElem?_bytesAt m a l.length i
    rw [h, if_pos hi, List.getElem?_eq_getElem hi] at hget
    exact (Option.some.inj hget).symm
  · intro h
    refine List.ext_getElem (by simp) fun i h₁ h₂ ↦ ?_
    rw [← h i h₂]
    simp [bytesAt]

theorem holds_append : Holds m a (l₁ ++ l₂) ↔ Holds m a l₁ ∧ Holds m (a + l₁.length) l₂ := by
  rw [Holds, List.length_append, bytesAt_append]
  constructor
  · exact fun h ↦ List.append_inj h (by simp)
  · rintro ⟨h₁, h₂⟩
    rw [h₁, h₂]

theorem Holds.load32_eq {v : UInt32} (h : Holds m a (le32 v)) : load32 m a = v :=
  le32_injective ((le32_load32 m a).trans h)

theorem holds_flatten {ls : List (List UInt8)} (h : Holds m a ls.flatten) {i : ℕ}
    (hi : i < ls.length) : Holds m (a + (ls.take i).flatten.length) ls[i] := by
  have hsplit : ls.flatten = (ls.take i).flatten ++ (ls[i] ++ (ls.drop (i + 1)).flatten) := by
    rw [← List.flatten_cons, ← List.flatten_append, ← List.drop_eq_getElem_cons hi,
      List.take_append_drop]
  rw [hsplit, holds_append, holds_append] at h
  exact h.2.1

/-! ## Stores -/

theorem writeBytes_of_lt (hk : k < a) : writeBytes m a l k = m k := by
  rw [writeBytes, if_neg (by omega)]

theorem writeBytes_of_ge (hk : a + l.length ≤ k) : writeBytes m a l k = m k := by
  rw [writeBytes]
  split
  · rw [List.getElem?_eq_none (by omega), Option.getD_none]
  · rfl

theorem writeBytes_of_mem (i : ℕ) (hi : i < l.length) : writeBytes m a l (a + i) = l[i] := by
  rw [writeBytes, if_pos (by omega), Nat.add_sub_cancel_left, List.getElem?_eq_getElem hi,
    Option.getD_some]

theorem holds_writeBytes (m : ℕ → UInt8) (a : ℕ) (l : List UInt8) : Holds (writeBytes m a l) a l :=
  holds_iff.mpr fun i hi ↦ writeBytes_of_mem i hi

/-- Two stores one after the other are one store of both lists. -/
theorem writeBytes_append (m : ℕ → UInt8) (a : ℕ) (l₁ l₂ : List UInt8) :
    writeBytes (writeBytes m a l₁) (a + l₁.length) l₂ = writeBytes m a (l₁ ++ l₂) := by
  funext k
  by_cases h₁ : k < a
  · rw [writeBytes_of_lt (by omega), writeBytes_of_lt h₁, writeBytes_of_lt h₁]
  by_cases h₂ : k < a + l₁.length
  · obtain ⟨i, rfl⟩ := Nat.exists_eq_add_of_le (Nat.not_lt.mp h₁)
    rw [writeBytes_of_lt h₂, writeBytes_of_mem i (by omega),
      writeBytes_of_mem i (by rw [List.length_append]; omega), List.getElem_append_left]
  by_cases h₃ : k < a + l₁.length + l₂.length
  · obtain ⟨i, rfl⟩ := Nat.exists_eq_add_of_le (Nat.not_lt.mp h₂)
    rw [writeBytes_of_mem i (by omega), Nat.add_assoc,
      writeBytes_of_mem (l₁.length + i) (by rw [List.length_append]; omega),
      List.getElem_append_right (by omega)]
    simp
  · rw [writeBytes_of_ge (by omega), writeBytes_of_ge (by omega),
      writeBytes_of_ge (by rw [List.length_append]; omega)]

/-- Stores to disjoint ranges commute. -/
theorem writeBytes_comm (m : ℕ → UInt8) (l₁ l₂ : List UInt8) (h : a + l₁.length ≤ b) :
    writeBytes (writeBytes m a l₁) b l₂ = writeBytes (writeBytes m b l₂) a l₁ := by
  funext k
  by_cases hb : k < b
  · rw [writeBytes_of_lt hb]
    by_cases ha : k < a
    · rw [writeBytes_of_lt ha, writeBytes_of_lt ha, writeBytes_of_lt hb]
    by_cases ha' : k < a + l₁.length
    · obtain ⟨i, rfl⟩ := Nat.exists_eq_add_of_le (Nat.not_lt.mp ha)
      rw [writeBytes_of_mem i (by omega), writeBytes_of_mem i (by omega)]
    · rw [writeBytes_of_ge (by omega), writeBytes_of_ge (by omega), writeBytes_of_lt hb]
  · rw [writeBytes_of_ge (m := writeBytes m b l₂) (l := l₁) (by omega)]
    by_cases hb' : k < b + l₂.length
    · obtain ⟨i, rfl⟩ := Nat.exists_eq_add_of_le (Nat.not_lt.mp hb)
      rw [writeBytes_of_mem i (by omega), writeBytes_of_mem i (by omega)]
    · rw [writeBytes_of_ge (by omega), writeBytes_of_ge (by omega), writeBytes_of_ge (by omega)]

end TensorOS
