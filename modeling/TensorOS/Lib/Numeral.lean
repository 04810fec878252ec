import Mathlib

/-!
# Numerals in ASCII

A numeral of base `base` is a non-empty text of digits, and it denotes the number that
`Nat.ofDigits` gives, whatever its length. A reader that goes through it from the left multiplies
what it has by the base and adds a digit; `Nat.ofDigits_reverse_cons` is that step on the number.
-/

namespace TensorOS

/-- The value of a digit of a base up to 16. -/
def asciiDigit (ch : UInt8) : Option ℕ :=
  if 48 ≤ ch.toNat ∧ ch.toNat ≤ 57 then some (ch.toNat - 48)
  else if 97 ≤ ch.toNat ∧ ch.toNat ≤ 102 then some (ch.toNat - 87)
  else if 65 ≤ ch.toNat ∧ ch.toNat ≤ 70 then some (ch.toNat - 55)
  else none

theorem asciiDigit_lt {ch : UInt8} {value : ℕ} (h : asciiDigit ch = some value) : value < 16 := by
  simp only [asciiDigit] at h
  split at h
  · cases h
    omega
  split at h
  · cases h
    omega
  split at h
  · cases h
    omega
  · cases h

/-- The digits of a text have these values. -/
def HasDigits (base : ℕ) (text : List UInt8) (values : List ℕ) : Prop :=
  text.Forall₂ (fun ch value ↦ asciiDigit ch = some value ∧ value < base) values

/-- **The number of a numeral**, most significant digit first. -/
def NumeralIn (base : ℕ) (text : List UInt8) (n : ℕ) : Prop :=
  text ≠ [] ∧ ∃ values, HasDigits base text values ∧ n = Nat.ofDigits base values.reverse

section Numeral

variable {base n m : ℕ} {text : List UInt8} {values values' : List ℕ}

theorem HasDigits.length_eq (h : HasDigits base text values) : text.length = values.length :=
  List.Forall₂.length_eq h

theorem HasDigits.unique (h : HasDigits base text values) (h' : HasDigits base text values') :
    values = values' := by
  induction h generalizing values' with
  | nil =>
    cases h' with
    | nil => rfl
  | cons hd _ ih =>
    cases h' with
    | cons hd' tl' =>
      rw [ih tl', Option.some.inj (hd.1.symm.trans hd'.1)]

theorem NumeralIn.unique (h : NumeralIn base text n) (h' : NumeralIn base text m) : n = m := by
  obtain ⟨-, values, hdigits, rfl⟩ := h
  obtain ⟨-, values', hdigits', rfl⟩ := h'
  rw [hdigits.unique hdigits']

theorem NumeralIn.digit (h : NumeralIn base text n) {ch : UInt8} (hch : ch ∈ text) :
    ∃ value, asciiDigit ch = some value ∧ value < base := by
  obtain ⟨-, values, hdigits, -⟩ := h
  induction hdigits with
  | nil => exact absurd hch List.not_mem_nil
  | @cons _ value _ _ hd _ ih =>
    rcases List.mem_cons.mp hch with rfl | hch
    · exact ⟨value, hd⟩
    · exact ih hch

end Numeral

end TensorOS
