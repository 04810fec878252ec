import Mathlib
import TensorOS.Lib.Numeral
import TensorOS.Lib.Signed
import TensorOS.Fs.Basic

/-!
# Numeric tokens of the management console

`parse_u32_token` reads a decimal or hexadecimal numeral of any length into a 32-bit word, and does
not notice when the word overflows: what it stores is the number modulo 2 ^ 32
(`parseU32Token_eq_some`). `parse_i32_token` puts a sign in front of the same reader and compares
the word with the bounds of `int32_t`. The negation of the word 2 ^ 31 leaves that range, which has
no meaning in C.
-/

namespace TensorOS

/-! ## The source -/

/-- The digit of a character, as the loop of `parse_u32_token` selects it. -/
def digitOf (base : UInt32) (ch : UInt8) : Option UInt32 :=
  if 48 ≤ ch ∧ ch ≤ 57 then some (ch - 48).toUInt32
  else if base = 16 ∧ 97 ≤ ch ∧ ch ≤ 102 then some (10 + (ch - 97).toUInt32)
  else if base = 16 ∧ 65 ≤ ch ∧ ch ≤ 70 then some (10 + (ch - 65).toUInt32)
  else none

/-- The loop of `parse_u32_token`. -/
def parseDigits (base : UInt32) : List UInt8 → UInt32 → Option UInt32
  | [], result => some result
  | ch :: token, result =>
    match digitOf base ch with
    | none => none
    | some digit => if base ≤ digit then none else parseDigits base token (result * base + digit)

/-- The token starts with `0x` or `0X` and goes on. -/
def hasHexPrefix (token : List UInt8) : Bool :=
  2 < token.length && token.getD 0 0 = 48 && (token.getD 1 0 = 120 || token.getD 1 0 = 88)

/-- `parse_u32_token`. -/
def parseU32Token (token : List UInt8) : Option UInt32 :=
  if token.length = 0 then none
  else
    let base : UInt32 := if hasHexPrefix token then 16 else 10
    let index := if hasHexPrefix token then 2 else 0
    if index = token.length then none else parseDigits base (token.drop index) 0

/-- `parse_i32_token`. -/
def parseI32Token (token : List UInt8) : Except Undefined (Option Int) :=
  if 1 < token.length ∧ token.getD 0 0 = 45 then
    match parseU32Token (token.drop 1) with
    | none => .ok none
    | some value =>
      if 2147483648 < value then .ok none
      else (checkInt32 (-int32 value)).map some
  else
    match parseU32Token token with
    | none => .ok none
    | some value => if 2147483647 < value then .ok none else .ok (some (int32 value))

/-! ## What a token says -/

/-- **The number of a token**: decimal digits, or `0x` and hexadecimal digits. -/
def Denotes (token : List UInt8) (n : ℕ) : Prop :=
  NumeralIn 10 token n ∨
    ∃ x digits, (x = 120 ∨ x = 88) ∧ token = 48 :: x :: digits ∧ NumeralIn 16 digits n

/-- The number of a token that may have a minus sign. -/
def DenotesSigned (token : List UInt8) (z : Int) : Prop :=
  (∃ n, Denotes token n ∧ z = n) ∨ ∃ digits n, token = 45 :: digits ∧ Denotes digits n ∧ z = -n

/-! ## Reading digits -/

section Digits

variable {base : UInt32} {ch : UInt8}

theorem toUInt32_sub (low : UInt8) (h : low.toNat ≤ ch.toNat) :
    (ch - low).toUInt32 = UInt32.ofNat (ch.toNat - low.toNat) := by
  apply UInt32.toNat_inj.mp
  have := ch.toNat_lt
  rw [UInt8.toNat_toUInt32, UInt8.toNat_sub_of_le ch low h, UInt32.toNat_ofNat_of_lt']
  change _ < 2 ^ 32
  omega

theorem ten_add_ofNat {k : ℕ} : 10 + UInt32.ofNat k = UInt32.ofNat (10 + k) := by
  rw [UInt32.ofNat_add]
  rfl

/-- The reader knows the decimal digits, and in base 16 the letters. -/
theorem digitOf_eq : digitOf base ch = (asciiDigit ch).bind fun value ↦
    if value < 10 ∨ base = 16 then some (UInt32.ofNat value) else none := by
  simp only [digitOf, asciiDigit, UInt8.le_iff_toNat_le, UInt8.reduceToNat]
  by_cases h₁ : 48 ≤ ch.toNat ∧ ch.toNat ≤ 57
  · rw [if_pos h₁, if_pos h₁, Option.bind_some, if_pos (by omega), toUInt32_sub 48 h₁.1]
    rfl
  rw [if_neg h₁, if_neg h₁]
  by_cases h16 : base = 16
  · simp only [h16, true_and, or_true, if_true]
    by_cases h₂ : 97 ≤ ch.toNat ∧ ch.toNat ≤ 102
    · rw [if_pos h₂, if_pos h₂, Option.bind_some, toUInt32_sub 97 h₂.1, ten_add_ofNat]
      congr 2
      have : UInt8.toNat 97 = 97 := rfl
      omega
    rw [if_neg h₂, if_neg h₂]
    by_cases h₃ : 65 ≤ ch.toNat ∧ ch.toNat ≤ 70
    · rw [if_pos h₃, if_pos h₃, Option.bind_some, toUInt32_sub 65 h₃.1, ten_add_ofNat]
      congr 2
      have : UInt8.toNat 65 = 65 := rfl
      omega
    · rw [if_neg h₃, if_neg h₃, Option.bind_none]
  · -- a letter has a value of at least ten
    simp only [h16, false_and, or_false, if_false]
    split
    · rw [Option.bind_some, if_neg (by omega)]
    split
    · rw [Option.bind_some, if_neg (by omega)]
    · rw [Option.bind_none]

theorem digitOf_iff (digit : UInt32) (hbase : base = 10 ∨ base = 16) :
    (digitOf base ch = some digit ∧ ¬base ≤ digit) ↔
      asciiDigit ch = some digit.toNat ∧ digit.toNat < base.toNat := by
  rw [digitOf_eq, UInt32.le_iff_toNat_le, not_le]
  cases hvalue : asciiDigit ch with
  | none => simp
  | some value =>
    have hlt := asciiDigit_lt hvalue
    have hword : (UInt32.ofNat value).toNat = value := UInt32.toNat_ofNat_of_lt' (by
      change _ < 2 ^ 32
      omega)
    rw [Option.bind_some, Option.some_inj]
    refine and_congr_left fun hdigit ↦ ?_
    have hallowed : value = digit.toNat → value < 10 ∨ base = 16 := by
      rcases hbase with rfl | rfl
      · exact fun h ↦ .inl (h ▸ hdigit)
      · exact fun _ ↦ .inr rfl
    constructor
    · intro h
      split at h
      · rw [← Option.some.inj h, hword]
      · cases h
    · intro h
      rw [if_pos (hallowed h), h, UInt32.ofNat_toNat]

theorem nextDigit_mod (base result digit : UInt32) (length rest : ℕ) :
    ((result * base + digit).toNat * base.toNat ^ length + rest) % 2 ^ 32
      = (result.toNat * base.toNat ^ (length + 1) + (rest + base.toNat ^ length * digit.toNat))
        % 2 ^ 32 := by
  have hword : (result * base + digit).toNat
      ≡ result.toNat * base.toNat + digit.toNat [MOD 2 ^ 32] := by
    rw [UInt32.toNat_add, UInt32.toNat_mul, Nat.mod_add_mod]
    exact Nat.mod_modEq _ _
  calc ((result * base + digit).toNat * base.toNat ^ length + rest) % 2 ^ 32
      = ((result.toNat * base.toNat + digit.toNat) * base.toNat ^ length + rest) % 2 ^ 32 :=
        (hword.mul_right _).add_right _
    _ = _ := by
      congr 1
      ring

/-- **The loop** stores the number modulo 2 ^ 32, behind the digits read before. -/
theorem parseDigits_eq_some (hbase : base = 10 ∨ base = 16) {token : List UInt8}
    {result value : UInt32} : parseDigits base token result = some value ↔
      ∃ values, HasDigits base.toNat token values ∧
        value.toNat = (result.toNat * base.toNat ^ token.length +
          Nat.ofDigits base.toNat values.reverse) % 2 ^ 32 := by
  induction token generalizing result with
  | nil =>
    rw [parseDigits, Option.some_inj]
    constructor
    · rintro rfl
      exact ⟨[], .nil, by simp⟩
    · rintro ⟨values, hvalues, hvalue⟩
      cases hvalues with
      | nil =>
        apply UInt32.toNat_inj.mp
        rw [hvalue]
        simp
  | cons ch token ih =>
    rw [parseDigits]
    constructor
    · intro h
      cases hdigit : digitOf base ch with
      | none => simp [hdigit] at h
      | some digit =>
        rw [hdigit] at h
        dsimp only at h
        split at h
        · cases h
        · rename_i hle
          obtain ⟨values, hvalues, hvalue⟩ := ih.mp h
          have hd := (digitOf_iff digit hbase).mp ⟨hdigit, hle⟩
          refine ⟨digit.toNat :: values, .cons hd hvalues, ?_⟩
          rw [hvalue, nextDigit_mod, Nat.ofDigits_reverse_cons, ← hvalues.length_eq,
            List.length_cons]
    · rintro ⟨values, hvalues, hvalue⟩
      cases hvalues with
      | @cons _ d _ values hd hvalues =>
        have hlt := asciiDigit_lt hd.1
        have hd' : (UInt32.ofNat d).toNat = d := UInt32.toNat_ofNat_of_lt' (by
          change _ < 2 ^ 32
          omega)
        obtain ⟨hdigit, hle⟩ := (digitOf_iff (.ofNat d) hbase).mpr (by rwa [hd'])
        rw [hdigit]
        dsimp only
        rw [if_neg hle]
        refine ih.mpr ⟨values, hvalues, ?_⟩
        rw [hvalue, nextDigit_mod, Nat.ofDigits_reverse_cons, ← hvalues.length_eq,
          List.length_cons, hd']

end Digits

/-! ## Reading words -/

section Words

variable {token : List UInt8} {n m : ℕ}

theorem hasHexPrefix_iff : hasHexPrefix token = true ↔
    ∃ x digits, (x = 120 ∨ x = 88) ∧ digits ≠ [] ∧ token = 48 :: x :: digits := by
  rw [hasHexPrefix]
  constructor
  · intro h
    simp only [Bool.and_eq_true, Bool.or_eq_true, decide_eq_true_eq] at h
    obtain ⟨⟨hlen, hzero⟩, hx⟩ := h
    match token, hlen with
    | c :: x :: d :: digits, _ =>
      exact ⟨x, d :: digits, hx, List.cons_ne_nil _ _, by rw [← hzero]; rfl⟩
  · rintro ⟨x, digits, hx, hne, rfl⟩
    have hpos := List.length_pos_iff.mpr hne
    simp [hx]
    omega

theorem not_numeralIn_marked {x : UInt8} (hx : x = 120 ∨ x = 88) (digits : List UInt8) :
    ¬NumeralIn 10 (48 :: x :: digits) n := by
  intro h
  obtain ⟨value, hvalue, -⟩ := h.digit (List.mem_cons_of_mem _ List.mem_cons_self)
  rcases hx with rfl | rfl
  · exact absurd hvalue (by simp [asciiDigit])
  · exact absurd hvalue (by simp [asciiDigit])

/-- What a token says depends on its prefix, as what the reader does. -/
theorem denotes_iff : Denotes token n ↔
    if hasHexPrefix token then NumeralIn 16 (token.drop 2) n else NumeralIn 10 token n := by
  by_cases h : hasHexPrefix token = true
  · obtain ⟨x, digits, hx, -, rfl⟩ := hasHexPrefix_iff.mp h
    rw [if_pos h]
    constructor
    · rintro (hdecimal | ⟨y, digits', -, heq, hhex⟩)
      · exact absurd hdecimal (not_numeralIn_marked hx digits)
      · rw [heq]
        exact hhex
    · exact fun hhex ↦ .inr ⟨x, digits, hx, rfl, hhex⟩
  · rw [if_neg h]
    constructor
    · rintro (hdecimal | ⟨x, digits, hx, heq, hhex⟩)
      · exact hdecimal
      · exact absurd (hasHexPrefix_iff.mpr ⟨x, digits, hx, hhex.1, heq⟩) h
    · exact Or.inl

/-- A token has one number. -/
theorem Denotes.unique (h : Denotes token n) (h' : Denotes token m) : n = m := by
  rw [denotes_iff] at h h'
  by_cases hprefix : hasHexPrefix token = true
  · rw [if_pos hprefix] at h h'
    exact h.unique h'
  · rw [if_neg hprefix] at h h'
    exact h.unique h'

theorem parseDigits_zero {base value : UInt32} (hbase : base = 10 ∨ base = 16) (hne : token ≠ []) :
    parseDigits base token 0 = some value ↔
      ∃ n, NumeralIn base.toNat token n ∧ value.toNat = n % 2 ^ 32 := by
  rw [parseDigits_eq_some hbase]
  constructor
  · rintro ⟨values, hvalues, hvalue⟩
    exact ⟨_, ⟨hne, values, hvalues, rfl⟩, by simpa using hvalue⟩
  · rintro ⟨n, ⟨-, values, hvalues, rfl⟩, hvalue⟩
    exact ⟨values, hvalues, by simpa using hvalue⟩

/-- **The word of a token** is its number modulo 2 ^ 32. -/
theorem parseU32Token_eq_some {value : UInt32} : parseU32Token token = some value ↔
    ∃ n, Denotes token n ∧ value.toNat = n % 2 ^ 32 := by
  simp only [denotes_iff, parseU32Token]
  by_cases hnil : token = []
  · rw [if_pos (by simp [hnil])]
    refine iff_of_false (by simp) ?_
    rintro ⟨n, hn, -⟩
    rw [if_neg (by simp [hnil, hasHexPrefix])] at hn
    exact hn.1 hnil
  rw [if_neg (by simpa using hnil)]
  by_cases h : hasHexPrefix token = true
  · obtain ⟨x, digits, -, hne, rfl⟩ := hasHexPrefix_iff.mp h
    have hpos := List.length_pos_iff.mpr hne
    simp only [h, if_true]
    rw [if_neg (by simp; omega)]
    exact parseDigits_zero (.inr rfl) hne
  · simp only [h, if_false, Bool.false_eq_true]
    have hpos := List.length_pos_iff.mpr hnil
    rw [if_neg (by omega), List.drop_zero]
    exact parseDigits_zero (.inl rfl) hnil

/-! ## Exact reading -/

/-- A token is read exactly: the reader accepts the numbers of a word, and stores them. -/
def ReadsU32 (token : List UInt8) : Prop :=
  ∀ value : UInt32, parseU32Token token = some value ↔ Denotes token value.toNat

/-- The same for signed tokens and the values of `int32_t`. -/
def ReadsI32 (token : List UInt8) : Prop :=
  ∃ result, parseI32Token token = .ok result ∧
    ∀ z, result = some z ↔ DenotesSigned token z ∧ IsInt32 z

/-- The number of the token does not fit a word. -/
def WrapsU32 (token : List UInt8) : Prop := ∃ n, Denotes token n ∧ 2 ^ 32 ≤ n

/-- The number of the token does not fit a word, and its remainder passes for a value; or the word
is the one that cannot be negated. -/
def WrapsI32 (token : List UInt8) : Prop :=
  (∃ n, Denotes token n ∧ 2 ^ 32 ≤ n ∧ n % 2 ^ 32 < 2 ^ 31) ∨
    ∃ digits n, token = 45 :: digits ∧ Denotes digits n ∧
      (n = 2 ^ 31 ∨ 2 ^ 32 ≤ n ∧ n % 2 ^ 32 ≤ 2 ^ 31)

theorem readsU32_iff : ReadsU32 token ↔ ¬WrapsU32 token := by
  constructor
  · rintro h ⟨n, hn, hlarge⟩
    have hparse : parseU32Token token = some (UInt32.ofNat n) :=
      parseU32Token_eq_some.mpr ⟨n, hn, UInt32.toNat_ofNat'⟩
    have := hn.unique ((h _).mp hparse)
    have := (UInt32.ofNat n).toNat_lt
    omega
  · intro h value
    rw [parseU32Token_eq_some]
    constructor
    · rintro ⟨n, hn, hvalue⟩
      have hsmall : n < 2 ^ 32 := not_le.mp fun hlarge ↦ h ⟨n, hn, hlarge⟩
      rwa [hvalue, Nat.mod_eq_of_lt hsmall]
    · intro hvalue
      exact ⟨value.toNat, hvalue, (Nat.mod_eq_of_lt value.toNat_lt).symm⟩

theorem parseU32Token_eq_none (h : ∀ n, ¬Denotes token n) : parseU32Token token = none := by
  cases hparse : parseU32Token token with
  | none => rfl
  | some value =>
    obtain ⟨n, hn, -⟩ := parseU32Token_eq_some.mp hparse
    exact absurd hn (h n)

theorem not_denotes_minus (digits : List UInt8) : ¬Denotes (45 :: digits) n := by
  rintro (h | ⟨x, rest, -, heq, -⟩)
  · obtain ⟨value, hvalue, -⟩ := h.digit List.mem_cons_self
    exact absurd hvalue (by simp [asciiDigit])
  · exact absurd (List.cons.inj heq).1 (by decide)

theorem denotesSigned_minus {digits : List UInt8} {z : Int} :
    DenotesSigned (45 :: digits) z ↔ ∃ n, Denotes digits n ∧ z = -n := by
  constructor
  · rintro (⟨n, hn, -⟩ | ⟨digits', n, heq, hn, hz⟩)
    · exact absurd hn (not_denotes_minus digits)
    · rw [(List.cons.inj heq).2]
      exact ⟨n, hn, hz⟩
  · rintro ⟨n, hn, hz⟩
    exact .inr ⟨digits, n, rfl, hn, hz⟩

theorem denotesSigned_plain (h : token.getD 0 0 ≠ 45) {z : Int} :
    DenotesSigned token z ↔ ∃ n, Denotes token n ∧ z = n := by
  constructor
  · rintro (hz | ⟨digits, n, rfl, -⟩)
    · exact hz
    · exact absurd rfl h
  · exact .inl

theorem parseI32Token_minus (digits : List UInt8) :
    parseI32Token (45 :: digits) = match parseU32Token digits with
      | none => .ok none
      | some value =>
        if 2147483648 < value then .ok none
        else (checkInt32 (-int32 value)).map some := by
  by_cases hnil : digits = []
  · subst hnil
    rfl
  · have hpos := List.length_pos_iff.mpr hnil
    rw [parseI32Token, if_pos ⟨by simpa using hpos, rfl⟩]
    rfl

theorem parseI32Token_plain (h : token.getD 0 0 ≠ 45) :
    parseI32Token token = match parseU32Token token with
      | none => .ok none
      | some value => if 2147483647 < value then .ok none else .ok (some (int32 value)) := by
  rw [parseI32Token, if_neg fun hminus ↦ h hminus.2]

/-- For a token with one signed number, exact reading is one equation. -/
theorem readsI32_iff_eq {number : Int} (h : ∀ z, DenotesSigned token z ↔ z = number) :
    ReadsI32 token ↔
      parseI32Token token = .ok (if IsInt32 number then some number else none) := by
  have hspec : ∀ result : Option Int, (∀ z, result = some z ↔ DenotesSigned token z ∧ IsInt32 z) ↔
      result = if IsInt32 number then some number else none := by
    intro result
    simp only [h]
    by_cases hnumber : IsInt32 number
    · rw [if_pos hnumber]
      constructor
      · exact fun hz ↦ (hz number).mpr ⟨rfl, hnumber⟩
      · rintro rfl z
        rw [Option.some_inj]
        exact ⟨fun heq ↦ ⟨heq.symm, heq ▸ hnumber⟩, fun hz ↦ hz.1.symm⟩
    · rw [if_neg hnumber]
      constructor
      · intro hz
        cases result with
        | none => rfl
        | some z =>
          obtain ⟨rfl, hrange⟩ := (hz z).mp rfl
          exact absurd hrange hnumber
      · rintro rfl z
        refine iff_of_false (by simp) ?_
        rintro ⟨rfl, hz⟩
        exact hnumber hz
  simp only [ReadsI32, hspec]
  constructor
  · rintro ⟨result, hparse, rfl⟩
    exact hparse
  · exact fun hparse ↦ ⟨_, hparse, rfl⟩

theorem int32_eq_of_lt {value : UInt32} (h : value.toNat < 2 ^ 31) : int32 value = value.toNat := by
  rw [int32, BitVec.toInt_eq_toNat_of_lt (by simpa using by omega)]
  rfl

theorem int32_two_pow {value : UInt32} (h : value.toNat = 2 ^ 31) : int32 value = -2 ^ 31 := by
  obtain rfl : value = 2147483648 := UInt32.toNat_inj.mp h
  rfl

theorem toNat_ofNat_mod : (UInt32.ofNat n).toNat = n % 2 ^ 32 := UInt32.toNat_ofNat'

/-- What the signed reader makes of a number behind a minus sign. -/
theorem parseI32Token_negative {digits : List UInt8} (hn : Denotes digits n) :
    parseI32Token (45 :: digits) =
      if 2 ^ 31 < n % 2 ^ 32 then .ok none
      else if n % 2 ^ 32 = 2 ^ 31 then .error .signedOverflow
      else .ok (some (-(n % 2 ^ 32 : ℕ))) := by
  rw [parseI32Token_minus, parseU32Token_eq_some.mpr ⟨n, hn, toNat_ofNat_mod⟩]
  dsimp only
  have hcompare : 2147483648 < UInt32.ofNat n ↔ 2 ^ 31 < n % 2 ^ 32 := by
    rw [UInt32.lt_iff_toNat_lt, toNat_ofNat_mod]
    rfl
  by_cases hbig : 2 ^ 31 < n % 2 ^ 32
  · rw [if_pos (hcompare.mpr hbig), if_pos hbig]
  · rw [if_neg (mt hcompare.mp hbig), if_neg hbig]
    by_cases heq : n % 2 ^ 32 = 2 ^ 31
    · -- the word that has no negative
      rw [if_pos heq, int32_two_pow (toNat_ofNat_mod.trans heq), checkInt32_eq_error (by decide)]
      rfl
    · rw [if_neg heq, int32_eq_of_lt (by rw [toNat_ofNat_mod]; omega), toNat_ofNat_mod,
        checkInt32_eq_ok (by simp only [IsInt32]; omega)]
      rfl

theorem parseI32Token_positive (hplain : token.getD 0 0 ≠ 45) (hn : Denotes token n) :
    parseI32Token token =
      if 2 ^ 31 ≤ n % 2 ^ 32 then .ok none else .ok (some (n % 2 ^ 32 : ℕ)) := by
  rw [parseI32Token_plain hplain, parseU32Token_eq_some.mpr ⟨n, hn, toNat_ofNat_mod⟩]
  dsimp only
  have hcompare : 2147483647 < UInt32.ofNat n ↔ 2 ^ 31 ≤ n % 2 ^ 32 := by
    rw [UInt32.lt_iff_toNat_lt, toNat_ofNat_mod]
    exact Nat.lt_iff_add_one_le
  by_cases hbig : 2 ^ 31 ≤ n % 2 ^ 32
  · rw [if_pos (hcompare.mpr hbig), if_pos hbig]
  · rw [if_neg (mt hcompare.mp hbig), if_neg hbig,
      int32_eq_of_lt (by rw [toNat_ofNat_mod]; omega), toNat_ofNat_mod]

theorem readsI32_minus {digits : List UInt8} (hn : Denotes digits n) :
    ReadsI32 (45 :: digits) ↔ ¬(n = 2 ^ 31 ∨ 2 ^ 32 ≤ n ∧ n % 2 ^ 32 ≤ 2 ^ 31) := by
  have hnumber : ∀ z, DenotesSigned (45 :: digits) z ↔ z = -(n : Int) := by
    intro z
    rw [denotesSigned_minus]
    constructor
    · rintro ⟨m, hm, rfl⟩
      rw [hm.unique hn]
    · exact fun hz ↦ ⟨n, hn, hz⟩
  rw [readsI32_iff_eq hnumber, parseI32Token_negative hn]
  by_cases hbig : 2 ^ 31 < n % 2 ^ 32
  · -- a word that is refused, as is the number
    rw [if_pos hbig, if_neg (by simp only [IsInt32]; omega)]
    exact iff_of_true rfl (by omega)
  rw [if_neg hbig]
  by_cases heq : n % 2 ^ 32 = 2 ^ 31
  · rw [if_pos heq]
    exact iff_of_false (by simp) (by omega)
  rw [if_neg heq]
  by_cases hsmall : n < 2 ^ 32
  · rw [Nat.mod_eq_of_lt hsmall] at hbig heq ⊢
    rw [if_pos (by simp only [IsInt32]; omega)]
    exact iff_of_true rfl (by omega)
  · rw [if_neg (by simp only [IsInt32]; omega)]
    exact iff_of_false (by simp) (by omega)

theorem readsI32_plain (hplain : token.getD 0 0 ≠ 45) (hn : Denotes token n) :
    ReadsI32 token ↔ ¬(2 ^ 32 ≤ n ∧ n % 2 ^ 32 < 2 ^ 31) := by
  have hnumber : ∀ z, DenotesSigned token z ↔ z = (n : Int) := by
    intro z
    rw [denotesSigned_plain hplain]
    constructor
    · rintro ⟨m, hm, rfl⟩
      rw [hm.unique hn]
    · exact fun hz ↦ ⟨n, hn, hz⟩
  rw [readsI32_iff_eq hnumber, parseI32Token_positive hplain hn]
  by_cases hbig : 2 ^ 31 ≤ n % 2 ^ 32
  · rw [if_pos hbig, if_neg (by simp only [IsInt32]; omega)]
    exact iff_of_true rfl (by omega)
  rw [if_neg hbig]
  by_cases hsmall : n < 2 ^ 32
  · rw [Nat.mod_eq_of_lt hsmall] at hbig ⊢
    rw [if_pos (by simp only [IsInt32]; omega)]
    exact iff_of_true rfl (by omega)
  · rw [if_neg (by simp only [IsInt32]; omega)]
    exact iff_of_false (by simp) (by omega)

theorem readsI32_of_not_denotes (h : ∀ z, ¬DenotesSigned token z)
    (hparse : parseI32Token token = .ok none) : ReadsI32 token :=
  ⟨none, hparse, fun z ↦ iff_of_false (by simp) fun hz ↦ h z hz.1⟩

theorem readsI32_minus_iff (digits : List UInt8) :
    ReadsI32 (45 :: digits) ↔ ¬WrapsI32 (45 :: digits) := by
  by_cases hn : ∃ n, Denotes digits n
  · obtain ⟨n, hn⟩ := hn
    rw [readsI32_minus hn]
    refine not_congr ⟨fun h ↦ .inr ⟨digits, n, rfl, hn, h⟩, ?_⟩
    rintro (⟨m, hm, -⟩ | ⟨digits', m, heq, hm, h⟩)
    · exact absurd hm (not_denotes_minus digits)
    · rw [← (List.cons.inj heq).2] at hm
      rwa [hn.unique hm]
  · push Not at hn
    refine iff_of_true (readsI32_of_not_denotes ?_ ?_) ?_
    · rintro z hz
      obtain ⟨n, hn', -⟩ := denotesSigned_minus.mp hz
      exact hn n hn'
    · rw [parseI32Token_minus, parseU32Token_eq_none hn]
    · rintro (⟨m, hm, -⟩ | ⟨digits', m, heq, hm, -⟩)
      · exact absurd hm (not_denotes_minus digits)
      · rw [← (List.cons.inj heq).2] at hm
        exact hn m hm

theorem readsI32_plain_iff (hplain : token.getD 0 0 ≠ 45) : ReadsI32 token ↔ ¬WrapsI32 token := by
  have hnot : ∀ (digits : List UInt8), token ≠ 45 :: digits := by
    rintro digits rfl
    exact hplain rfl
  by_cases hn : ∃ n, Denotes token n
  · obtain ⟨n, hn⟩ := hn
    rw [readsI32_plain hplain hn]
    refine not_congr ⟨fun h ↦ .inl ⟨n, hn, h⟩, ?_⟩
    rintro (⟨m, hm, h⟩ | ⟨digits, m, heq, -⟩)
    · rwa [hn.unique hm]
    · exact absurd heq (hnot digits)
  · push Not at hn
    refine iff_of_true (readsI32_of_not_denotes ?_ ?_) ?_
    · rintro z hz
      obtain ⟨n, hn', -⟩ := (denotesSigned_plain hplain).mp hz
      exact hn n hn'
    · rw [parseI32Token_plain hplain, parseU32Token_eq_none hn]
    · rintro (⟨m, hm, -⟩ | ⟨digits, m, heq, -⟩)
      · exact hn m hm
      · exact hnot digits heq

theorem readsI32_iff : ReadsI32 token ↔ ¬WrapsI32 token := by
  by_cases hplain : token.getD 0 0 = 45
  · cases token with
    | nil => exact absurd hplain (by decide)
    | cons c digits =>
      obtain rfl : c = 45 := hplain
      exact readsI32_minus_iff digits
  · exact readsI32_plain_iff hplain

end Words

end TensorOS
