import Mathlib

/-!
# The 32-bit FNV-1a hash

A hash step mixes a byte into the state by an exclusive or and a multiplication with an odd
constant. Both are invertible, so a step is injective in the state and in the byte. A hash over a
list therefore notices the change of any single byte, wherever it stands: the change is visible
right after its step, and every later step keeps it visible.
-/

namespace TensorOS

/-- Mix one byte into the state. -/
def fnvStep (hash : UInt32) (value : UInt8) : UInt32 := (hash ^^^ value.toUInt32) * 16777619

/-- Mix a list of bytes into the state. -/
def fnv (hash : UInt32) (bytes : List UInt8) : UInt32 := bytes.foldl fnvStep hash

theorem mul_prime_injective : Function.Injective fun x : UInt32 ↦ x * 16777619 := by
  intro x y h
  have hinv : (16777619 : UInt32) * 899433627 = 1 := by decide
  have := congrArg (· * (899433627 : UInt32)) h
  simpa only [mul_assoc, hinv, mul_one] using this

theorem xor_left_injective (x : UInt32) : Function.Injective fun y : UInt32 ↦ x ^^^ y := by
  intro y z h
  have := congrArg (x ^^^ ·) h
  simpa only [← UInt32.xor_assoc, UInt32.xor_self, UInt32.zero_xor] using this

theorem fnvStep_left_injective (b : UInt8) : Function.Injective fun h ↦ fnvStep h b := by
  intro h h' heq
  have hx := mul_prime_injective heq
  simp only [UInt32.xor_comm _ b.toUInt32] at hx
  exact xor_left_injective _ hx

theorem fnvStep_right_injective (h : UInt32) : Function.Injective fun b ↦ fnvStep h b := by
  intro b b' heq
  have hx := xor_left_injective h (mul_prime_injective heq)
  exact UInt8.toUInt32_inj.mp hx

theorem fnv_append (h : UInt32) (l₁ l₂ : List UInt8) : fnv h (l₁ ++ l₂) = fnv (fnv h l₁) l₂ :=
  List.foldl_append ..

theorem fnv_left_injective (l : List UInt8) : Function.Injective fun h ↦ fnv h l := by
  induction l with
  | nil => exact fun _ _ heq ↦ heq
  | cons b l ih => exact fun h h' heq ↦ fnvStep_left_injective b (ih heq)

/-- **A single changed byte changes the hash.** -/
theorem fnv_ne_of_getElem_ne {h : UInt32} {l l' : List UInt8} (hlen : l.length = l'.length)
    {i : ℕ} (hi : l[i]? ≠ l'[i]?) (hother : ∀ j, j ≠ i → l[j]? = l'[j]?) :
    fnv h l ≠ fnv h l' := by
  induction l generalizing l' h i with
  | nil =>
    cases l' with
    | nil => exact absurd rfl hi
    | cons b l' => simp at hlen
  | cons a l ih =>
    cases l' with
    | nil => simp at hlen
    | cons b l' =>
      cases i with
      | zero =>
        -- the changed byte is the first one, and the tails agree
        have htail : l = l' := List.ext_getElem? fun j ↦ by
          simpa using hother (j + 1) (by omega)
        have hab : a ≠ b := fun hab ↦ hi (by simp [hab])
        intro heq
        subst htail
        exact hab (fnvStep_right_injective h (fnv_left_injective l heq))
      | succ i =>
        have hab : a = b := by simpa using hother 0 (by omega)
        subst hab
        refine ih (by simpa using hlen) (by simpa using hi) fun j hj ↦ ?_
        simpa using hother (j + 1) (by omega)

end TensorOS
