import TensorOS.Lib.Partiality

/-!
# Signed integers of 32 bits

The arithmetic of `int32_t` is that of the integers as long as the result is in range, and undefined
otherwise. Values are integers, and `checkInt32` stands at every operation of the source.
-/

namespace TensorOS

/-- What C leaves undefined. -/
inductive Undefined
  | signedOverflow
  /-- An array is read outside its bounds. -/
  | outOfBounds
  /-- An entry is read that was never written. -/
  | uninitialised
  deriving DecidableEq, Repr

/-- The values of `int32_t`. -/
def IsInt32 (n : Int) : Prop := -2 ^ 31 ≤ n ∧ n < 2 ^ 31

instance IsInt32.decidable (n : Int) : Decidable (IsInt32 n) := inferInstanceAs (Decidable (_ ∧ _))

/-- The result of an operation on `int32_t`. -/
def checkInt32 (n : Int) : Except Undefined Int :=
  if IsInt32 n then .ok n else .error .signedOverflow

theorem checkInt32_eq_ok {n : Int} (h : IsInt32 n) : checkInt32 n = .ok n := if_pos h

theorem checkInt32_eq_error {n : Int} (h : ¬ IsInt32 n) : checkInt32 n = .error .signedOverflow :=
  if_neg h

theorem isInt32_toInt (n : Int32) : IsInt32 n.toInt := ⟨n.le_toInt, n.toInt_lt⟩

end TensorOS
