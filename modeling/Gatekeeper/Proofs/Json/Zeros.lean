import Gatekeeper.Json.Number
import Mathlib.Algebra.Order.Field.Rat

/-!
# Numbers that are zero

A number of a document is zero as a pattern exactly when its exact value is zero.
-/

namespace Gatekeeper

namespace Binary64

def value (x : Binary64) : ℚ :=
  (if x.isNegative then -1 else 1) * x.significand * (2 : ℚ) ^ x.exponent

theorem significand_eq_zero_iff (x : Binary64) :
    x.significand = 0 <-> x.isZero = true := by
  unfold significand isZero biasedExponent fraction hiddenBit
  rw [Nat.shiftRight_eq_div_pow, decide_eq_true_iff]
  split <;> omega

theorem value_eq_zero_iff (x : Binary64) : x.value = 0 <-> x.isZero = true := by
  have hsign : (if x.isNegative then -1 else 1 : ℚ) ≠ 0 := by
    split <;> simp
  have hpower : (2 : ℚ) ^ x.exponent ≠ 0 := zpow_ne_zero _ two_ne_zero
  rw [← significand_eq_zero_iff]
  unfold value
  rw [mul_eq_zero_iff_right hpower, mul_eq_zero_iff_left hsign, Nat.cast_eq_zero]

end Binary64

namespace Json
namespace Number

def value : Number → ℚ
  | .integer n => n
  | .float x => x.value

theorem isZero_iff (n : Number) : n.isZero = true <-> n.value = 0 := by
  cases n with
  | integer n => simp [isZero, value]
  | float x => exact (Binary64.value_eq_zero_iff x).symm

end Number
end Json
end Gatekeeper
