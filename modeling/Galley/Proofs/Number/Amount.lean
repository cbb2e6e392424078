/-
# The amount of a binary64 number

A number stands for a rational number or for one of the two infinities; the undefined value stands
for nothing.  Equality of values, which is decided on mantissas and exponents alone, is equality of
amounts (`sameValue_iff`, `equalsInt_iff`): at the lower of two exponents both mantissas are whole.
-/

import Galley.Number.Binary64
import Mathlib.Algebra.Order.Field.Rat
import Mathlib.Algebra.GroupWithZero.Basic
import Mathlib.Tactic.NormNum

namespace Galley

/-- What a number stands for. -/
inductive Amount where
  | infinite (negative : Bool)
  | finite (q : ℚ)
  deriving DecidableEq

namespace Binary64

/-- The amount of a number, if it has one. -/
def amount? : Binary64 → Option Amount
  | .nan => none
  | .infinite s => some (.infinite s)
  | .finite s m e => some (.finite (signedMantissa s m * 2 ^ e))

/-- A mantissa moved to a lower exponent. -/
theorem mul_powerOfTwo_mul_zpow (m : Int) {e low : Int} (h : low ≤ e) :
    ((m * powerOfTwo (e - low).toNat : Int) : ℚ) * 2 ^ low = m * 2 ^ e := by
  have hpower : ((powerOfTwo (e - low).toNat : Int) : ℚ) = 2 ^ (e - low) := by
    rw [powerOfTwo, Nat.pow_eq, Int.cast_natCast, Nat.cast_pow, Nat.cast_ofNat, ← zpow_natCast,
      Int.toNat_of_nonneg (by omega)]
  rw [Int.cast_mul, hpower, mul_assoc, ← zpow_add₀ two_ne_zero, sub_add_cancel]

/-- **Equality of rational numbers is decided on whole numbers.** -/
theorem sameRational_iff (m e n f : Int) :
    sameRational m e n f = true ↔ (m : ℚ) * 2 ^ e = n * 2 ^ f := by
  have hlow : (2 : ℚ) ^ min e f ≠ 0 := zpow_ne_zero _ two_ne_zero
  rw [← mul_powerOfTwo_mul_zpow m (Int.min_le_left e f),
    ← mul_powerOfTwo_mul_zpow n (Int.min_le_right e f), mul_left_inj' hlow, Int.cast_inj]
  exact beq_iff_eq

/-- **Two numbers have the same value exactly when they have one amount.** -/
theorem sameValue_iff (x y : Binary64) :
    x.sameValue y = true ↔ ∃ q, x.amount? = some q ∧ y.amount? = some q := by
  cases x with
  | nan => simp [sameValue, amount?]
  | infinite s =>
    cases y with
    | infinite t =>
      rw [sameValue, beq_iff_eq]
      simp only [amount?, Option.some_inj, exists_eq_left', Amount.infinite.injEq]
      exact eq_comm
    | _ => simp [sameValue, amount?]
  | finite s m e =>
    cases y with
    | finite t n f =>
      rw [sameValue, sameRational_iff]
      simp only [amount?, Option.some_inj, exists_eq_left', Amount.finite.injEq]
      exact eq_comm
    | _ => simp [sameValue, amount?]

/-- A number has the value of an integer exactly when the integer is its amount. -/
theorem equalsInt_iff (x : Binary64) (i : Int) :
    x.equalsInt i = true ↔ x.amount? = some (.finite i) := by
  cases x <;> simp [equalsInt, amount?, sameRational_iff]

end Binary64
end Galley
