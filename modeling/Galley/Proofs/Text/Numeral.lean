/-
# Decimal numerals

A numeral is written with digits and perhaps a minus sign before them.  It is never empty, and
different numbers have different numerals (`ofNat_inj`, `ofInt_inj`).
-/

import Galley.Text.Decimal

namespace Galley
namespace Text

variable {c : Char} {m n : Nat} {i j : Int}

theorem ofNat_ne_nil (n : Nat) : ofNat n ≠ [] := Nat.toDigits_ne_nil

theorem isDigit_of_mem_ofNat (h : c ∈ ofNat n) : c.isDigit = true :=
  Nat.isDigit_of_mem_toDigits (by decide) (by decide) h

/-- A numeral denotes the number it is written for. -/
theorem ofDigitChars_ofNat (n : Nat) : Nat.ofDigitChars 10 (ofNat n) 0 = n :=
  Nat.ofDigitChars_toDigits (by decide) (by decide)

theorem ofNat_inj : ofNat m = ofNat n ↔ m = n := by
  refine ⟨fun h => ?_, congrArg ofNat⟩
  rw [← ofDigitChars_ofNat m, h, ofDigitChars_ofNat]

theorem ofInt_ne_nil (i : Int) : ofInt i ≠ [] := by
  cases i with
  | ofNat n => exact ofNat_ne_nil n
  | negSucc n => exact List.cons_ne_nil _ _

/-- The characters of a numeral. -/
theorem of_mem_ofInt (h : c ∈ ofInt i) : c = '-' ∨ c.isDigit = true := by
  cases i with
  | ofNat n => exact Or.inr (isDigit_of_mem_ofNat h)
  | negSucc n => exact (List.mem_cons.1 h).imp_right isDigit_of_mem_ofNat

/-- The ten digits are digits of some script. -/
theorem isDecimal_of_isDigit (h : c.isDigit = true) : isDecimal c = true := by
  obtain ⟨hfirst, hlast⟩ := Bool.and_eq_true_iff.1 h
  have hfirst : 0x30 ≤ c.toNat := of_decide_eq_true hfirst
  have hlast : c.toNat ≤ 0x39 := of_decide_eq_true hlast
  rw [isDecimal, CodeRange.covers, decimalRuns, CodeRange.find?, if_neg (Nat.not_lt.2 hfirst),
    if_pos hlast]
  rfl

/-- **Different numbers have different numerals.** -/
theorem ofInt_inj : ofInt i = ofInt j ↔ i = j := by
  have hminus : ∀ m n, ofNat m ≠ '-' :: ofNat n := by
    intro m n h
    have hdigit : ('-').isDigit = true := isDigit_of_mem_ofNat (h ▸ List.mem_cons_self ..)
    cases hdigit
  refine ⟨fun h => ?_, congrArg ofInt⟩
  cases i with
  | ofNat m =>
    cases j with
    | ofNat n => rw [ofNat_inj.1 h]
    | negSucc n => exact absurd h (hminus m (n + 1))
  | negSucc m =>
    cases j with
    | ofNat n => exact absurd h.symm (hminus n (m + 1))
    | negSucc n => rw [Nat.succ.inj (ofNat_inj.1 (List.cons.inj h).2)]

end Text
end Galley
