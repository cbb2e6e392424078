/-
# Binary64 numbers

A binary64 number is kept decoded: a sign, a mantissa and a power of two, or one of the special
values.  All arithmetic is exact on natural numbers and rounds once, to the nearest number with
ties to the even mantissa, in `ofRatio`.  Reading a decimal, dividing two sizes and scaling a
ratio to percent are calls of it.

Equality of values is exact: `sameValue` compares `m · 2 ^ e` with `n · 2 ^ f` as rational numbers,
so the two zeros are equal and nothing equals the undefined value.
-/

import Galley.Number.Power
import Galley.Text.Basic

namespace Galley

/-- A binary64 number.  `finite negative m e` is `m · 2 ^ e` with its sign. -/
inductive Binary64 where
  | nan
  | infinite (negative : Bool)
  | finite (negative : Bool) (mantissa : Nat) (exponent : Int)
  deriving DecidableEq, Repr

namespace Binary64

/-- The least exponent of a number. -/
def minExponent : Int := -1074

/-- The greatest exponent of a number. -/
def maxExponent : Int := 971

/-- Quotient of two natural numbers, rounded to the nearest; a tie goes to the even neighbour. -/
def roundDiv (num den : Nat) : Nat :=
  let q := num / den
  let r := num % den
  if 2 * r > den ∨ (2 * r = den ∧ q % 2 = 1) then q + 1 else q

/-- The ratio `num / den` divided by `2 ^ e`, again as a ratio. -/
def scaleDown (num den : Nat) (e : Int) : Nat × Nat :=
  if 0 ≤ e then (num, den * powerOfTwo e.toNat) else (num * powerOfTwo (-e).toNat, den)

/-- The exponent at which the ratio `num / den` has a mantissa of 53 bits, or the least exponent
where that would be lower. -/
def exponentFor (num den : Nat) : Int :=
  let e : Int := (num.log2 : Int) - den.log2 - 52
  let (n, d) := scaleDown num den e
  max (if n < d * powerOfTwo 52 then e - 1 else e) minExponent

/-- The number nearest to `num / den` with a sign. -/
def ofRatio (negative : Bool) (num den : Nat) : Binary64 :=
  if num = 0 then .finite negative 0 minExponent
  else
    let e := exponentFor num den
    let (n, d) := scaleDown num den e
    let m := roundDiv n d
    let (m, e) := if m = powerOfTwo 53 then (powerOfTwo 52, e + 1) else (m, e)
    if e > maxExponent then .infinite negative else .finite negative m e

/-- The number nearest to `n · 10 ^ x` with a sign.  Powers far out of range are not computed. -/
def ofDecimal (negative : Bool) (n : Nat) (x : Int) : Binary64 :=
  let places : Int := (Text.ofNat n).length
  if n = 0 ∨ x + places < -330 then .finite negative 0 minExponent
  else if x + places > 310 then .infinite negative
  else if 0 ≤ x then ofRatio negative (n * powerOfTen x.toNat) 1
  else ofRatio negative n (powerOfTen (-x).toNat)

/-- The mantissa with its sign. -/
def signedMantissa (negative : Bool) (m : Nat) : Int := if negative then -(m : Int) else m

/-- Whether `m · 2 ^ e` and `n · 2 ^ f` are the same rational number. -/
def sameRational (m : Int) (e : Int) (n : Int) (f : Int) : Bool :=
  let low := min e f
  m * powerOfTwo (e - low).toNat == n * powerOfTwo (f - low).toNat

/-- Whether two numbers have the same value. -/
def sameValue : Binary64 → Binary64 → Bool
  | .finite s m e, .finite t n f => sameRational (signedMantissa s m) e (signedMantissa t n) f
  | .infinite s, .infinite t => s == t
  | _, _ => false

/-- Whether a number has the value of an integer. -/
def equalsInt (x : Binary64) (i : Int) : Bool :=
  match x with
  | .finite s m e => sameRational (signedMantissa s m) e i 0
  | _ => false

/-- The integer that a number is, when it is one. -/
def toInt? : Binary64 → Option Int
  | .finite s m e =>
    if 0 ≤ e then some (signedMantissa s (m * powerOfTwo e.toNat))
    else if m % powerOfTwo (-e).toNat = 0 then
      some (signedMantissa s (m / powerOfTwo (-e).toNat))
    else none
  | _ => none

/-- The product with a natural number, rounded once. -/
def scaleBy (k : Nat) : Binary64 → Binary64
  | .finite s m e =>
    if 0 ≤ e then ofRatio s (m * k * powerOfTwo e.toNat) 1
    else ofRatio s (m * k) (powerOfTwo (-e).toNat)
  | x => x

/-- The integer nearest to a finite number, a tie going to the even one. -/
def roundToInt : Binary64 → Int
  | .finite s m e =>
    signedMantissa s
      (if 0 ≤ e then m * powerOfTwo e.toNat else roundDiv m (powerOfTwo (-e).toNat))
  | _ => 0

/-- The 64 bits of the interchange format. -/
def bits : Binary64 → Nat
  | .nan => 0x7FF8000000000000
  | .infinite s => (if s then powerOfTwo 63 else 0) + 0x7FF0000000000000
  | .finite s m e =>
    (if s then powerOfTwo 63 else 0) +
      (if m < powerOfTwo 52 then m
       else (e + 1075).toNat * powerOfTwo 52 + (m - powerOfTwo 52))

/-- The bits as sixteen hexadecimal digits, highest first. -/
def hexBits (x : Binary64) : Text := List.leftpad 16 '0' (Nat.toDigits 16 x.bits)

end Binary64
end Galley
