/-
# Shortest decimals

The shortest decimal of a positive number `m · 2 ^ e` is the decimal with the fewest digits among
those that read back as it, and of two such the nearer one.  The decimals that read back form an
interval around the number, with its ends when `m` is even.  For one digit, two digits and so on
the two neighbours of the number on the grid of that many digits are tried; seventeen digits
always suffice.
-/

import Galley.Number.Binary64

namespace Galley
namespace Shortest

/-- Digits `coefficient · 10 ^ exponent`, the coefficient without trailing zeros beyond the first
digit. -/
structure Decimal where
  coefficient : Nat
  exponent : Int
  deriving DecidableEq, Repr

/-- The number of decimal digits of a natural number. -/
def places (n : Nat) : Nat := (Text.ofNat n).length

/-- The exponent of the leading decimal digit of the positive ratio `num / den`. -/
def leadingExponent (num den : Nat) : Int :=
  let x : Int := (places num : Int) - places den
  let reaches :=
    if 0 ≤ x then den * powerOfTen x.toNat ≤ num else den ≤ num * powerOfTen (-x).toNat
  if reaches then x else x - 1

/-- The better of the two grid neighbours `a` and `a + 1` of `value / unit` that lie in the
interval from `low` to `high`: the nearer, and of two equally near the even one. -/
def bestNeighbour (closed : Bool) (low value high unit : Nat) : Option Nat :=
  let inside (c : Nat) : Bool :=
    if closed then low ≤ c * unit && c * unit ≤ high else low < c * unit && c * unit < high
  let a := value / unit
  let below := value - a * unit
  let above := (a + 1) * unit - value
  match inside a, inside (a + 1) with
  | false, false => none
  | true, false => some a
  | false, true => some (a + 1)
  | true, true => some (if below < above ∨ (below = above ∧ a % 2 = 0) then a else a + 1)

/-- Tries the grids of `18 - fuel` digits and more. -/
def search (closed : Bool) (num den low high : Nat) (lead : Int) : Nat → Decimal
  | 0 => ⟨0, 0⟩
  | fuel + 1 =>
    let k : Int := lead - (17 - fuel : Nat) + 1
    let (unit, grid) :=
      if 0 ≤ k then (den * powerOfTen k.toNat, 1) else (den, powerOfTen (-k).toNat)
    match bestNeighbour closed (low * grid) (num * grid) (high * grid) unit with
    | some c => ⟨c, k⟩
    | none => search closed num den low high lead fuel

/-- The shortest decimal that reads back as the positive number `m · 2 ^ e`. -/
def ofBinary (m : Nat) (e : Int) : Decimal :=
  let gap := if m = powerOfTwo 52 ∧ e > Binary64.minExponent then 1 else 2
  let (up, den) :=
    if 2 ≤ e then (powerOfTwo (e - 2).toNat, 1) else (1, powerOfTwo (2 - e).toNat)
  let num := 4 * m * up
  search (m % 2 == 0) num den ((4 * m - gap) * up) ((4 * m + 2) * up) (leadingExponent num den) 17

end Shortest
end Galley
