/-
# Written numbers

How a binary64 number is written: its shortest digits, in positional form for magnitudes from
`0.0001` up to below `10 ^ 16` and with an exponent otherwise.  The positional form always has a
digit after the point and the exponent always has a sign and two digits.  `Numerals` says how the
special values are spelled, which differs between documents and messages.
-/

import Galley.Number.Shortest

namespace Galley

/-- The spelling of the numbers that have no digits. -/
structure Numerals where
  undefined : Text
  infinity : Text

namespace Numerals

/-- The spelling inside a document. -/
def document : Numerals := ⟨"NaN".toList, "Infinity".toList⟩

/-- The spelling inside a message. -/
def message : Numerals := ⟨"nan".toList, "inf".toList⟩

/-- The digits with a point after the first `whole` of them, padded with zeros on either side and
with one digit at least after the point. -/
def positional (digits : Text) (whole : Int) : Text :=
  if whole ≤ 0 then "0.".toList ++ List.replicate (-whole).toNat '0' ++ digits
  else
    let front := digits.take whole.toNat
    let back := digits.drop whole.toNat
    front ++ List.replicate (whole.toNat - digits.length) '0' ++ ['.'] ++
      (if back.isEmpty then ['0'] else back)

/-- The digits with a point after the first and an exponent. -/
def scientific (digits : Text) (exponent : Int) : Text :=
  let point := match digits with
    | [] => []
    | [d] => [d]
    | d :: ds => d :: '.' :: ds
  let sign := if exponent < 0 then '-' else '+'
  point ++ ['e', sign] ++ List.leftpad 2 '0' (Text.ofNat exponent.natAbs)

/-- The shortest text of a positive number. -/
def ofPositive (m : Nat) (e : Int) : Text :=
  let d := Shortest.ofBinary m e
  let written := Text.ofNat d.coefficient
  let digits := (written.reverse.dropWhile (· == '0')).reverse
  let lead : Int := d.exponent + written.length - 1
  if -4 ≤ lead ∧ lead < 16 then positional digits (lead + 1) else scientific digits lead

/-- The text of a number. -/
def write (style : Numerals) : Binary64 → Text
  | .nan => style.undefined
  | .infinite s => (if s then ['-'] else []) ++ style.infinity
  | .finite s m e =>
    (if s then ['-'] else []) ++ (if m = 0 then "0.0".toList else ofPositive m e)

end Numerals
end Galley
