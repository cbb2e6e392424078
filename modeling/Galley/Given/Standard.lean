/-
# A reader of given values

The reader that the program uses accepts the values that have an obvious meaning for a field and
complains about the others.

| field | accepted |
| --- | --- |
| choice | one of its words, exactly |
| truth value | true and false, the numbers zero and one, and the usual words in any case |
| natural number | whole numbers, truth values as zero and one, and numerals |

A numeral may have blanks around it, a sign, single underscores between digits and a fraction of
zeros.  Whole numbers given as integers have any size; numerals and floating-point numbers are
bounded.
-/

import Galley.Given.Basic
import Galley.Text.Blank
import Galley.Text.Decimal

namespace Galley
namespace Given
namespace Readers

/-- The code of a complaint. -/
def complain {α : Type} (code : String) : Except Complaint α := .error code.toList

/-- Reads one of several words. -/
def readChoice {α : Type} (choices : List (Text × α)) : Given → Except Complaint α
  | .text t => (choices.find? fun c => c.1.wide == t).elim (complain "literal_error") (.ok ·.2)
  | _ => complain "literal_error"

/-- Capital letters of the ASCII range in lower case. -/
def foldCase (t : Text) : Text := t.map Char.toLower

/-- The words for a truth value. -/
def boolWords : List (Text × Bool) :=
  [("0".toList, false), ("off".toList, false), ("f".toList, false), ("false".toList, false),
    ("n".toList, false), ("no".toList, false), ("1".toList, true), ("on".toList, true),
    ("t".toList, true), ("true".toList, true), ("y".toList, true), ("yes".toList, true)]

/-- The truth value that an integer stands for. -/
def boolOfInt? (i : Int) : Option Bool :=
  if i = 0 then some false else if i = 1 then some true else none

/-- The truth value that a text stands for. -/
def boolOfText? (t : Text) : Option Bool :=
  (boolWords.find? fun w => w.1 == foldCase t).map Prod.snd

/-- Reads a truth value. -/
def readBool : Given → Except Complaint Bool
  | .bool b => .ok b
  | .int i => (boolOfInt? i).elim (complain "bool_parsing") .ok
  | .float x => ((x.toInt?).bind boolOfInt?).elim (complain "bool_type") .ok
  | .text t => ((WideText.narrow? t).bind boolOfText?).elim (complain "bool_parsing") .ok
  | _ => complain "bool_type"

/-- Whether blanks of this kind are dropped around a numeral; the four separators are not. -/
def isNumeralBlank (c : Char) : Bool :=
  Text.isBlank c && !(decide (0x1C ≤ c.toNat) && decide (c.toNat ≤ 0x1F))

/-- Drops the blanks around a numeral. -/
def trimNumeral (t : Text) : Text :=
  ((t.dropWhile isNumeralBlank).reverse.dropWhile isNumeralBlank).reverse

/-- Drops a fraction that consists of zeros. -/
def dropZeroFraction (t : Text) : Text :=
  match Text.splitFirst '.' t with
  | some (whole, zeros) => if !zeros.isEmpty && zeros.all (· == '0') then whole else t
  | none => t

/-- The most digits of a numeral, leading zeros aside. -/
def numeralLimit : Nat := 4300

/-- Reads an integer from a numeral. -/
def readNumeral (t : Text) : Except Complaint Int :=
  let (negative, digits) := Text.splitSign (trimNumeral t)
  match Text.digitsWithUnderscores? Text.asciiDigit? (dropZeroFraction digits) with
  | none => complain "int_parsing"
  | some ds =>
    if (ds.dropWhile (· == 0)).length ≤ numeralLimit then
      .ok (Text.signed negative (Text.valueOf 10 ds))
    else complain "int_parsing_size"

/-- Accepts the integers that lie strictly between `-2 ^ 63` and `2 ^ 63`. -/
def boundedInt (i : Int) : Except Complaint Int :=
  if i.natAbs < powerOfTwo 63 then .ok i else complain "int_parsing_size"

/-- Reads an integer. -/
def readInt : Given → Except Complaint Int
  | .bool b => .ok (if b then 1 else 0)
  | .int i => .ok i
  | .float (.finite s m e) =>
    (Binary64.toInt? (.finite s m e)).elim (complain "int_from_float") boundedInt
  | .float _ => complain "finite_number"
  | .text t => (WideText.narrow? t).elim (complain "int_parsing") readNumeral
  | _ => complain "int_type"

/-- Reads a natural number that is not below `least`. -/
def readNat (least : Nat) (v : Given) : Except Complaint Nat := do
  let i ← readInt v
  if i < least then complain "greater_than_equal" else .ok i.toNat

/-- Reads a text. -/
def readText : Given → Except Complaint Text
  | .text t => (WideText.narrow? t).elim (complain "string_unicode") .ok
  | _ => complain "string_type"

/-- The readers of the program. -/
def standard : Readers where
  choice := readChoice
  truth := readBool
  natural := readNat
  text := readText

theorem standard_readsWords : standard.ReadsWords := by
  intro α choices v a h
  cases v with
  | sequence | mapping | object => cases h
  | atom v =>
    cases v with
    | text t =>
      cases hfind : choices.find? fun c => c.1.wide == t with
      | none => simp [standard, readChoice, hfind, complain] at h
      | some c =>
        have hc : c.1.wide = t := by simpa using List.find?_some hfind
        have ha : c.2 = a := by simpa [standard, readChoice, hfind] using h
        exact ⟨c, List.mem_of_find?_eq_some hfind, hc ▸ rfl, ha.symm⟩
    | _ => cases h

end Readers
end Given
end Galley
