/-
# Reading documents

The reader follows the grammar of the format with two liberties: `NaN`, `Infinity` and
`-Infinity` are numbers, and of several members with one key the last counts, in the place of the
first.  Texts may be written with surrogate escapes: a pair of them is one character, and a
surrogate on its own is kept as it is.

An error names its cause and the number of characters before it.  A whole number of more than
`digitLimit` digits is refused, which is no error of syntax.
-/

import Galley.Json.Value
import Galley.Text.Decimal
import Galley.Text.Position

namespace Galley
namespace Json

/-- What is wrong with the syntax. -/
inductive Fault where
  | byteOrderMark
  | value
  | trailing
  | propertyName
  | colon
  | comma
  | unterminatedText
  | controlCharacter
  | unknownEscape
  | unicodeEscape
  deriving DecidableEq, Repr

/-- The wording of a fault. -/
def Fault.message : Fault → Text
  | .byteOrderMark => "Unexpected UTF-8 BOM (decode using utf-8-sig)".toList
  | .value => "Expecting value".toList
  | .trailing => "Extra data".toList
  | .propertyName => "Expecting property name enclosed in double quotes".toList
  | .colon => "Expecting ':' delimiter".toList
  | .comma => "Expecting ',' delimiter".toList
  | .unterminatedText => "Unterminated string starting at".toList
  | .controlCharacter => "Invalid control character at".toList
  | .unknownEscape => "Invalid \\escape".toList
  | .unicodeEscape => "Invalid \\uXXXX escape".toList

/-- Why a text is not read: a fault and the place of it, or a numeral with too many digits. -/
inductive DecodeError where
  | syntaxFault (fault : Fault) (offset : Nat) (position : Position)
  | numeralTooLong (digits : Nat)
  deriving DecidableEq, Repr

/-- The greatest number of digits of a whole number. -/
def digitLimit : Nat := 4300

/-- The wording of an error. -/
def DecodeError.message : DecodeError → Text
  | .syntaxFault fault offset p =>
    fault.message ++ ": line ".toList ++ Text.ofInt p.line ++ " column ".toList ++
      Text.ofInt p.column ++ " (char ".toList ++ Text.ofNat offset ++ [')']
  | .numeralTooLong n =>
    "Exceeds the limit (4300 digits) for integer string conversion: value has ".toList ++
      Text.ofNat n ++
      " digits; use sys.set_int_max_str_digits() to increase the limit".toList

/-- Where reading stopped: a fault and the text from its place on, or a numeral too long. -/
inductive Stop where
  | fault (fault : Fault) (rest : Text)
  | numeral (digits : Nat)

/-- Blanks between the parts of a document. -/
def isGap (c : Char) : Bool := c == ' ' || c == '\t' || c == '\n' || c == '\r'

/-- The text from the next part of a document on. -/
def skipGaps (t : Text) : Text := t.dropWhile isGap

/-- Whether a character is a digit of a number. -/
def isDigit (c : Char) : Bool := (Text.asciiDigit? c).isSome

/-! ### Texts -/

/-- The value of a hexadecimal digit. -/
def hexDigit? (c : Char) : Option Nat :=
  let n := c.toNat
  if 0x30 ≤ n ∧ n ≤ 0x39 then some (n - 0x30)
  else if 0x41 ≤ n ∧ n ≤ 0x46 then some (n - 0x41 + 10)
  else if 0x61 ≤ n ∧ n ≤ 0x66 then some (n - 0x61 + 10)
  else none

/-- The value of four hexadecimal digits. -/
def hexUnit? (a b c d : Char) : Option Nat := do
  return (((← hexDigit? a) * 16 + (← hexDigit? b)) * 16 + (← hexDigit? c)) * 16 + (← hexDigit? d)

/-- The code point that an escape letter stands for. -/
def escaped? (c : Char) : Option Nat :=
  match c with
  | '"' => some 0x22
  | '\\' => some 0x5C
  | '/' => some 0x2F
  | 'b' => some 8
  | 'f' => some 12
  | 'n' => some 10
  | 'r' => some 13
  | 't' => some 9
  | _ => none

/-- Reads the rest of a quoted text into code points and surrogates; `opening` is the text from
its opening quote on.  A numeric escape needs a character after it. -/
def readUnits (opening : Text) : Text → Except Stop (List Nat × Text)
  | [] => .error (.fault .unterminatedText opening)
  | '"' :: rest => .ok ([], rest)
  | '\\' :: 'u' :: rest =>
    match rest with
    | a :: b :: c :: d :: more =>
      match more.isEmpty, hexUnit? a b c d with
      | false, some n => (readUnits opening more).map fun p => (n :: p.1, p.2)
      | _, _ => .error (.fault .unicodeEscape ('u' :: rest))
    | _ => .error (.fault .unicodeEscape ('u' :: rest))
  | '\\' :: c :: rest =>
    match escaped? c with
    | some n => (readUnits opening rest).map fun p => (n :: p.1, p.2)
    | none => .error (.fault .unknownEscape ('\\' :: c :: rest))
  | '\\' :: [] => .error (.fault .unterminatedText opening)
  | c :: rest =>
    if c.toNat < 0x20 then .error (.fault .controlCharacter (c :: rest))
    else (readUnits opening rest).map fun p => (c.toNat :: p.1, p.2)

/-- Code points from their numbers, a high surrogate with the low one after it being one character. -/
def joinSurrogates : List Nat → WideText
  | [] => []
  | [n] => [.ofNat n]
  | n :: m :: rest =>
    if 0xD800 ≤ n ∧ n ≤ 0xDBFF ∧ 0xDC00 ≤ m ∧ m ≤ 0xDFFF then
      .char (Char.ofNat (0x10000 + (n - 0xD800) * 0x400 + (m - 0xDC00))) :: joinSurrogates rest
    else .ofNat n :: joinSurrogates (m :: rest)

/-- Reads the rest of a quoted text. -/
def readText (opening rest : Text) : Except Stop (WideText × Text) :=
  (readUnits opening rest).map fun p => (joinSurrogates p.1, p.2)

/-! ### Numbers -/

/-- The parts of a number in front of a text: its sign, the digits before the point, those after
it, the exponent, and whether the number has a fraction or an exponent at all. -/
structure NumberParts where
  negative : Bool
  whole : Text
  fraction : Text
  exponent : Int
  isFloat : Bool

/-- The value of a run of decimal digits. -/
def digitsValue (digits : Text) : Nat := Text.valueOf 10 (digits.filterMap Text.asciiDigit?)

/-- The digits before the point: a zero alone, or digits that do not start with one. -/
def cutWhole : Text → Option (Text × Text)
  | '0' :: rest => some (['0'], rest)
  | c :: rest =>
    if isDigit c then some (c :: rest.takeWhile isDigit, rest.dropWhile isDigit) else none
  | [] => none

/-- The digits after a point; a point without digits does not belong to the number. -/
def cutFraction : Text → Text × Text
  | '.' :: rest =>
    if (rest.takeWhile isDigit).isEmpty then ([], '.' :: rest)
    else (rest.takeWhile isDigit, rest.dropWhile isDigit)
  | t => ([], t)

/-- The exponent; a letter without digits does not belong to the number. -/
def cutExponent (t : Text) : Option Int × Text :=
  match t with
  | e :: rest =>
    let (negative, digits) := Text.splitSign rest
    if (e == 'e' || e == 'E') && !(digits.takeWhile isDigit).isEmpty then
      (some (Text.signed negative (digitsValue (digits.takeWhile isDigit))),
        digits.dropWhile isDigit)
    else (none, t)
  | [] => (none, t)

/-- The number in front of a text, if there is one, and what follows it. -/
def cutNumber (t : Text) : Option (NumberParts × Text) :=
  let (negative, unsigned) := match t with
    | '-' :: rest => (true, rest)
    | _ => (false, t)
  (cutWhole unsigned).map fun (whole, afterWhole) =>
    let (fraction, afterFraction) := cutFraction afterWhole
    let (exponent, rest) := cutExponent afterFraction
    (⟨negative, whole, fraction, exponent.getD 0, !fraction.isEmpty || exponent.isSome⟩, rest)

/-- The value of a number. -/
def NumberParts.value (p : NumberParts) : Except Stop Json :=
  if p.isFloat then
    .ok (.float (.ofDecimal p.negative (digitsValue (p.whole ++ p.fraction))
      (p.exponent - p.fraction.length)))
  else if p.whole.length > digitLimit then .error (.numeral p.whole.length)
  else .ok (.int (Text.signed p.negative (digitsValue p.whole)))

/-! ### Values -/

/-- The words that are values. -/
def words : List (Text × Json) :=
  [("null".toList, .null), ("true".toList, .bool true), ("false".toList, .bool false),
    ("NaN".toList, .float .nan), ("Infinity".toList, .float (.infinite false)),
    ("-Infinity".toList, .float (.infinite true))]

/-- The word in front of a text and what follows it. -/
def cutWord? (t : Text) : Option (Json × Text) :=
  (words.find? fun w => w.1.isPrefixOf t).map fun w => (w.2, t.drop w.1.length)

mutual
/-- Reads a value in front of a text; `fuel` bounds the depth and the number of items together. -/
def readValue : Nat → Text → Except Stop (Json × Text)
  | 0, t => .error (.fault .value t)
  | fuel + 1, t =>
    match t with
    | '"' :: rest => (readText t rest).map fun p => (.text p.1, p.2)
    | '[' :: rest =>
      match skipGaps rest with
      | ']' :: more => .ok (.array [], more)
      | more => (readItems fuel more).map fun p => (.array p.1, p.2)
    | '{' :: rest =>
      match skipGaps rest with
      | '}' :: more => .ok (.object [], more)
      | more => (readMembers fuel [] more).map fun p => (.object p.1, p.2)
    | _ =>
      match cutWord? t with
      | some (v, rest) => .ok (v, rest)
      | none =>
        match cutNumber t with
        | some (parts, rest) => parts.value.map fun v => (v, rest)
        | none => .error (.fault .value t)

/-- Reads the items of an array up to its bracket. -/
def readItems : Nat → Text → Except Stop (List Json × Text)
  | 0, t => .error (.fault .value t)
  | fuel + 1, t => do
    let (v, rest) ← readValue fuel t
    match skipGaps rest with
    | ']' :: more => return ([v], more)
    | ',' :: more =>
      let (vs, rest) ← readItems fuel (skipGaps more)
      return (v :: vs, rest)
    | other => .error (.fault .comma other)

/-- Reads the members of an object up to its brace and puts them behind those already read. -/
def readMembers :
    Nat → List (WideText × Json) → Text → Except Stop (List (WideText × Json) × Text)
  | 0, _, t => .error (.fault .value t)
  | fuel + 1, ms, t =>
    match t with
    | '"' :: rest => do
      let (key, rest) ← readText t rest
      match skipGaps rest with
      | ':' :: more =>
        let (v, rest) ← readValue fuel (skipGaps more)
        match skipGaps rest with
        | '}' :: more => return (put key v ms, more)
        | ',' :: more => readMembers fuel (put key v ms) (skipGaps more)
        | other => .error (.fault .comma other)
      | other => .error (.fault .colon other)
    | _ => .error (.fault .propertyName t)
end

/-- Reads the one value of a text. -/
def readDocument (t : Text) : Except Stop Json :=
  match t with
  | '\uFEFF' :: _ => .error (.fault .byteOrderMark t)
  | _ => do
    let (v, rest) ← readValue (2 * t.length + 2) (skipGaps t)
    match skipGaps rest with
    | [] => return v
    | other => .error (.fault .trailing other)

/-- The error of a stop in a text. -/
def Stop.toError (t : Text) : Stop → DecodeError
  | .numeral n => .numeralTooLong n
  | .fault f rest =>
    let offset := t.length - rest.length
    .syntaxFault f offset (Position.start.advance (t.take offset))

/-- The document that a text denotes. -/
def decode (t : Text) : Except DecodeError Json := (readDocument t).mapError (Stop.toError t)

end Json
end Galley
