/-
# Values of a YAML document

The reader of presets that the program uses.  A plain scalar stands for the value that its form
suggests.

| form | value |
| --- | --- |
| nothing, `~`, `null` | null |
| `yes`, `no`, `true`, `false`, `on`, `off` | a truth value |
| decimal digits, `0b…`, `0x…`, `0…` in base eight, `1:30` in base sixty | an integer |
| decimal digits with a point, `.inf`, `.nan` | a float |
| `2001-02-03` | a date |
| `2001-02-03 04:05:06`, with a fraction and a zone or without | a date with a time |
| any other | its text |

The words may be in lower case, in capitals or capitalized, and underscores may divide digits.  A
quoted or block scalar is its text.  The keys of a mapping are scalars, and the last of several
pairs with one key counts.  The pairs of the mappings under the key `<<` are put before the others.
-/

import Galley.Given.Basic
import Galley.Text.Decimal
import Galley.Yaml.Node

namespace Galley
namespace Yaml

open Given (Atom)

/-! ### Scalars -/

/-- A word in its three forms. -/
def wordForms (word : Text) : List Text :=
  [word, word.map Char.toUpper, (word.take 1).map Char.toUpper ++ word.drop 1]

/-- Whether a text is one of some words in one of their forms. -/
def isOneOf (words : List Text) (t : Text) : Bool := (words.flatMap wordForms).contains t

/-- The values of a run of digits that underscores may divide. -/
def digits? (base : Nat) (t : Text) : Option (List Nat) :=
  (t.filter (· != '_')).mapM fun c => (Scalar.hexValue? c).filter (· < base)

/-- Whether a text starts with a decimal digit. -/
def startsWithDigit (t : Text) : Bool := t.head?.any Char.isDigit

/-- The value of a run of digits in a base. -/
def natural? (base : Nat) (t : Text) : Option Nat :=
  (digits? base t).bind fun ds => if ds.isEmpty then none else some (Text.valueOf base ds)

/-- One place in base sixty: one or two decimal digits. -/
def sixtieth? : Text → Option Nat
  | [a] => (Text.asciiDigit? a)
  | [a, b] => do
    let n := 10 * (← Text.asciiDigit? a) + (← Text.asciiDigit? b)
    if n < 60 then some n else none
  | _ => none

/-- A natural number in base ten, or in base sixty with colons between its places. -/
def decimal? (t : Text) : Option Nat :=
  match Text.splitAll ':' t with
  | [] => none
  | first :: more => do
    if !startsWithDigit first then none
    else
      let places ← more.mapM sixtieth?
      some (Text.valueOf 60 ((← natural? 10 first) :: places))

/-- The integer that a text has the form of. -/
def int? (t : Text) : Option Int :=
  let (negative, body) := Text.splitSign t
  let value : Option Nat :=
    match body with
    | ['0'] => some 0
    | '0' :: 'b' :: ds => natural? 2 ds
    | '0' :: 'x' :: ds => natural? 16 ds
    | '0' :: ds => natural? 8 ('0' :: ds)
    | _ => decimal? body
  value.map (Text.signed negative)

/-- The digits after a point and the exponent behind them. -/
def fraction? (t : Text) : Option (List Nat × Int) :=
  let isMark (c : Char) : Bool := c == 'e' || c == 'E'
  match t.dropWhile fun c => !isMark c with
  | [] => (digits? 10 t).map fun ds => (ds, 0)
  | _ :: sign :: ds => do
    let fraction ← digits? 10 (t.takeWhile fun c => !isMark c)
    if (sign == '+' || sign == '-') && !ds.isEmpty && ds.all Char.isDigit then
      some (fraction, Text.signed (sign == '-') (← natural? 10 ds))
    else none
  | _ => none

/-- The float that a text with a point has the form of. -/
def float? (t : Text) : Option Binary64 := do
  let (negative, body) := Text.splitSign t
  let (whole, after) ← Text.splitFirst '.' body
  if whole.isEmpty then
    if isOneOf ["inf".toList] after then some (.infinite negative)
    else if body ≠ t then none
    else if after = "nan".toList ∨ after = "NaN".toList ∨ after = "NAN".toList then some .nan
    else if startsWithDigit after then
      let (ds, x) ← fraction? after
      some (.ofDecimal false (Text.valueOf 10 ds) (x - ds.length))
    else none
  else
    let n ← decimal? whole
    let (ds, x) ← fraction? after
    if whole.contains ':' && !after.all (fun c => c.isDigit || c == '_') then none
    else
      let m := n * powerOfTen ds.length + Text.valueOf 10 ds
      some (.ofDecimal negative m (x - ds.length))

/-- Whether a text has the form of a date. -/
def isDate (t : Text) : Bool :=
  match t with
  | [a, b, c, d, '-', e, f, '-', g, h] => [a, b, c, d, e, f, g, h].all Char.isDigit
  | _ => false

/-- Whether a text has the form of a part of a date with a time: one or two digits. -/
def isShortNumber (t : Text) : Bool := (t.length == 1 || t.length == 2) && t.all Char.isDigit

/-- Whether a text has the form of a zone behind a time. -/
def isZone (t : Text) : Bool :=
  match t.dropWhile isBlank with
  | [] => t.isEmpty
  | ['Z'] => true
  | sign :: zone =>
    (sign == '+' || sign == '-') &&
      match Text.splitAll ':' zone with
      | [hours] => isShortNumber hours
      | [hours, minutes] => isShortNumber hours && minutes.length == 2 && minutes.all Char.isDigit
      | _ => false

/-- Whether a text has the form of a time, with a fraction of a second and a zone or without. -/
def isTime (t : Text) : Bool :=
  match Text.splitFirst ':' t with
  | some (hours, m :: n :: ':' :: s :: u :: rest) =>
    let zone := match rest with
      | '.' :: fraction => fraction.dropWhile Char.isDigit
      | _ => rest
    isShortNumber hours && [m, n, s, u].all Char.isDigit && isZone zone
  | _ => false

/-- Whether a text has the form of a date with a time. -/
def isDateTime (t : Text) : Bool :=
  let isGap (c : Char) : Bool := c == 'T' || c == 't' || isBlank c
  let date := t.takeWhile fun c => !isGap c
  let time := match t.dropWhile fun c => !isGap c with
    | 'T' :: rest => rest
    | 't' :: rest => rest
    | rest => rest.dropWhile isBlank
  match Text.splitAll '-' date with
  | [year, month, day] =>
    year.length == 4 && year.all Char.isDigit && isShortNumber month && isShortNumber day &&
      isTime time
  | _ => false

/-- The value of a plain scalar.  The signs for merging and for a default value have none. -/
def ofPlain? (t : Text) : Option Atom :=
  if t.isEmpty || t == ['~'] || isOneOf ["null".toList] t then some .null
  else if isOneOf ["yes".toList, "true".toList, "on".toList] t then some (.bool true)
  else if isOneOf ["no".toList, "false".toList, "off".toList] t then some (.bool false)
  else if t == ['<', '<'] || t == ['='] then none
  else
    match float? t, int? t with
    | some x, _ => some (.float x)
    | none, some i => some (.int i)
    | none, none =>
      some (if isDate t then .date t else if isDateTime t then .dateTime t else .text t)

/-- Whether two atoms are the same key: numbers and truth values are compared by value. -/
def sameKey : Atom → Atom → Bool
  | .float x, .float y => x.sameValue y
  | .float x, .int i => x.equalsInt i
  | .int i, .float x => x.equalsInt i
  | .float x, .bool b => x.equalsInt (if b then 1 else 0)
  | .bool b, .float x => x.equalsInt (if b then 1 else 0)
  | .int i, .bool b => i == if b then 1 else 0
  | .bool b, .int i => i == if b then 1 else 0
  | a, b => a == b

/-! ### Values -/

/-- Puts a value under a key: in place of the value there, or at the end. -/
def put (key : Atom) (value : Given) : List (Atom × Given) → List (Atom × Given)
  | [] => [(key, value)]
  | (k, v) :: ps => if sameKey k key then (k, value) :: ps else (k, v) :: put key value ps

/-- Puts pairs after each other. -/
def putAll (ps : List (Atom × Given)) : List (Atom × Given) :=
  ps.foldl (fun acc p => put p.1 p.2 acc) []

/-- The pairs of a mapping. -/
def pairs? : Given → Option (List (Atom × Given))
  | .mapping ps => some ps
  | _ => none

/-- The pairs of a value that is to be merged: a mapping, or a sequence of mappings of which the
first ones win. -/
def merged? : Given → Option (List (Atom × Given))
  | .sequence vs => (vs.mapM pairs?).map fun pss => pss.reverse.flatten
  | v => pairs? v

/-- Whether a node is the key of mappings to be merged. -/
def isMergeKey : Node → Bool
  | .scalar t plain => plain && t == Text.wide ['<', '<']
  | _ => false

/-- The value of a scalar. -/
def ofScalar? (t : WideText) (plain : Bool) : Option Atom :=
  if plain then t.narrow?.bind ofPlain? else some (.text t)

/-- The key that a node stands for. -/
def key? : Node → Option Atom
  | .scalar t plain => ofScalar? t (plain && t != Text.wide ['='])
  | _ => none

mutual
/-- The value of a node. -/
def ofNode? : Node → Option Given
  | .scalar t plain => (ofScalar? t plain).map .atom
  | .sequence items => (ofNodes? items).map .sequence
  | .mapping pairs => (ofPairs? pairs).map fun (own, taken) => .mapping (putAll (taken ++ own))

/-- The values of several nodes. -/
def ofNodes? : List Node → Option (List Given)
  | [] => some []
  | n :: ns => do return (← ofNode? n) :: (← ofNodes? ns)

/-- The pairs of a mapping and the pairs merged into it. -/
def ofPairs? : List (Node × Node) → Option (List (Atom × Given) × List (Atom × Given))
  | [] => some ([], [])
  | (k, v) :: ps => do
    let value ← ofNode? v
    let (own, taken) ← ofPairs? ps
    if isMergeKey k then return (own, (← merged? value) ++ taken)
    else return ((← key? k, value) :: own, taken)
end

/-- The value of the document in a text; a text without a document is null. -/
def decode (t : Text) : Option Given :=
  if t.all isPrintable then
    let body := match t with
      | '\uFEFF' :: rest => rest
      | _ => t
    ((Token.scan body).bind Node.ofTokens?).bind ofNode?
  else none

end Yaml
end Galley
