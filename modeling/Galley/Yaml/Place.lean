/-
# Characters in their places

Indentation decides the structure of a YAML document, so the reader works on characters that know
their line and column, both counted from zero.  Besides the line feed three rarer characters end a
line.  A byte order mark takes up no column.
-/

import Galley.Text.Basic

namespace Galley
namespace Yaml

/-- A character with its line, its column and the number of characters before it. -/
structure Place where
  char : Char
  line : Nat
  column : Nat
  index : Nat
  deriving DecidableEq, Repr

/-- Whether a character ends a line. -/
def isBreak (c : Char) : Bool :=
  c == '\n' || c == '\r' || c == '\x85' || c == '\u2028' || c == '\u2029'

/-- A line end inside a text: the ordinary ones are written as a line feed. -/
def breakText (c : Char) : Char := if c == '\r' || c == '\x85' then '\n' else c

/-- Whether a character is a space or a tab. -/
def isBlank (c : Char) : Bool := c == ' ' || c == '\t'

/-- Whether a character separates words. -/
def isGap (c : Char) : Bool := isBlank c || isBreak c

/-- Whether a character may stand in a document at all. -/
def isPrintable (c : Char) : Bool :=
  let n := c.toNat
  c == '\t' || c == '\n' || c == '\r' || c == '\x85' || (0x20 ≤ n && n ≤ 0x7E) ||
    (0xA0 ≤ n && n ≤ 0xFFFD) || 0x10000 ≤ n

namespace Place

/-- The places of the characters of a text. -/
def placeFrom (line column index : Nat) : Text → List Place
  | [] => []
  | c :: cs =>
    ⟨c, line, column, index⟩ ::
      (if isBreak c then placeFrom (line + 1) 0 (index + 1) cs
       else placeFrom line (if c = '\uFEFF' then column else column + 1) (index + 1) cs)

/-- The places of the characters of a document. -/
def ofText (t : Text) : List Place := placeFrom 0 0 0 t

/-- The characters of a list of places. -/
def text (ps : List Place) : Text := ps.map Place.char

/-- Whether a word ends here: in front of a gap or at the end. -/
def endsWord : List Place → Bool
  | [] => true
  | p :: _ => isGap p.char

/-- Whether the first character is `c`. -/
def startsWith (c : Char) : List Place → Bool
  | [] => false
  | p :: _ => p.char == c

/-- Whether the first character stands in a column before `column`. -/
def isLeftOf (column : Int) : List Place → Bool
  | [] => false
  | p :: _ => decide ((p.column : Int) < column)

/-- Whether the first character stands in column `column`. -/
def isAt (column : Nat) : List Place → Bool
  | [] => false
  | p :: _ => p.column == column

/-- Whether three marks of one kind stand at the start of a line as a word of their own. -/
def isMarker (mark : Char) : List Place → Bool
  | p :: q :: r :: rest =>
    p.column == 0 && p.char == mark && q.char == mark && r.char == mark && endsWord rest
  | _ => false

/-- Whether a document starts or ends here. -/
def isDocumentMarker (ps : List Place) : Bool := isMarker '-' ps || isMarker '.' ps

end Place
end Yaml
end Galley
