/-
# Positions in a text

A position is a line and a column, both counted from one at the start of a text.  Only the line
feed ends a line.
-/

import Galley.Text.Basic

namespace Galley

/-- A place in a text. -/
structure Position where
  line : Int
  column : Int
  deriving DecidableEq, Repr, Inhabited

namespace Position

/-- The first place of a text. -/
def start : Position := ⟨1, 1⟩

/-- The place after one character: a line feed leads to the start of the next line. -/
def next (p : Position) (c : Char) : Position :=
  if c = '\n' then ⟨p.line + 1, 1⟩ else ⟨p.line, p.column + 1⟩

/-- The place reached from `p` by reading a text. -/
def advance (p : Position) (t : Text) : Position := t.foldl next p

/-- A place in short form, line and column with a colon between them. -/
def brief (p : Position) : Text := Text.ofInt p.line ++ [':'] ++ Text.ofInt p.column

@[simp] theorem advance_nil (p : Position) : p.advance [] = p := rfl

@[simp] theorem advance_cons (p : Position) (c : Char) (t : Text) :
    p.advance (c :: t) = (p.next c).advance t := rfl

/-- Reading two texts one after the other is reading their concatenation. -/
theorem advance_append (p : Position) (s t : Text) :
    p.advance (s ++ t) = (p.advance s).advance t := List.foldl_append

end Position
end Galley
