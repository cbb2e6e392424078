/-
# Lines of a text

A line ends at a line feed, which a carriage return may precede.  `splitLines` cuts a text at its
line ends and drops them; a text without any is one line, and so is the empty text.  A carriage
return that no line feed follows belongs to its line.

`unifyLineEnds` instead writes every line end as one line feed, and there a lone carriage return
ends a line too: this is how files are read.
-/

import Galley.Text.Basic

namespace Galley
namespace Text

/-- Puts a character at the start of the first line. -/
def consLine (c : Char) : List Text → List Text
  | [] => [[c]]
  | line :: lines => (c :: line) :: lines

/-- The lines of a text, without their line ends. -/
def splitLines : Text → List Text
  | [] => [[]]
  | '\r' :: '\n' :: cs => [] :: splitLines cs
  | '\n' :: cs => [] :: splitLines cs
  | c :: cs => consLine c (splitLines cs)

/-- Writes every line end (a line feed, a carriage return or the two together) as a line feed. -/
def unifyLineEnds : Text → Text
  | [] => []
  | '\r' :: '\n' :: cs => '\n' :: unifyLineEnds cs
  | '\r' :: cs => '\n' :: unifyLineEnds cs
  | c :: cs => c :: unifyLineEnds cs

/-- Ends every line with a line feed. -/
def unlines (lines : List Text) : Text := (lines.map (· ++ ['\n'])).flatten

@[simp] theorem consLine_ne_nil (c : Char) (lines : List Text) : consLine c lines ≠ [] := by
  cases lines <;> simp [consLine]

/-- A text has at least one line. -/
theorem splitLines_ne_nil (t : Text) : splitLines t ≠ [] := by
  fun_induction splitLines t <;> simp

end Text
end Galley
