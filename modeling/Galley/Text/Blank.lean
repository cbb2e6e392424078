/-
# Blank characters

One class of characters separates the words of a stylesheet, the words of a line and the edges of
a trimmed text.  `isBlank` lists its 29 code points; `trim` takes them off both ends of a text and
`collapse` writes every run of them as one space.
-/

import Galley.Text.Basic

namespace Galley
namespace Text

/-- The blank characters: the control characters that move the carriage, the four separators
`0x1C` to `0x1F`, the next-line character, and the spaces and line separators of general use.
Zero-width characters are not among them. -/
def isBlank (c : Char) : Bool :=
  let n := c.toNat
  (9 ≤ n && n ≤ 13) || (0x1C ≤ n && n ≤ 0x20) || n == 0x85 || n == 0xA0 || n == 0x1680 ||
    (0x2000 ≤ n && n ≤ 0x200A) || n == 0x2028 || n == 0x2029 || n == 0x202F || n == 0x205F ||
    n == 0x3000

/-- Drops the blanks at the start. -/
def trimLeft (t : Text) : Text := t.dropWhile isBlank

/-- Drops the blanks at the end. -/
def trimRight (t : Text) : Text := (trimLeft t.reverse).reverse

/-- Drops the blanks at both ends. -/
def trim (t : Text) : Text := trimRight (trimLeft t)

/-- Whether a text has no character that is not blank. -/
def allBlank (t : Text) : Bool := t.all isBlank

/-- Writes every run of blanks as one space: the last blank of a run becomes the space and the
others are dropped. -/
def collapse : Text → Text
  | [] => []
  | c :: cs =>
    if isBlank c then
      match cs with
      | [] => [' ']
      | d :: _ => if isBlank d then collapse cs else ' ' :: collapse cs
    else c :: collapse cs

end Text
end Galley
