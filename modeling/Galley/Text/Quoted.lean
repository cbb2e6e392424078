/-
# Names in messages

Inside a message a name stands in quotes, so that its end can be seen.  The quotes are single, or
double for a name that has single quotes and no double ones.  The quote itself, backslashes and
characters that cannot be seen are escaped, and so are surrogates.
-/

import Galley.Text.Blank
import Galley.Text.Wide

namespace Galley
namespace Text

/-- Whether a character cannot be seen: a control character or a blank other than the space. -/
def isInvisible (c : Char) : Bool :=
  c.toNat < 0x20 || (0x7F ≤ c.toNat && c.toNat ≤ 0xA0) || c.toNat == 0xAD ||
    (isBlank c && c != ' ')

/-- A character code with two digits, or four where two are not enough. -/
def escapeCode (n : Nat) : Text :=
  if n < 0x100 then ['\\', 'x'] ++ List.leftpad 2 '0' (Nat.toDigits 16 n)
  else ['\\', 'u'] ++ List.leftpad 4 '0' (Nat.toDigits 16 n)

/-- A character between quotes. -/
def quotedChar (mark c : Char) : Text :=
  if c = mark ∨ c = '\\' then ['\\', c]
  else if c = '\n' then ['\\', 'n']
  else if c = '\r' then ['\\', 'r']
  else if c = '\t' then ['\\', 't']
  else if isInvisible c then escapeCode c.toNat
  else [c]

end Text

/-- A code point between quotes. -/
def CodePoint.quoted (mark : Char) : CodePoint → Text
  | .char c => Text.quotedChar mark c
  | .surrogate n => Text.escapeCode (0xD800 + n)

/-- A name in quotes. -/
def WideText.quoted (t : WideText) : Text :=
  let mark := if t.contains (.char '\'') && !t.contains (.char '"') then '"' else '\''
  [mark] ++ t.flatMap (CodePoint.quoted mark) ++ [mark]

end Galley
