/-
# Written documents

A value is written in compact form, on one line with `, ` between items and `: ` after a key, or
in report form with every item on a line of its own, indented by two spaces a level.  Quotes,
backslashes and control characters are escaped in texts and everything else stands for itself, also
a surrogate.
-/

import Galley.Json.Value
import Galley.Number.Notation

namespace Galley
namespace Json

/-- A character inside a quoted text. -/
def escapeChar (c : Char) : Text :=
  if c = '"' then ['\\', '"']
  else if c = '\\' then ['\\', '\\']
  else if c = '\n' then ['\\', 'n']
  else if c = '\r' then ['\\', 'r']
  else if c = '\t' then ['\\', 't']
  else if c = '\x08' then ['\\', 'b']
  else if c = '\x0c' then ['\\', 'f']
  else if c.toNat < 0x20 then ['\\', 'u'] ++ List.leftpad 4 '0' (Nat.toDigits 16 c.toNat)
  else [c]

/-- A code point inside a quoted text. -/
def escape : CodePoint → WideText
  | .char c => escapeChar c
  | .surrogate n => [.surrogate n]

/-- A quoted text. -/
def quote (t : WideText) : WideText := Text.wide ['"'] ++ t.flatMap escape ++ Text.wide ['"']

/-- A value without items of its own. -/
def scalar : Json → WideText
  | .null => "null".toList
  | .bool true => "true".toList
  | .bool false => "false".toList
  | .int i => Text.ofInt i
  | .float x => Numerals.document.write x
  | .text t => quote t
  | .array _ => []
  | .object _ => []

mutual
/-- A value in compact form. -/
def compact : Json → WideText
  | .array items => ['['] ++ compactItems items ++ [']']
  | .object members => ['{'] ++ compactMembers members ++ ['}']
  | v => scalar v

/-- Items with commas between them. -/
def compactItems : List Json → WideText
  | [] => []
  | [v] => compact v
  | v :: vs => compact v ++ [',', ' '] ++ compactItems vs

/-- Members with commas between them. -/
def compactMembers : List (WideText × Json) → WideText
  | [] => []
  | [(k, v)] => quote k ++ [':', ' '] ++ compact v
  | (k, v) :: ms => quote k ++ [':', ' '] ++ compact v ++ [',', ' '] ++ compactMembers ms
end

/-- The start of a line at a level. -/
def lineStart (level : Nat) : Text := '\n' :: List.replicate (2 * level) ' '

mutual
/-- A value in report form at a level. -/
def indented (level : Nat) : Json → WideText
  | .array [] => Text.wide ['[', ']']
  | .array (v :: vs) =>
    .char '[' :: (indentedItems (level + 1) (v :: vs) ++ (lineStart level ++ [']']))
  | .object [] => Text.wide ['{', '}']
  | .object (m :: ms) =>
    .char '{' :: (indentedMembers (level + 1) (m :: ms) ++ (lineStart level ++ ['}']))
  | v => scalar v

/-- Items on lines of their own. -/
def indentedItems (level : Nat) : List Json → WideText
  | [] => []
  | [v] => lineStart level ++ indented level v
  | v :: vs => lineStart level ++ (indented level v ++ (.char ',' :: indentedItems level vs))

/-- Members on lines of their own. -/
def indentedMembers (level : Nat) : List (WideText × Json) → WideText
  | [] => []
  | [(k, v)] => lineStart level ++ quote k ++ ([':', ' '] ++ indented level v)
  | (k, v) :: ms =>
    lineStart level ++ quote k ++ [':', ' '] ++
      (indented level v ++ (.char ',' :: indentedMembers level ms))
end

/-- A value in report form. -/
def report (v : Json) : WideText := indented 0 v

end Json
end Galley
