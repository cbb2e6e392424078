/-
# Highlighted text

Highlighting cuts a text into spans and gives every span a class.  Before that the text is put
into a common form: a byte order mark in front is dropped, all line ends become line feeds, empty
lines at both ends are dropped and the last line is ended.

How a text is cut depends on its language.  Reports have rules of their own; what a library does
with the other languages, which it knows by name, is not said here.
-/

import Galley.Text.Lines
import Galley.Text.LowerCase

namespace Galley
namespace Highlight

/-- The classes of spans. -/
inductive Class where
  | heading
  | subheading
  | frame
  | inserted
  | deleted
  | label
  | punctuation
  | number
  | blank
  | plain
  deriving DecidableEq, Repr

/-- A piece of text of one class. -/
structure Span where
  kind : Class
  text : Text
  deriving DecidableEq, Repr

/-- Drops the line feeds at both ends of a text. -/
def stripLineFeeds (t : Text) : Text :=
  ((t.dropWhile (· == '\n')).reverse.dropWhile (· == '\n')).reverse

/-- Drops the byte order mark in front of a text. -/
def dropByteOrderMark : Text → Text
  | '\uFEFF' :: t => t
  | t => t

/-- The lines of a text in common form, without their ends. -/
def preparedLines (t : Text) : List Text :=
  Text.splitAll '\n' (stripLineFeeds (Text.unifyLineEnds (dropByteOrderMark t)))

/-- The common form of a text. -/
def prepared (t : Text) : Text := Text.unlines (preparedLines t)

/-- What a text is for the purpose of highlighting: a report, or what a library knows by a name. -/
inductive Language where
  | report
  | named (name : Text)
  deriving DecidableEq, Repr

/-- The language of a name; reports have three names, in any case. -/
def Language.ofName (name : Text) : Language :=
  let reports := ["diff".toList, "formathub-diff".toList, "fhdiff".toList]
  if reports.contains (Text.lower name) then .report else .named name

/-- A text without any distinctions is one span. -/
def plainSpans (t : Text) : List Span := [⟨.plain, prepared t⟩]

end Highlight
end Galley
