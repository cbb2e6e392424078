/-
# Options of a comparison

Which lines count as equal, how the outcome is laid out, and whether the two texts are compared by
lines or as JSON documents.
-/

import Galley.Text.Blank
import Galley.Text.LowerCase

namespace Galley
namespace LineDiff

/-- The layouts of a report. -/
inductive Layout where
  | unified
  | split
  | inline
  deriving DecidableEq, Repr

/-- The word for a layout. -/
def Layout.name : Layout → Text
  | .unified => "unified".toList
  | .split => "split".toList
  | .inline => "inline".toList

/-- What the two texts are. -/
inductive Subject where
  | lines
  | documents
  deriving DecidableEq, Repr

/-- The word for a subject. -/
def Subject.name : Subject → Text
  | .lines => "text".toList
  | .documents => "json".toList

/-- The options of a comparison. -/
structure Options where
  layout : Layout
  ignoreWhitespace : Bool
  ignoreCase : Bool
  showLineNumbers : Bool
  contextLines : Nat
  subject : Subject
  showStatistics : Bool
  deriving DecidableEq, Repr

namespace Options

/-- The options in force where none are given. -/
def standard : Options where
  layout := .unified
  ignoreWhitespace := false
  ignoreCase := false
  showLineNumbers := true
  contextLines := 3
  subject := .lines
  showStatistics := true

/-- The key of a line: two lines count as equal when their keys are equal. -/
def key (o : Options) (line : Text) : Text :=
  let spaced := if o.ignoreWhitespace then Text.trim (Text.collapse line) else line
  if o.ignoreCase then Text.lower spaced else spaced

end Options
end LineDiff
end Galley
