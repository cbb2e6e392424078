/-
# The libraries of the program

What the program uses where a run leaves something to libraries: a reader of YAML, the lax readers
of given values, and pages in one style.  No result about runs depends on it but those about one
run.
-/

import Galley.Given.Standard
import Galley.Highlight.Html
import Galley.Run.Libraries
import Galley.Text.Lines
import Galley.Yaml.Value

namespace Galley

/-- A failure to decode the file of a preset.  An unfinished character at the end of the file is
found when all else has been taken away, so its place is counted from its own first byte. -/
def Preset.decodeBreakdown (f : Utf8.Failure) : Breakdown :=
  .undecodable (if f.reason = .unexpectedEnd then { f with offset := 0 } else f)

/-- Reads a preset as YAML in UTF-8. -/
def Preset.loadYaml : Preset.Loader := fun c =>
  match c.decode with
  | .error f => .error (.broken (decodeBreakdown f))
  | .ok t => (Yaml.decode (Text.unifyLineEnds t)).elim (.error .unparsable) .ok

/-- The libraries of the program. -/
def Libraries.standard : Libraries where
  load := Preset.loadYaml
  readers := .standard
  highlight := Highlight.standardPage

end Galley
