/-
# What libraries do in a run

A run leaves three things to libraries, whatever they are: reading the file of a preset, reading the
values that are given for options, and making a page with highlighted text.  Each of them may fail.
-/

import Galley.Highlight.Span
import Galley.Preset

namespace Galley

/-- What libraries do in a run.  A page is made of a text in a language, in the style of a name and
under a title, or there is a message why it is not. -/
structure Libraries where
  load : Preset.Loader
  readers : Given.Readers
  highlight : (language : Highlight.Language) → (style title text : Text) → Except Text Text

end Galley
