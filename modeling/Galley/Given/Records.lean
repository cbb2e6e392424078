/-
# Records of options from given values

The names, choices and readers of the fields of both records of options.  Complaints come in the
order of the fields, those about unknown names last and in the order given.  The readers are those
of a library.
-/

import Galley.Given.Basic
import Galley.LineDiff.Options
import Galley.Stylesheet.Options

namespace Galley

namespace Stylesheet

/-- The words for the modes. -/
def Mode.choices : List (Text × Mode) :=
  [("beautify".toList, .beautify), ("minify".toList, .minify)]

/-- The words for the kinds of indentation. -/
def Indentation.choices : List (Text × Indentation) :=
  [("spaces".toList, .spaces), ("tabs".toList, .tabs)]

namespace Options

/-- The names of the fields. -/
def names : List Text :=
  ["mode".toList, "indent_size".toList, "indent_type".toList, "space_before_brace".toList,
    "newline_before_brace".toList, "blank_line_after_brace".toList,
    "blank_line_before_close_brace".toList, "blank_line_after_rule".toList,
    "newline_after_comma".toList, "preserve_comments".toList, "drop_empty_rules".toList,
    "sort_declarations".toList, "space_after_colon".toList, "space_after_comma".toList,
    "autoprefixer".toList]

/-- Reads the fields. -/
def check (R : Given.Readers) (given : Given.Entries) : Given.Checked Options := do
  let flag (name : String) (value : Bool) : Given.Checked Bool :=
    Given.field given name.toList value R.truth
  let mode ← Given.field given "mode".toList standard.mode (R.choice Mode.choices)
  let indentSize ← Given.field given "indent_size".toList standard.indentSize (R.natural 0)
  let indentType ← Given.field given "indent_type".toList standard.indentType
    (R.choice Indentation.choices)
  let spaceBeforeBrace ← flag "space_before_brace" standard.spaceBeforeBrace
  let newlineBeforeBrace ← flag "newline_before_brace" standard.newlineBeforeBrace
  let blankLineAfterBrace ← flag "blank_line_after_brace" standard.blankLineAfterBrace
  let blankLineBeforeCloseBrace ←
    flag "blank_line_before_close_brace" standard.blankLineBeforeCloseBrace
  let blankLineAfterRule ← flag "blank_line_after_rule" standard.blankLineAfterRule
  let newlineAfterComma ← flag "newline_after_comma" standard.newlineAfterComma
  let preserveComments ← flag "preserve_comments" standard.preserveComments
  let dropEmptyRules ← flag "drop_empty_rules" standard.dropEmptyRules
  let sortDeclarations ← flag "sort_declarations" standard.sortDeclarations
  let spaceAfterColon ← flag "space_after_colon" standard.spaceAfterColon
  let spaceAfterComma ← flag "space_after_comma" standard.spaceAfterComma
  let autoprefixer ← flag "autoprefixer" standard.autoprefixer
  Given.onlyNames given names
  return { mode, indentSize, indentType, spaceBeforeBrace, newlineBeforeBrace,
           blankLineAfterBrace, blankLineBeforeCloseBrace, blankLineAfterRule, newlineAfterComma,
           preserveComments, dropEmptyRules, sortDeclarations, spaceAfterColon, spaceAfterComma,
           autoprefixer }

/-- The options that given values denote. -/
def ofGiven (R : Given.Readers) (given : Given.Entries) : Except (List Given.Problem) Options :=
  (check R given).result

end Options
end Stylesheet

namespace LineDiff

/-- The words for the layouts. -/
def Layout.choices : List (Text × Layout) :=
  [("unified".toList, .unified), ("split".toList, .split), ("inline".toList, .inline)]

/-- The words for the subjects. -/
def Subject.choices : List (Text × Subject) :=
  [("text".toList, .lines), ("json".toList, .documents)]

namespace Options

/-- The names of the fields. -/
def names : List Text :=
  ["diff_type".toList, "ignore_whitespace".toList, "ignore_case".toList,
    "show_line_numbers".toList, "context_lines".toList, "compare_mode".toList,
    "show_stats".toList]

/-- Reads the fields. -/
def check (R : Given.Readers) (given : Given.Entries) : Given.Checked Options := do
  let flag (name : String) (value : Bool) : Given.Checked Bool :=
    Given.field given name.toList value R.truth
  let layout ← Given.field given "diff_type".toList standard.layout
    (R.choice Layout.choices)
  let ignoreWhitespace ← flag "ignore_whitespace" standard.ignoreWhitespace
  let ignoreCase ← flag "ignore_case" standard.ignoreCase
  let showLineNumbers ← flag "show_line_numbers" standard.showLineNumbers
  let contextLines ← Given.field given "context_lines".toList standard.contextLines
    (R.natural 0)
  let subject ← Given.field given "compare_mode".toList standard.subject
    (R.choice Subject.choices)
  let showStatistics ← flag "show_stats" standard.showStatistics
  Given.onlyNames given names
  return { layout, ignoreWhitespace, ignoreCase, showLineNumbers, contextLines, subject,
           showStatistics }

/-- The options that given values denote. -/
def ofGiven (R : Given.Readers) (given : Given.Entries) : Except (List Given.Problem) Options :=
  (check R given).result

end Options
end LineDiff
end Galley
