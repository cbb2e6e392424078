/-
# Requests

What a run is asked to do: the tool, the files, and the options given on the command line, which
win over those of a preset.  A flag that is not set says nothing about its option.
-/

import Galley.Given.Basic
import Galley.Run.Path

namespace Galley

/-- A request.  The command line admits the tools `css` and `diff`. -/
structure Request where
  inputDir : Path
  outputDir : Path
  verbosity : Int
  tool : Text
  inputFile : Text
  compareFile : Option Text
  outputFile : Text
  html : Bool
  presetFile : Option Text
  mode : Option Text
  indentSize : Option Int
  indentType : Option Text
  sortProperties : Bool
  removeEmptyRules : Bool
  stripComments : Bool
  diffType : Option Text
  contextLines : Option Int
  compareMode : Option Text
  ignoreWhitespace : Bool
  ignoreCase : Bool
  noLineNumbers : Bool
  noStats : Bool
  deriving DecidableEq, Repr

namespace Request

/-- The tool that formats a stylesheet. -/
def stylesheetTool : Text := "css".toList

/-- The tool that compares two texts. -/
def comparisonTool : Text := "diff".toList

/-- The request in which nothing is given but the directories. -/
def standard (inputDir outputDir : Path) : Request where
  inputDir := inputDir
  outputDir := outputDir
  verbosity := 1
  tool := stylesheetTool
  inputFile := []
  compareFile := none
  outputFile := []
  html := false
  presetFile := none
  mode := none
  indentSize := none
  indentType := none
  sortProperties := false
  removeEmptyRules := false
  stripComments := false
  diffType := none
  contextLines := none
  compareMode := none
  ignoreWhitespace := false
  ignoreCase := false
  noLineNumbers := false
  noStats := false

/-- An entry for a value that is given. -/
def entry {α : Type} (name : String) (make : α → Given) (value : Option α) : Given.Entries :=
  (value.map fun a => (Text.wide name.toList, make a)).toList

/-- An entry for a flag that is set, with the value it stands for. -/
def flagEntry (name : String) (value flag : Bool) : Given.Entries :=
  if flag then [(Text.wide name.toList, .bool value)] else []

/-- The given options for formatting a stylesheet. -/
def stylesheetOverrides (r : Request) : Given.Entries :=
  entry "mode" .word r.mode ++ entry "indent_size" .int r.indentSize ++
    entry "indent_type" .word r.indentType ++
    flagEntry "sort_declarations" true r.sortProperties ++
    flagEntry "drop_empty_rules" true r.removeEmptyRules ++
    flagEntry "preserve_comments" false r.stripComments

/-- The given options for comparing two texts. -/
def comparisonOverrides (r : Request) : Given.Entries :=
  entry "diff_type" .word r.diffType ++ entry "context_lines" .int r.contextLines ++
    entry "compare_mode" .word r.compareMode ++
    flagEntry "ignore_whitespace" true r.ignoreWhitespace ++
    flagEntry "ignore_case" true r.ignoreCase ++
    flagEntry "show_line_numbers" false r.noLineNumbers ++
    flagEntry "show_stats" false r.noStats

/-- The name of the output where none is given: the name of the input without its extension, and an
ending that tells the tool and the mode that is asked for. -/
def derivedName (r : Request) : Text :=
  (Path.ofText r.inputFile).stem ++
    if r.tool = comparisonTool then ".diff.txt".toList
    else if r.mode = some "minify".toList then ".min.css".toList
    else ".formatted.css".toList

/-- The name of the output. -/
def outputName (r : Request) : Text :=
  if r.outputFile.isEmpty then r.derivedName else r.outputFile

end Request
end Galley
