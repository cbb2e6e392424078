/-
# Formatting a stylesheet

The way from the text of a stylesheet to its formatted text: tokens, rules, issues and one of the
printers.  Malformed text is formatted as far as it goes; only a blank text and an indentation
that cannot be built are refused.
-/

import Galley.Log
import Galley.Number.Binary64
import Galley.Stylesheet.Lint
import Galley.Stylesheet.Parser
import Galley.Stylesheet.Printer
import Galley.Text.Utf8

namespace Galley
namespace Stylesheet

/-- Why a stylesheet is not formatted. -/
inductive FormatError where
  | blankText
  | indentTooWide
  deriving DecidableEq, Repr

/-- The wording of an error. -/
def FormatError.message : FormatError → Text
  | .blankText => "Please provide CSS content to process".toList
  | .indentTooWide => "cannot fit 'int' into an index-sized integer".toList

/-- Sizes in bytes, their ratio, counts and issues of one formatting. -/
structure Statistics where
  sourceSize : Nat
  outputSize : Nat
  ratio : Binary64
  lineCount : Nat
  tally : Rule.Tally
  errors : List Issue
  warnings : List Issue

/-- A formatted stylesheet. -/
structure Formatted where
  output : Text
  statistics : Statistics
  rules : List Rule

/-- Reads the rules of a stylesheet from its tokens.  The notes of the parser are logged only when
`debug` asks for them. -/
def parseLogged (debug : Bool) (ts : List Token) : Logged (List Rule) :=
  let s := sheet ts
  ⟨s.rules,
    (if debug then s.notes.map fun n => .note 3 n.message else []) ++
      [.note 3 ("Parsed ".toList ++ Text.ofNat s.rules.length ++ " top-level rules".toList)]⟩

/-- The rules of a text. -/
def rulesOf (source : Text) : List Rule := parse (Token.scan source)

/-- The statistics of formatting `source` with rules `rules` into `output`. -/
def Statistics.of (source output : Text) (rules : List Rule) : Statistics :=
  let issues := validate rules
  { sourceSize := Utf8.size source
    outputSize := Utf8.size output
    ratio := .ofRatio false (Utf8.size output) (Utf8.size source)
    lineCount := output.count '\n' + 1
    tally := Rule.tallyAll rules
    errors := issues.filter Issue.isError
    warnings := issues.filter fun i => !i.isError }

/-- Formats a stylesheet. -/
def format (o : Options) (debug : Bool) (source : Text) :
    Logged (Except FormatError Formatted) := do
  if source.allBlank then return .error .blankText
  let ts := Token.scan source
  .note 2 ("Tokenized ".toList ++ Text.ofNat source.length ++ " characters into ".toList ++
    Text.ofNat ts.length ++ " tokens".toList)
  let rules ← parseLogged debug ts
  .note 2 ("Validation found ".toList ++ Text.ofNat (validate rules).length ++
    " issues".toList)
  if o.mode == .beautify && !o.indentFits then
    .note 1 ("CSS processing failed: ".toList ++ FormatError.indentTooWide.message)
    return .error .indentTooWide
  let output := render rules o
  .note 2 ("Rendered ".toList ++ Text.ofNat output.length ++ " characters (".toList ++
    o.mode.name ++ ")".toList)
  return .ok ⟨output, .of source output rules, rules⟩

/-- The output of a formatting, empty for one that failed. -/
def outputOf : Except FormatError Formatted → Text
  | .ok f => f.output
  | .error _ => []

end Stylesheet
end Galley
