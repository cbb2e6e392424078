/-
# Formatting options

The options of the two printers.  They are independent of each other.  `spaceAfterComma`,
`newlineAfterComma` and `autoprefixer` belong to saved sets of options and change nothing.
-/

import Galley.Number.Power
import Galley.Text.Basic

namespace Galley
namespace Stylesheet

/-- Which printer is used. -/
inductive Mode where
  | beautify
  | minify
  deriving DecidableEq, Repr

/-- What an indentation is made of. -/
inductive Indentation where
  | spaces
  | tabs
  deriving DecidableEq, Repr

namespace Indentation

/-- One level of indentation: a number of spaces, none for a negative number, or one tab. -/
def unit (kind : Indentation) (size : Int) : Text :=
  match kind with
  | .spaces => List.replicate size.toNat ' '
  | .tabs => ['\t']

end Indentation

/-- The name of a mode. -/
def Mode.name : Mode → Text
  | .beautify => "beautify".toList
  | .minify => "minify".toList

/-- The options of the printers. -/
structure Options where
  mode : Mode
  indentSize : Nat
  indentType : Indentation
  spaceBeforeBrace : Bool
  newlineBeforeBrace : Bool
  blankLineAfterBrace : Bool
  blankLineBeforeCloseBrace : Bool
  blankLineAfterRule : Bool
  newlineAfterComma : Bool
  preserveComments : Bool
  dropEmptyRules : Bool
  sortDeclarations : Bool
  spaceAfterColon : Bool
  spaceAfterComma : Bool
  autoprefixer : Bool
  deriving DecidableEq, Repr

namespace Options

/-- The options in force where none are given. -/
def standard : Options where
  mode := .beautify
  indentSize := 2
  indentType := .spaces
  spaceBeforeBrace := true
  newlineBeforeBrace := false
  blankLineAfterBrace := false
  blankLineBeforeCloseBrace := false
  blankLineAfterRule := true
  newlineAfterComma := false
  preserveComments := true
  dropEmptyRules := false
  sortDeclarations := false
  spaceAfterColon := true
  spaceAfterComma := false
  autoprefixer := false

/-- One level of indentation under the options. -/
def indent (o : Options) : Text := o.indentType.unit o.indentSize

/-- Whether one level of indentation can be built: a run of spaces has fewer than `2 ^ 63`. -/
def indentFits (o : Options) : Bool :=
  o.indentType == .tabs || decide (o.indentSize < powerOfTwo 63)

end Options
end Stylesheet
end Galley
