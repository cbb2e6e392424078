/-
# Settings of the environment

Settings apply to all runs.  They come from environment variables, in any case of their names, and
where there is none from a file of `NAME=value` lines; variables of other names mean nothing, but
in the file they are complained about.
-/

import Galley.Given.Basic
import Galley.Text.Blank
import Galley.Text.Lines
import Galley.Text.LowerCase

namespace Galley

/-- The settings.  `indentSize` and `contextLines` are the standard values of two options. -/
structure Settings where
  indentSize : Nat
  contextLines : Nat
  warnCells : Nat
  highlightStyle : Text
  debug : Bool
  deriving DecidableEq, Repr

namespace Settings

/-- The settings in force where none are given. -/
def standard : Settings := ⟨2, 3, 4000000, "default".toList, false⟩

/-- The beginning of the names of the variables. -/
def nameStart : Text := "formathub_".toList

/-- The names of the settings. -/
def names : List Text :=
  ["indent_size".toList, "context_lines".toList, "diff_warn_cells".toList,
    "highlight_style".toList, "debug_mode".toList]

/-- Takes matching quotes off a value, or else a comment behind it. -/
def unquote (value : Text) : Text :=
  match value with
  | q :: rest =>
    if (q == '\'' || q == '"') && 1 < value.length && rest.getLast? == some q then rest.dropLast
    else
      match Text.splitAll '#' value with
      | [] => value
      | first :: more =>
        if more.isEmpty || !(first.getLast?.any Text.isBlank) then value
        else Text.trimRight first
  | [] => []

/-- The variable on a line of a settings file. -/
def assignment? (line : Text) : Option (Text × Text) :=
  match Text.trim line with
  | [] => none
  | '#' :: _ => none
  | trimmed =>
    (Text.splitFirst '=' trimmed).map fun (name, value) =>
      (Text.trim name, unquote (Text.trim value))

/-- The variables of a settings file. -/
def assignments (file : Text) : List (Text × Text) := (Text.splitLines file).filterMap assignment?

/-- Variables as given values, with their names in lower case. -/
def entries (assignments : List (Text × Text)) : Given.Entries :=
  assignments.foldl (fun es v => Given.Entries.put (Text.lower v.1) (.text v.2) es) []

/-- The values of the settings among variables, under the names of the settings. -/
def chosen (es : Given.Entries) : Given.Entries :=
  names.filterMap fun (name : Text) =>
    (Given.Entries.find? (nameStart ++ name) es).map fun v => (name.wide, v)

/-- The variables of a file that belong to no setting; an empty one is passed over, and so is one
that bears the bare name of a setting. -/
def strangers (es : Given.Entries) : Given.Entries :=
  let known := (names ++ names.map (nameStart ++ ·)).map Text.wide
  es.filter fun
    | (_, .text []) => false
    | (name, _) => !known.contains name

/-- Reads the settings. -/
def check (R : Given.Readers) (es : Given.Entries) : Given.Checked Settings := do
  let indentSize ← Given.field es "indent_size".toList standard.indentSize (R.natural 0)
  let contextLines ← Given.field es "context_lines".toList standard.contextLines (R.natural 0)
  let warnCells ← Given.field es "diff_warn_cells".toList standard.warnCells (R.natural 1)
  let highlightStyle ← Given.field es "highlight_style".toList standard.highlightStyle R.text
  let debug ← Given.field es "debug_mode".toList standard.debug R.truth
  Given.onlyNames es names
  return { indentSize, contextLines, warnCells, highlightStyle, debug }

/-- The settings of an environment and a settings file. -/
def load (R : Given.Readers) (environment : List (Text × Text)) (file : Text) :
    Except (List Given.Problem) Settings :=
  let fromFile := entries (assignments file)
  let values := Given.Entries.overlay (chosen fromFile) (chosen (entries environment))
  (check R (values ++ strangers fromFile)).result

end Settings
end Galley
