/-
# Presets

A preset is a YAML file of options, with a section for either tool.

```yaml
css:
  indent_type: tabs
diff:
  context_lines: 5
```

An absent or empty section holds no options.  The options of a run are put together from the
settings, the section of the preset and the overrides, the later ones winning, and only the
winning values are checked.

What the file of a preset denotes is read by a library (`Preset.Loader`): a value of any shape, or
an error.

`Preset.Fault` is what a preset is blamed for.  `Breakdown` is trouble of other kinds, about which
a preset is not blamed.
-/

import Galley.Given.Records
import Galley.Given.Settings
import Galley.Run.Tree

namespace Galley

/-- Trouble that a run does not expect. -/
inductive Breakdown where
  | undecodable (failure : Utf8.Failure)
  | file (e : FileError)
  | library (message : Text)
  | sectionNameNotText (name : Given.Atom)
  | optionNameNotText
  deriving DecidableEq, Repr

/-- The wording of a breakdown. -/
def Breakdown.message : Breakdown → Text
  | .undecodable f => f.message
  | .file e => e.message
  | .library message => message
  | .sectionNameNotText a =>
    "sequence item 0: expected str instance, ".toList ++ a.typeName ++ " found".toList
  | .optionNameNotText => "keywords must be strings".toList

namespace Preset

/-- The sections of a preset. -/
inductive Part where
  | stylesheet
  | comparison
  deriving DecidableEq, Repr

/-- The name of a section. -/
def Part.name : Part → Text
  | .stylesheet => "css".toList
  | .comparison => "diff".toList

/-- The name of the record of options that a section is for. -/
def Part.record : Part → Text
  | .stylesheet => "CssConfig".toList
  | .comparison => "DiffConfig".toList

/-- What a preset is blamed for. -/
inductive Fault where
  | notFound (path : Path)
  | unparsable (name : Text)
  | notMapping (name : Text)
  | unknownSections (names : List WideText)
  | sectionNotMapping (part : Part)
  | invalidOptions (part : Part) (problems : List Given.Problem)
  deriving DecidableEq, Repr

/-- The wording of a fault, on one line. -/
def Fault.message : Fault → WideText
  | .notFound p => "Preset file not found: ".toList ++ p.text
  | .unparsable n => "Failed to parse preset ".toList ++ n
  | .notMapping n => "Preset ".toList ++ n ++ " must be a mapping of tool sections".toList
  | .unknownSections ns =>
    "Unknown preset sections: ".toList ++ (Text.wide [',', ' ']).intercalate ns
  | .sectionNotMapping s => "Preset section '".toList ++ s.name ++ "' must be a mapping".toList
  | .invalidOptions s ps =>
    "Invalid ".toList ++ s.name ++ " options: ".toList ++ Text.ofNat ps.length ++
      (if ps.length = 1 then " validation error for ".toList
       else " validation errors for ".toList) ++ s.record

/-- Why no options come from a preset. -/
inductive Failure where
  | fault (f : Fault)
  | breakdown (b : Breakdown)
  deriving DecidableEq, Repr

/-- The options of a section under their names. -/
abbrev Options := List (Given.Atom × Given)

/-- Why a library does not read the file of a preset: it is not well-formed, or there is trouble. -/
inductive LoadError where
  | unparsable
  | broken (b : Breakdown)
  deriving DecidableEq, Repr

/-- What reads the file of a preset. -/
abbrev Loader := Content → Except LoadError Given

end Preset

/-- A preset: the options of both sections. -/
structure Preset where
  stylesheet : Preset.Options
  comparison : Preset.Options

namespace Preset

/-- The preset without options. -/
def empty : Preset := ⟨[], []⟩

/-- Whether a key names a section. -/
def isSection (key : Given.Atom) : Bool :=
  key == .text Part.stylesheet.name || key == .text Part.comparison.name

/-- The complaint about keys that name no section.  Texts are listed in order. -/
def unknownSections (keys : List Given.Atom) : Failure :=
  match keys.find? fun k => k.typeName != "str".toList with
  | some k => .breakdown (.sectionNameNotText k)
  | none =>
    .fault (.unknownSections ((keys.filterMap fun k =>
      match k with
      | .text t => some t
      | _ => none).mergeSort WideText.le))

/-- The options of a section; null means that there are none. -/
def optionsOf? : Given → Option Options
  | .mapping os => some os
  | .null => some []
  | _ => none

/-- Puts the sections of a mapping into a preset one after the other. -/
def addSections (p : Preset) : List (Given.Atom × Given) → Except Failure Preset
  | [] => .ok p
  | (k, v) :: more =>
    let part := if k = .text Part.comparison.name then Part.comparison else .stylesheet
    match optionsOf? v, part with
    | none, _ => .error (.fault (.sectionNotMapping part))
    | some os, .stylesheet => addSections { p with stylesheet := os } more
    | some os, .comparison => addSections { p with comparison := os } more

/-- The preset that a document denotes; `name` is the name of its file. -/
def ofValue (name : Text) : Given → Except Failure Preset
  | .null => .ok empty
  | .mapping ps =>
    let unknown := (ps.map Prod.fst).filter fun k => !isSection k
    if unknown.isEmpty then addSections empty ps else .error (unknownSections unknown)
  | _ => .error (.fault (.notMapping name))

/-- The preset of a file's content. -/
def ofContent (load : Loader) (name : Text) (c : Content) : Except Failure Preset :=
  match load c with
  | .error .unparsable => .error (.fault (.unparsable name))
  | .error (.broken b) => .error (.breakdown b)
  | .ok v => ofValue name v

/-- The preset in the file at a path, or the empty preset where no path is given. -/
def load (L : Loader) (t : Tree) : Option Path → Except Failure Preset
  | none => .ok empty
  | some p =>
    if t.has p then
      match t.read p with
      | .error e => .error (.breakdown (.file e))
      | .ok c => ofContent L p.name c
    else .error (.fault (.notFound p))

/-- A preset and its path in words. -/
def describe (p : Option Path) : Text :=
  "Preset(path='".toList ++ p.elim "None".toList Path.text ++ "')".toList

/-! ### Options of a run -/

/-- Options whose names are all texts. -/
def named? : Options → Option Given.Entries
  | [] => some []
  | (.text n, v) :: os => (named? os).map fun es => (n, v) :: es
  | _ :: _ => none

/-- The winning values among settings, a section and overrides. -/
def combine (settings : Given.Entries) (options : Options) (overrides : Given.Entries) :
    Except Failure Given.Entries :=
  match named? options with
  | none => .error (.breakdown .optionNameNotText)
  | some es => .ok ((settings.overlay es).overlay overrides)

/-- The values of the settings that are options of a section. -/
def defaults (s : Settings) : Part → Given.Entries
  | .stylesheet => [("indent_size".toList, .int s.indentSize)]
  | .comparison => [("context_lines".toList, .int s.contextLines)]

/-- A record of options with its problems blamed on a section. -/
def blame {α : Type} (part : Part) (r : Except (List Given.Problem) α) : Except Failure α :=
  r.mapError fun ps => .fault (.invalidOptions part ps)

/-- The options for formatting a stylesheet. -/
def stylesheetOptions (R : Given.Readers) (p : Preset) (s : Settings) (overrides : Given.Entries) :
    Except Failure Stylesheet.Options := do
  let values ← combine (defaults s .stylesheet) p.stylesheet overrides
  blame .stylesheet (Stylesheet.Options.ofGiven R values)

/-- The options for comparing two texts. -/
def comparisonOptions (R : Given.Readers) (p : Preset) (s : Settings) (overrides : Given.Entries) :
    Except Failure LineDiff.Options := do
  let values ← combine (defaults s .comparison) p.comparison overrides
  blame .comparison (LineDiff.Options.ofGiven R values)

end Preset
end Galley
