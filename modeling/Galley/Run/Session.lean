/-
# A run

A run goes through five stages.

| stage | does |
| --- | --- |
| `locate` | finds the files and makes the output directory |
| `readSources` | reads the texts |
| `applyTool` | puts the options together and runs the tool |
| `writeOutput` | writes the output, and a page of it if that is wanted |
| `summarize` | says what came of it |

The first three stages write no files.  A stage that cannot go on stops the run, with a message or
with a breakdown; what the tree holds by then stays.
-/

import Galley.LineDiff.Compare
import Galley.Run.Libraries
import Galley.Run.Request
import Galley.Stylesheet.Format

namespace Galley

/-- Why a run stops early. -/
inductive Stop where
  | reported (message : Text)
  | broken (b : Breakdown)
  deriving DecidableEq, Repr

/-- A part of a run: it reads and changes the tree, writes to the log and may stop. -/
abbrev Session := ExceptT Stop (StateT Tree Logged)

namespace Session

/-- Writes a note. -/
def note (level : Int) (message : Text) : Session Unit :=
  ExceptT.lift (StateT.lift (Logged.note level message))

/-- Writes a warning. -/
def warn (message : Text) : Session Unit := ExceptT.lift (StateT.lift (Logged.warn message))

/-- A computation that only writes to the log. -/
def logged {α : Type} (x : Logged α) : Session α := ExceptT.lift (StateT.lift x)

/-- Stops with a message. -/
def refuse {α : Type} (message : Text) : Session α := throw (.reported message)

/-- The tree as it is. -/
def tree : Session Tree := ExceptT.lift get

/-- Puts a tree in place of the one there. -/
def setTree (t : Tree) : Session Unit := ExceptT.lift (set t)

/-- The result of an operation, or a stop that its error leads to. -/
def orStop {ε α : Type} (stop : ε → Stop) : Except ε α → Session α
  | .ok a => pure a
  | .error e => throw (stop e)

/-- What is said of a run and what it leaves in the tree. -/
structure Ending (α : Type) where
  result : Except Stop α
  tree : Tree
  log : List Log.Entry

/-- Runs a part from a tree on. -/
def start {α : Type} (x : Session α) (t : Tree) : Ending α :=
  let r := (x.run).run t
  ⟨r.value.1, r.value.2, r.log⟩

end Session

open Session

/-- The title, shown to the curious. -/
def banner : Text := Text.join ['\n'] [
  [],
  "   __                           _   _           _".toList,
  "  / _| ___  _ __ _ __ ___   __ _| |_| |__  _   _| |__".toList,
  " | |_ / _ \\| '__| '_ ` _ \\ / _` | __| '_ \\| | | | '_ \\".toList,
  " |  _| (_) | |  | | | | | | (_| | |_| | | | |_| | |_) |".toList,
  " |_|  \\___/|_|  |_| |_| |_|\\__,_|\\__|_| |_|\\__,_|_.__/".toList,
  [],
  "  CSS beautifier/minifier and line diff checker".toList,
  []]

/-- The paths of a run. -/
structure Located where
  input : Path
  compare : Option Path
  output : Path
  deriving DecidableEq, Repr

/-- The text that a path is compared with, if the tool compares. -/
def locateOther (r : Request) : Session (Option Path) := do
  if r.tool = Request.comparisonTool then
    match r.compareFile with
    | none | some [] => refuse "Error: --tool diff requires --compareFile".toList
    | some name =>
      let other := r.inputDir.append (.ofText name)
      if (← tree).has other then
        note 2 ("Compare file: ".toList ++ other.text)
        return some other
      else refuse ("Error: Compare file not found: ".toList ++ other.text)
  else return none

/-- Finds the files of a run and makes the output directory. -/
def locate (r : Request) : Session Located := do
  if 2 ≤ r.verbosity then note 2 banner
  note 2 "Checking environment...".toList
  let input := r.inputDir.append (.ofText r.inputFile)
  if !(← tree).has input then refuse ("Error: Input file not found: ".toList ++ input.text)
  note 2 ("Input file: ".toList ++ input.text)
  let compare ← locateOther r
  let (made, t) := (← tree).makeDirectories r.outputDir
  setTree t
  orStop (fun e => .broken (.file e)) made
  let output := r.outputDir.append (.ofText r.outputName)
  note 2 ("Output file: ".toList ++ output.text)
  return ⟨input, compare, output⟩

/-- The text of the file at a path, with line feeds for all line ends. -/
def Tree.readText (t : Tree) (p : Path) : Except Breakdown Text := do
  let c ← (t.read p).mapError .file
  let text ← (c.decode).mapError .undecodable
  return Text.unifyLineEnds text

/-- Reads a text and notes its length. -/
def readSource (p : Path) : Session Text := do
  let text ← orStop (fun b => .reported ("Error reading input file: ".toList ++ b.message))
    ((← tree).readText p)
  note 2 ("Read ".toList ++ Text.ofNat text.length ++ " characters from ".toList ++ p.name)
  return text

/-- The texts of a run; the second one is empty where nothing is compared. -/
structure Sources where
  input : Text
  compare : Text
  deriving DecidableEq, Repr

/-- Reads the texts of a run. -/
def readSources (l : Located) : Session Sources := do
  note 1 "Reading input...".toList
  let input ← readSource l.input
  match l.compare with
  | none => return ⟨input, []⟩
  | some p => return ⟨input, ← readSource p⟩

/-- What a tool has made. -/
inductive Product where
  | stylesheet (f : Stylesheet.Formatted)
  | comparison (c : LineDiff.Comparison)

/-- The text of a product. -/
def Product.output : Product → WideText
  | .stylesheet f => f.output
  | .comparison c => c.output

/-- What an option failure stops a run with. -/
def Preset.Failure.stop : Preset.Failure → Stop
  | .fault f => .reported ("Preset error: ".toList ++ f.message.printed)
  | .breakdown b => .broken b

/-- What a failure of a tool stops a run with. -/
def toolStop (message : Text) : Stop := .reported ("Error: ".toList ++ message)

/-- The path of the preset, if one is wanted. -/
def Request.presetPath (r : Request) : Option Path :=
  match r.presetFile with
  | none | some [] => none
  | some name => some (r.inputDir.append (.ofText name))

/-- Formats a stylesheet and warns about its issues, the errors first. -/
def formatStylesheet (s : Settings) (o : Stylesheet.Options) (source : Text) : Session Product := do
  note 1 ("Processing stylesheet (".toList ++ o.mode.name ++ ")...".toList)
  let f ← orStop (fun e => toolStop (Stylesheet.FormatError.message e))
    (← logged (Stylesheet.format o s.debug source))
  for i in f.statistics.errors ++ f.statistics.warnings do
    warn i.describe
  return .stylesheet f

/-- Compares two texts. -/
def compareTexts (s : Settings) (o : LineDiff.Options) (t : Sources) : Session Product := do
  note 1 ("Comparing files (".toList ++ o.subject.name ++ ", ".toList ++ o.layout.name ++
    ")...".toList)
  let c ← orStop (fun e => toolStop (LineDiff.CompareError.message e))
    (← logged (LineDiff.compare o s.warnCells t.input t.compare))
  return .comparison c

/-- Puts the options together and runs the tool. -/
def applyTool (lib : Libraries) (s : Settings) (r : Request) (t : Sources) : Session Product := do
  let preset ← orStop Preset.Failure.stop (Preset.load lib.load (← tree) r.presetPath)
  if r.tool = Request.stylesheetTool then
    let o ← orStop Preset.Failure.stop
      (preset.stylesheetOptions lib.readers s r.stylesheetOverrides)
    formatStylesheet s o t.input
  else
    let o ← orStop Preset.Failure.stop
      (preset.comparisonOptions lib.readers s r.comparisonOverrides)
    compareTexts s o t

/-- The name of the language in which the page of a product is highlighted. -/
def Product.language : Product → Text
  | .stylesheet _ => "css".toList
  | .comparison (.lines _ _ _) => "diff".toList
  | .comparison (.documents _ _) => "text".toList

/-- What a failure to write stops a run with. -/
def writeStop (message : Text) : Stop := .reported ("Error writing output: ".toList ++ message)

/-- Writes a file. -/
def writeFile (p : Path) (t : Text) : Session Unit := do
  setTree (← orStop (fun e => writeStop (FileError.message e)) ((← tree).write p (.text t)))
  note 2 ("Wrote ".toList ++ p.text)

/-- Writes the text of a product.  If it cannot be encoded, the file is left empty. -/
def writeProduct (p : Path) (product : Product) : Session Text := do
  match product.output.narrow? with
  | some t =>
    writeFile p t
    return t
  | none =>
    setTree (← orStop (fun e => writeStop (FileError.message e)) ((← tree).write p (.text [])))
    throw (writeStop (Utf8.encodeMessage product.output))

/-- Writes the output, and a page of it if that is wanted; the result is the paths written. -/
def writeOutput (lib : Libraries) (s : Settings) (r : Request) (l : Located) (product : Product) :
    Session (List Path) := do
  let t ← writeProduct l.output product
  if r.html then
    let path := l.output.withEnding ".html".toList
    let page ← orStop writeStop
      (lib.highlight (.ofName product.language) s.highlightStyle r.inputFile t)
    writeFile path page
    return [l.output, path]
  else return [l.output]

/-- The lines about a product at the end of a run. -/
def Product.summary : Product → List Text
  | .stylesheet f =>
    let s := f.statistics
    let percent := (s.ratio.scaleBy 100).roundToInt
    [ "  Rules: ".toList ++ Text.ofNat s.tally.rules ++ ", declarations: ".toList ++
        Text.ofNat s.tally.declarations,
      "  Size: ".toList ++ Text.ofNat s.sourceSize ++ " -> ".toList ++
        Text.ofNat s.outputSize ++ " bytes (".toList ++ Text.ofInt percent ++ "%)".toList,
      "  Issues: ".toList ++ Text.ofNat s.errors.length ++ " errors, ".toList ++
        Text.ofNat s.warnings.length ++ " warnings".toList]
  | .comparison (.lines _ s _) =>
    ["  +".toList ++ Text.ofNat s.added ++ " -".toList ++ Text.ofNat s.deleted ++ " =".toList ++
      Text.ofNat s.unchanged ++ " (similarity ".toList ++ Text.ofInt s.similarity ++ "%)".toList]
  | .comparison (.documents _ changes) =>
    ["  Structural differences: ".toList ++ Text.ofNat changes.length]

/-- Says what came of a run. -/
def summarize (written : List Path) (product : Product) : Session Unit := do
  note 1 "\n✓ Done!".toList
  for p in written do
    note 1 ("  Output: ".toList ++ p.text)
  for line in product.summary do
    note 1 line

/-- What a run has located, made and written. -/
structure Accomplished where
  located : Located
  product : Product
  written : List Path

/-- The stages that write no files. -/
def prepare (lib : Libraries) (s : Settings) (r : Request) : Session (Located × Product) := do
  let l ← locate r
  let t ← readSources l
  return (l, ← applyTool lib s r t)

/-- All stages of a run. -/
def Request.carryOut (lib : Libraries) (s : Settings) (r : Request) : Session Accomplished := do
  let (l, product) ← prepare lib s r
  let written ← writeOutput lib s r l product
  summarize written product
  return ⟨l, product, written⟩

end Galley
