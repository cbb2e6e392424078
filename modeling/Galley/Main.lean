/-
# The program

`galley INPUTDIR OUTPUTDIR --inputFile NAME [options]` carries out a request on the files of the
computer: the entries that the request names are put into a tree, the run works on the tree, and
the files that it wrote are put back.
-/

import Galley.Run.Arguments
import Galley.Run.Session
import Galley.Run.Standard

namespace Galley
namespace Program

/-- How to call the program. -/
def usage : String := "usage: galley INPUTDIR OUTPUTDIR --inputFile NAME [options]"

/-- The text of a location for the computer. -/
def place (l : Location) : String := String.ofList (Path.text ⟨Path.top :: l⟩)

/-- The location of a path from the top. -/
def locationOf (path : String) : Location := (Path.ofText path.toList).names.tail

/-- The beginnings of a list of names, the shortest first. -/
def beginnings (names : List Text) : List (List Text) :=
  (List.range (names.length + 1)).map names.take

/-- Puts the entry at a location, on the way to which are no links, into a tree. -/
def loadReal (t : Tree) (l : Location) : IO Tree :=
  ((beginnings l).filter fun m => (t.entry? m).isNone).foldlM (fun t m => do
    if ← (← IO.FS.realPath (place m)).isDir then return t.put m .directory
    let bytes ← IO.FS.readBinFile (place m)
    return t.putFile m (.bytes bytes.toList)) t

/-- Puts the entry at a location into a tree, if there is one.  What is really elsewhere is a link. -/
def load (t : Tree) (l : Location) : IO Tree := do
  try
    let real := locationOf (← IO.FS.realPath (place l)).toString
    let t ← loadReal t real
    return if real = l then t else t.put l (.link ⟨Path.top :: real⟩)
  catch _ => return t

/-- Puts the entries on the way along a path into a tree. -/
def loadAlong (t : Tree) (p : Path) : IO Tree :=
  (beginnings p.names).foldlM (fun t names =>
    match t.resolve ⟨names⟩ with
    | .ok l => if (t.entry? l).isSome then pure t else load t l
    | .error _ => pure t) t

/-- The paths that a request names. -/
def pathsOf (r : Request) : List Path :=
  let output := r.outputDir.append (.ofText r.outputName)
  [r.inputDir.append (.ofText r.inputFile), r.outputDir, output, output.withEnding ".html".toList] ++
    (r.compareFile.toList ++ r.presetFile.toList).map fun n => r.inputDir.append (.ofText n)

/-- Puts the files that a run has written back, and the output directory. -/
def save (r : Request) (t : Tree) : IO Unit := do
  if t.has r.outputDir then IO.FS.createDirAll (String.ofList r.outputDir.text)
  for (l, c) in t.files do
    match c with
    | .bytes _ => pure ()
    | c => IO.FS.writeBinFile (place l) (ByteArray.mk c.encode.toArray)

/-- The settings of the environment and of the file `.env`. -/
def settings : IO (Except (List Given.Problem) Settings) := do
  let assignments ← (Settings.names.map (Settings.nameStart ++ ·)).filterMapM fun name => do
    let small := String.ofList name
    let value := (← IO.getEnv small.toUpper).or (← IO.getEnv small)
    return value.map fun v => (name, v.toList)
  let file ← try IO.FS.readFile ".env" catch _ => pure ""
  return Settings.load Libraries.standard.readers assignments file.toList

/-- Writes a text as a line for messages. -/
def say (t : Text) : IO Unit := IO.eprintln (String.ofList t)

/-- Carries out a request; the result is the exit code. -/
def carryOut (s : Settings) (r : Request) : IO UInt32 := do
  let home := locationOf (← IO.FS.realPath ".").toString
  let t ← (pathsOf r).foldlM loadAlong (← loadReal { Tree.empty with home } home)
  let e := (r.carryOut Libraries.standard s).start t
  for (label, message) in Log.shown r.verbosity e.log do
    say (label.name ++ [' '] ++ message)
  save r e.tree
  match e.result with
  | .ok _ => return 0
  | .error (.reported message) =>
    say message
    return 1
  | .error (.broken b) =>
    say b.message
    return 1

end Program
end Galley

open Galley in
/-- Runs the program. -/
def main (args : List String) : IO UInt32 := do
  match args with
  | inputDir :: outputDir :: options =>
    let wish := Arguments.parse (.ofText inputDir.toList) (.ofText outputDir.toList)
      (options.map String.toList)
    match wish with
    | .error _ =>
      IO.eprintln Program.usage
      return 2
    | .ok .information =>
      IO.println Program.usage
      return 0
    | .ok (.run r) =>
      match ← Program.settings with
      | .error _ =>
        IO.eprintln "The settings are not valid."
        return 1
      | .ok s => Program.carryOut s r
  | _ =>
    IO.eprintln Program.usage
    return 2
