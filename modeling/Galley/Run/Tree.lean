/-
# File trees

The files that a run can see.  A tree holds entries at locations, which are lists of names from the
top without two dots.  A path is followed name by name, from the top or from the directory that the
program works in, and all names on the way must be those of directories.  A link is followed to
where its own path leads, up to a limit on the number of links.

What a file holds is kept apart from its entry, under a number: two entries with one number are one
file under two names.

Every operation fails like the operations of a file system, with the path that was asked for.
-/

import Galley.Run.Path
import Galley.Text.Quoted
import Galley.Text.Utf8

namespace Galley

/-- What a file holds: any bytes, or a text that a run has written. -/
inductive Content where
  | bytes (bs : List UInt8)
  | text (t : Text)
  deriving DecidableEq, Repr

/-- The bytes of a content. -/
def Content.encode : Content → List UInt8
  | .bytes bs => bs
  | .text t => Utf8.encode t

/-- The text of a content, if it is text. -/
def Content.decode : Content → Except Utf8.Failure Text
  | .bytes bs => Utf8.decode bs
  | .text t => .ok t

/-- What is wrong with a path. -/
inductive FileFault where
  | missing
  | exists
  | notDirectory
  | isDirectory
  | tooManyLinks
  deriving DecidableEq, Repr

/-- A fault and the path that was asked for. -/
structure FileError where
  fault : FileFault
  path : Path
  deriving DecidableEq, Repr

/-- The number and the wording of a fault. -/
def FileFault.message : FileFault → Text
  | .missing => "[Errno 2] No such file or directory".toList
  | .exists => "[Errno 17] File exists".toList
  | .notDirectory => "[Errno 20] Not a directory".toList
  | .isDirectory => "[Errno 21] Is a directory".toList
  | .tooManyLinks => "[Errno 40] Too many levels of symbolic links".toList

/-- The wording of an error. -/
def FileError.message (e : FileError) : Text :=
  e.fault.message ++ ": ".toList ++ WideText.quoted e.path.text

/-- The place of an entry: the names from the top to it. -/
abbrev Location := List Text

/-- A file, by the number of what it holds, a directory, or a link with the path that it bears. -/
inductive Entry where
  | file (node : Nat)
  | directory
  | link (target : Path)
  deriving DecidableEq, Repr

/-- Entries at their locations, what their files hold, and the directory that paths begin in. -/
structure Tree where
  home : Location
  entries : List (Location × Entry)
  contents : Nat → Content

namespace Tree

/-- The tree with nothing in it but the top. -/
def empty : Tree := ⟨[], [], fun _ => .bytes []⟩

/-- The entry at a location; the top is always there. -/
def entry? (t : Tree) (l : Location) : Option Entry :=
  if l = [] then some .directory
  else (t.entries.find? fun e => e.1 == l).map Prod.snd

/-- Puts an entry at a location, in place of the entry there. -/
def put (l : Location) (e : Entry) (t : Tree) : Tree :=
  { t with entries := (t.entries.filter fun f => f.1 != l) ++ [(l, e)] }

/-- Puts a content under a number. -/
def fill (node : Nat) (c : Content) (t : Tree) : Tree :=
  { t with contents := fun n => if n = node then c else t.contents n }

/-- A number that no file has. -/
def fresh (t : Tree) : Nat :=
  (t.entries.map fun
    | (_, .file n) => n + 1
    | _ => 0).foldr max 0

/-- Puts a file of its own at a location. -/
def putFile (l : Location) (c : Content) (t : Tree) : Tree :=
  (t.put l (.file t.fresh)).fill t.fresh c

/-! ### Following paths -/

/-- Where a path begins that is followed from a location, and the names along it. -/
def base (l : Location) (p : Path) : Location × List Text :=
  if p.isAbsolute then ([], p.names.tail) else (l, p.names)

/-- The location that a name leads to from another; above the top is the top. -/
def next (l : Location) (n : Text) : Location := if n = Path.parent then l.dropLast else l ++ [n]

/-- Where names lead: to a location, or to a link in a directory, with names behind it. -/
inductive Way where
  | location (l : Location)
  | link (directory : Location) (target : Path) (rest : List Text)
  deriving DecidableEq, Repr

/-- Goes along names from a location on, up to the first link. -/
def walk (t : Tree) (l : Location) : List Text → Except FileFault Way
  | [] => .ok (.location l)
  | n :: ns =>
    match t.entry? l with
    | some .directory =>
      match t.entry? (next l n) with
      | some (.link target) => .ok (.link l target ns)
      | _ => walk t (next l n) ns
    | some _ => .error .notDirectory
    | none => .error .missing

/-- Follows names from a location on through no more than some number of links. -/
def follow (t : Tree) : Nat → Location → List Text → Except FileFault Location
  | links, l, ns =>
    match t.walk l ns with
    | .error e => .error e
    | .ok (.location m) => .ok m
    | .ok (.link m target rest) =>
      match links with
      | 0 => .error .tooManyLinks
      | links + 1 => follow t links (base m target).1 ((base m target).2 ++ rest)

/-- The greatest number of links on one path. -/
def linkLimit : Nat := 40

/-- The location that a path leads to. -/
def resolve (t : Tree) (p : Path) : Except FileFault Location :=
  t.follow linkLimit (base t.home p).1 (base t.home p).2

/-- The location that a path leads to, or the error with the path. -/
def locate (t : Tree) (p : Path) : Except FileError Location :=
  (t.resolve p).mapError fun f => ⟨f, p⟩

/-- The entry that a path leads to. -/
def at? (t : Tree) (p : Path) : Option Entry :=
  match t.resolve p with
  | .ok l => t.entry? l
  | .error _ => none

/-- Whether a path leads to an entry. -/
def has (t : Tree) (p : Path) : Bool := (t.at? p).isSome

/-! ### Files -/

/-- The content of the file at a path. -/
def read (t : Tree) (p : Path) : Except FileError Content := do
  match t.entry? (← t.locate p) with
  | some (.file n) => .ok (t.contents n)
  | some _ => .error ⟨.isDirectory, p⟩
  | none => .error ⟨.missing, p⟩

/-- The tree in which the file at a path has a content. -/
def write (t : Tree) (p : Path) (c : Content) : Except FileError Tree := do
  let l ← t.locate p
  match t.entry? l with
  | some (.file n) => .ok (t.fill n c)
  | some _ => .error ⟨.isDirectory, p⟩
  | none => .ok (t.putFile l c)

/-- The files of a tree. -/
def files (t : Tree) : List (Location × Content) :=
  t.entries.filterMap fun
    | (l, .file n) => some (l, t.contents n)
    | _ => none

/-! ### Directories -/

/-- Makes one directory, at a path that leads to nothing yet; a link in its place is not
followed. -/
def makeDirectory (t : Tree) (p : Path) : Except FileError Tree :=
  match p.names.getLast?, t.resolve ⟨p.names.dropLast⟩ with
  | none, _ => .error ⟨.exists, p⟩
  | some _, .error f => .error ⟨f, p⟩
  | some n, .ok l =>
    match t.entry? l with
    | none => .error ⟨.missing, p⟩
    | some .directory =>
      if n = Path.top ∨ n = Path.parent ∨ (t.entry? (l ++ [n])).isSome then .error ⟨.exists, p⟩
      else .ok (t.put (l ++ [n]) .directory)
    | some _ => .error ⟨.notDirectory, p⟩

/-- Makes a directory, if there is none. -/
def ensureDirectory (t : Tree) (p : Path) : Except FileError Tree :=
  match t.makeDirectory p with
  | .ok u => .ok u
  | .error e => if e.fault ≠ .missing ∧ t.at? p = some .directory then .ok t else .error e

/-- Makes a directory and those that are missing on the way to it; the names along its path are
given last one first.  The tree is the one that is left, also where a directory cannot be made. -/
def makeWay (t : Tree) : List Text → Except FileError Unit × Tree
  | [] =>
    match t.ensureDirectory ⟨[]⟩ with
    | .ok u => (.ok (), u)
    | .error e => (.error e, t)
  | n :: before =>
    let p : Path := ⟨(n :: before).reverse⟩
    match t.ensureDirectory p with
    | .ok u => (.ok (), u)
    | .error e =>
      if e.fault = .missing then
        match makeWay t before with
        | (.error e, u) => (.error e, u)
        | (.ok (), u) =>
          match u.ensureDirectory p with
          | .ok v => (.ok (), v)
          | .error e => (.error e, u)
      else (.error e, t)

/-- Makes a path one of directories. -/
def makeDirectories (t : Tree) (p : Path) : Except FileError Unit × Tree :=
  t.makeWay p.names.reverse

end Tree
end Galley
