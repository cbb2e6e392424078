/-
# Paths

A path is a list of names, from the working directory to a file.  An absolute path begins with the
name `/`.  Empty names and single dots are left out; two dots are kept, since what they mean
depends on the directories.
-/

import Galley.Text.Basic

namespace Galley

/-- A path. -/
structure Path where
  names : List Text
  deriving DecidableEq, Repr

namespace Path

/-- The name that an absolute path begins with. -/
def top : Text := ['/']

/-- The name of the directory around. -/
def parent : Text := ['.', '.']

/-- The path that a text denotes. -/
def ofText (t : Text) : Path :=
  ⟨(if t.head? == some '/' then [top] else []) ++
    (Text.splitAll '/' t).filter fun n => !(n.isEmpty || n == ['.'])⟩

/-- Whether a path begins at the top. -/
def isAbsolute (p : Path) : Bool := p.names.head? == some top

/-- The text of a path. -/
def text (p : Path) : Text :=
  match p.names with
  | [] => ['.']
  | n :: ns => if n = top then top ++ Text.join ['/'] ns else Text.join ['/'] (n :: ns)

/-- The path `q` as seen from the directory `p`. -/
def append (p q : Path) : Path := if q.isAbsolute then q else ⟨p.names ++ q.names⟩

/-- The last name. -/
def name (p : Path) : Text :=
  match p.names.getLast? with
  | some n => if n = top then [] else n
  | none => []

/-- The last name without its extension.  An extension begins at the last dot, if that is neither
the first nor the last character. -/
def stem (p : Path) : Text :=
  let body := (p.name.reverse.dropWhile (· != '.')).tail.reverse
  if body.isEmpty || p.name.getLast? == some '.' then p.name else body

/-- The path with more text at the end of its last name. -/
def withEnding (p : Path) (ending : Text) : Path := ⟨p.names.dropLast ++ [p.name ++ ending]⟩

end Path
end Galley
