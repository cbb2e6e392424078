/-
# Differences of two documents

Two documents are walked at once, objects by key and arrays by index.  A change has a path, which
names keys after dots and indices in brackets; the path of the document itself is empty.  Values
of different types, arrays of different lengths and unequal scalars are changes; what is in one
document only is added or removed.
-/

import Galley.Json.Encode
import Galley.Text.Quoted

namespace Galley
namespace Json

/-- The kinds of changes. -/
inductive ChangeKind where
  | added
  | removed
  | changed
  | typeChanged
  | lengthChanged
  deriving DecidableEq, Repr

/-- A change at a path.  Where the types differ `old` and `new` are their names, where lengths
differ they are the lengths, and a value that is not there is null. -/
structure Change where
  path : WideText
  kind : ChangeKind
  old : Json
  new : Json

namespace Path

/-- The path of an item. -/
def item (path : WideText) (index : Nat) : WideText :=
  path ++ Text.wide (['['] ++ Text.ofNat index ++ [']'])

/-- The path of a member; no dot comes before the first key. -/
def member (path key : WideText) : WideText :=
  if path.isEmpty then key else path ++ [.char '.'] ++ key

end Path

/-- The change of a type. -/
def typeChange (path : WideText) (old new : Json) : Change :=
  ⟨path, .typeChanged, .text old.kind.name.wide, .text new.kind.name.wide⟩

/-- The change of a length, if there is one. -/
def lengthChange (path : WideText) (old new : Nat) : List Change :=
  if old = new then [] else [⟨path, .lengthChanged, .int old, .int new⟩]

/-- The items of the new array that have no counterpart. -/
def addedItems (path : WideText) (index : Nat) : List Json → List Change
  | [] => []
  | v :: vs => ⟨Path.item path index, .added, .null, v⟩ :: addedItems path (index + 1) vs

/-- The members of the new object that have no counterpart. -/
def addedMembers (path : WideText) (old new : List (WideText × Json)) : List Change :=
  (new.filter fun m => (find? m.1 old).isNone).map fun m =>
    ⟨Path.member path m.1, .added, .null, m.2⟩

mutual
/-- The changes from an old value to a new one at a path. -/
def differences (path : WideText) : Json → Json → List Change
  | .array xs, new =>
    match new with
    | .array ys => lengthChange path xs.length ys.length ++ itemDifferences path 0 xs ys
    | _ => [typeChange path (.array xs) new]
  | .object ms, new =>
    match new with
    | .object ns => memberDifferences path ms ns ++ addedMembers path ms ns
    | _ => [typeChange path (.object ms) new]
  | old, new =>
    if old.kind = new.kind then
      if sameScalar old new then [] else [⟨path, .changed, old, new⟩]
    else [typeChange path old new]

/-- The changes of the items from an index on. -/
def itemDifferences (path : WideText) (index : Nat) : List Json → List Json → List Change
  | [], ys => addedItems path index ys
  | x :: xs, [] =>
    ⟨Path.item path index, .removed, x, .null⟩ :: itemDifferences path (index + 1) xs []
  | x :: xs, y :: ys =>
    differences (Path.item path index) x y ++ itemDifferences path (index + 1) xs ys

/-- The changes of the members of the old object. -/
def memberDifferences (path : WideText) : List (WideText × Json) → List (WideText × Json) → List Change
  | [], _ => []
  | (k, v) :: ms, ns =>
    (match find? k ns with
      | none => [⟨Path.member path k, .removed, v, .null⟩]
      | some w => differences (Path.member path k) v w) ++ memberDifferences path ms ns
end

mutual
/-- A value in words, as it stands inside another: texts in quotes. -/
def inWords : Json → Text
  | .null => "None".toList
  | .bool true => "True".toList
  | .bool false => "False".toList
  | .int i => Text.ofInt i
  | .float x => Numerals.message.write x
  | .text t => t.quoted
  | .array items => ['['] ++ itemsInWords items ++ [']']
  | .object members => ['{'] ++ membersInWords members ++ ['}']

/-- Items in words. -/
def itemsInWords : List Json → Text
  | [] => []
  | [v] => inWords v
  | v :: vs => inWords v ++ [',', ' '] ++ itemsInWords vs

/-- Members in words. -/
def membersInWords : List (WideText × Json) → Text
  | [] => []
  | [(k, v)] => k.quoted ++ [':', ' '] ++ inWords v
  | (k, v) :: ms => k.quoted ++ [':', ' '] ++ inWords v ++ [',', ' '] ++ membersInWords ms
end

/-- A value inside a sentence: a text is bare. -/
def bare : Json → WideText
  | .text t => t
  | v => inWords v

/-- A change on one line. -/
def Change.describe (c : Change) : WideText :=
  let place : WideText := if c.path.isEmpty then "(root)".toList else c.path
  let fromTo (write : Json → WideText) : WideText :=
    " from ".toList ++ write c.old ++ " to ".toList ++ write c.new
  place ++ match c.kind with
    | .added => ": Added".toList
    | .removed => ": Removed".toList
    | .typeChanged => ": Type changed".toList ++ fromTo bare
    | .lengthChanged => ": Array length changed".toList ++ fromTo bare
    | .changed => ": Changed".toList ++ fromTo compact

/-- The lines about the changes, or the statement that there are none. -/
def changeLines (changes : List Change) : List WideText :=
  if changes.isEmpty then ["No structural differences".toList] else changes.map Change.describe

/-- The report of a comparison: both documents and the changes between them. -/
def comparisonReport (old new : Json) (changes : List Change) : WideText :=
  "JSON Comparison:\nOLD JSON:\n".toList ++ report old ++ "\n\nNEW JSON:\n".toList ++ report new ++
    "\n\nStructural Differences:\n".toList ++ WideText.unlines (changeLines changes)

end Json
end Galley
