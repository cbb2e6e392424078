/-
# Records of a line comparison

A comparison lists every line of two texts once: lines in both texts as unchanged, lines of the
old text only as removed, lines of the new text only as added.  The common lines are those of a
longest common subsequence of the keys, found again from left to right; between two of them the
removals come before the additions.
-/

import Galley.LineDiff.Options
import Galley.LineDiff.Subsequence
import Galley.Log

namespace Galley
namespace LineDiff

/-- What became of a line. -/
inductive Fate where
  | added
  | removed
  | unchanged
  deriving DecidableEq, Repr

/-- A line with what became of it.  The content of an unchanged line is that of the old text;
`newContent` is then the line of the new text, which may differ where differences are ignored.
Line numbers count from one. -/
structure Record where
  fate : Fate
  content : Text
  oldLine : Option Int
  newLine : Option Int
  newContent : Option Text
  deriving DecidableEq, Repr

namespace Record

/-- The record of a line in both texts. -/
def unchanged (oldLine newLine : Int) (content newContent : Text) : Record :=
  ⟨.unchanged, content, some oldLine, some newLine, some newContent⟩

/-- The record of a line of the old text. -/
def removed (oldLine : Int) (content : Text) : Record :=
  ⟨.removed, content, some oldLine, none, none⟩

/-- The record of a line of the new text. -/
def added (newLine : Int) (content : Text) : Record :=
  ⟨.added, content, none, some newLine, none⟩

/-- The line of the new text that a record stands for. -/
def newText (r : Record) : Text := r.newContent.getD r.content

/-- Whether the line is not in both texts. -/
def isChanged (r : Record) : Bool := r.fate != .unchanged

end Record

/-- A line and its key. -/
structure KeyedLine where
  text : Text
  key : Text

/-- Walks over the old lines, the new lines and the common keys at once.  A pair of lines with the
next common key is unchanged; an old line with another key is removed; else a new line is added.
When the common keys run out the old lines are removed and then the new ones added.  There are no
records where a new line is wanted and none is left. -/
def walk (oldLine newLine : Int) :
    List KeyedLine → List KeyedLine → List Text → Option (List Record)
  | [], [], _ => some []
  | o :: os, ns, [] => (walk (oldLine + 1) newLine os ns []).map (.removed oldLine o.text :: ·)
  | [], n :: ns, ks => (walk oldLine (newLine + 1) [] ns ks).map (.added newLine n.text :: ·)
  | o :: os, [], k :: ks =>
    if o.key = k then none
    else (walk (oldLine + 1) newLine os [] (k :: ks)).map (.removed oldLine o.text :: ·)
  | o :: os, n :: ns, k :: ks =>
    if o.key = k then
      if n.key = k then
        (walk (oldLine + 1) (newLine + 1) os ns ks).map
          (.unchanged oldLine newLine o.text n.text :: ·)
      else
        (walk oldLine (newLine + 1) (o :: os) ns (k :: ks)).map (.added newLine n.text :: ·)
    else
      (walk (oldLine + 1) newLine os (n :: ns) (k :: ks)).map (.removed oldLine o.text :: ·)
termination_by old new => old.length + new.length

/-- Lines with their keys. -/
def keyed (key : Text → Text) (lines : List Text) : List KeyedLine :=
  lines.map fun line => ⟨line, key line⟩

/-- The records of two lists of lines with given common keys, if the walk has any. -/
def recordsWith? (key : Text → Text) (old new : List Text) (shared : List Text) :
    Option (List Record) :=
  walk 1 1 (keyed key old) (keyed key new) shared

/-- The records of two lists of lines, if the walk along their common keys has any. -/
def records? (o : Options) (old new : List Text) : Option (List Record) :=
  recordsWith? o.key old new (common (old.map o.key) (new.map o.key))

/-- The records of two lists of lines with given common keys. -/
def recordsWith (key : Text → Text) (old new : List Text) (shared : List Text) : List Record :=
  (recordsWith? key old new shared).getD []

/-- The records of two lists of lines. -/
def records (o : Options) (old new : List Text) : List Record :=
  recordsWith o.key old new (common (old.map o.key) (new.map o.key))

/-- A longest common subsequence, with a warning when its table has more than `limit` cells. -/
def commonLogged (limit : Int) (a b : List Text) : Logged (List Text) := do
  let size := Text.ofNat a.length ++ " x ".toList ++ Text.ofNat b.length ++ " lines".toList
  if limit < a.length * b.length then
    .warn ("Diff table has ".toList ++ Text.ofNat (a.length * b.length) ++ " cells (".toList ++
      size ++ "); this may be slow".toList)
  let shared := common a b
  .note 3 ("LCS length ".toList ++ Text.ofNat shared.length ++ " for ".toList ++ size)
  return shared

/-- The records of two lists of lines, with the log of finding what they have in common. -/
def recordsLogged (limit : Int) (o : Options) (old new : List Text) : Logged (List Record) := do
  return recordsWith o.key old new (← commonLogged limit (old.map o.key) (new.map o.key))

@[simp] theorem value_commonLogged (limit : Int) (a b : List Text) :
    (commonLogged limit a b).value = common a b := by
  unfold commonLogged
  split <;> rfl

/-- Logging does not change the records. -/
theorem value_recordsLogged (limit : Int) (o : Options) (old new : List Text) :
    (recordsLogged limit o old new).value = records o old new := by
  simp [recordsLogged, records]

end LineDiff
end Galley
