/-
# Reports of a line comparison

| layout | what is shown |
| --- | --- |
| unified | changed lines with some unchanged lines around them, `...` for what is left out |
| split | every line in a fenced block behind the old and the new line number |
| inline | every line behind the old line number |

A shown line starts with `+ `, `- ` or two spaces.  Statistics may follow.
-/

import Galley.LineDiff.Record
import Galley.Text.Lines

namespace Galley
namespace LineDiff

/-- The mark before a line. -/
def Fate.mark : Fate → Text
  | .added => ['+', ' ']
  | .removed => ['-', ' ']
  | .unchanged => [' ', ' ']

/-- A line behind its mark. -/
def Record.marked (r : Record) : Text := r.fate.mark ++ r.content

/-- A line number in a column of four characters, empty when there is none. -/
def numberColumn (number : Option Int) : Text :=
  List.leftpad 4 ' ' (number.elim [] Text.ofInt)

/-! ### Changed lines with context -/

/-- What stands for lines that are left out. -/
def gapMark : Text := ['.', '.', '.']

/-- For every record whether a changed one is among it and the `reach` records before it; `since`
is the distance of the record before to the last changed one, if there was one. -/
def nearBehind (reach : Nat) : Option Nat → List Record → List Bool
  | _, [] => []
  | since, r :: rs =>
    let d := if r.isChanged then some 0 else since.map (· + 1)
    d.any (· ≤ reach) :: nearBehind reach d rs

/-- For every record whether it is changed or within `reach` records of a changed one. -/
def visible (reach : Nat) (rs : List Record) : List Bool :=
  List.zipWith (· || ·) (nearBehind reach none rs) (nearBehind reach none rs.reverse).reverse

/-- The visible lines, one gap mark for every run of others; `inGap` says that such a run has been
marked just before. -/
def showVisible (inGap : Bool) : List (Record × Bool) → List Text
  | [] => []
  | (r, true) :: rest => r.marked :: showVisible false rest
  | (_, false) :: rest => (if inGap then [] else [gapMark]) ++ showVisible true rest

/-- The lines of the unified layout, none where nothing changed. -/
def unifiedLines (o : Options) (rs : List Record) : List Text :=
  if rs.any Record.isChanged then showVisible false (rs.zip (visible o.contextLines rs)) else []

/-- The unified layout. -/
def unified (o : Options) (rs : List Record) : Text := Text.unlines (unifiedLines o rs)

/-! ### All lines -/

/-- A line of the split layout. -/
def splitLine (o : Options) (r : Record) : Text :=
  (if o.showLineNumbers then
    numberColumn r.oldLine ++ " | ".toList ++ numberColumn r.newLine ++ " | ".toList
  else []) ++ r.marked

/-- The split layout. -/
def split (o : Options) (rs : List Record) : Text :=
  Text.unlines
      (["```diff".toList, "OLD (Left) | NEW (Right)".toList, List.replicate 40 '-'] ++
        rs.map (splitLine o)) ++
    "```".toList

/-- A line of the inline layout. -/
def inlineLine (o : Options) (r : Record) : Text :=
  (if o.showLineNumbers then numberColumn r.oldLine ++ ": ".toList else []) ++ r.marked

/-- The inline layout. -/
def inline (o : Options) (rs : List Record) : Text := Text.unlines (rs.map (inlineLine o))

/-- The layout of the options. -/
def layOut (o : Options) (rs : List Record) : Text :=
  match o.layout with
  | .unified => unified o rs
  | .split => split o rs
  | .inline => inline o rs

/-! ### Statistics -/

/-- Counts of records.  `modified` is the number of removals that an addition answers. -/
structure Statistics where
  added : Nat
  deleted : Nat
  modified : Nat
  unchanged : Nat
  total : Nat
  similarity : Int
  deriving DecidableEq, Repr

/-- The share of unchanged records in percent, rounded to the nearest, a half upwards; a share
below one hundred is shown as ninety-nine at most. -/
def sharePercent (unchanged total : Int) : Int :=
  if total = 0 then 100
  else
    let percent := Int.fdiv (unchanged * 200 + total) (2 * total)
    if percent = 100 ∧ unchanged < total then 99 else percent

/-- The number of records of some fate. -/
def countOf (fate : Fate) (rs : List Record) : Nat := rs.countP fun r => r.fate == fate

/-- The counts of a list of records. -/
def Statistics.of (rs : List Record) : Statistics :=
  { added := countOf .added rs
    deleted := countOf .removed rs
    modified := min (countOf .added rs) (countOf .removed rs)
    unchanged := countOf .unchanged rs
    total := rs.length
    similarity := sharePercent (countOf .unchanged rs) rs.length }

/-- A label and a number on a line. -/
def Statistics.line (label : Text) (number : Text) : Text := label ++ ": ".toList ++ number ++ ['\n']

/-- The statistics at the end of a report. -/
def Statistics.block (s : Statistics) : Text :=
  "\n\nStatistics:\n".toList ++ List.replicate 20 '=' ++ ['\n'] ++
    Statistics.line "Lines Added".toList (Text.ofNat s.added) ++
    Statistics.line "Lines Deleted".toList (Text.ofNat s.deleted) ++
    Statistics.line "Lines Modified".toList (Text.ofNat s.modified) ++
    Statistics.line "Lines Unchanged".toList (Text.ofNat s.unchanged) ++
    Statistics.line "Similarity".toList (Text.ofInt s.similarity ++ ['%'])

/-- A whole report: a header, the records in the layout of the options, and the statistics if
wanted. -/
def report (o : Options) (rs : List Record) (s : Statistics) : Text :=
  "Diff Comparison (".toList ++ o.layout.name ++ ")\n".toList ++ List.replicate 50 '=' ++ ['\n'] ++
    layOut o rs ++ (if o.showStatistics then s.block else [])

end LineDiff
end Galley
