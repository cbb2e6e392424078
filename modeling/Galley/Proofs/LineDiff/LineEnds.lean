/-
# Line ends do not matter

Two texts are compared by their lines, and a comparison sees nothing else of them
(`compare_of_splitLines_eq`): that a text is empty shows in its lines too.  So it is all the same
for a comparison by lines how the lines of the two texts end, be it all in one way or every line in
its own (`compare_joinWith`).
-/

import Galley.LineDiff.Compare
import Galley.Proofs.Text.Lines

namespace Galley
namespace LineDiff

variable {o : Options} {limit : Int} {old old' new new' : Text}

/-- Texts of the same lines are empty together. -/
theorem isEmpty_eq_of_splitLines_eq {s t : Text} (h : Text.splitLines s = Text.splitLines t) :
    s.isEmpty = t.isEmpty := by
  rw [Bool.eq_iff_iff, List.isEmpty_iff, List.isEmpty_iff, ← Text.splitLines_eq_singleton_nil_iff,
    ← Text.splitLines_eq_singleton_nil_iff, h]

/-- **A comparison by lines depends on the lines alone.** -/
theorem compare_of_splitLines_eq (ho : o.subject = .lines)
    (hold : Text.splitLines old = Text.splitLines old')
    (hnew : Text.splitLines new = Text.splitLines new') :
    compare o limit old new = compare o limit old' new' := by
  rw [compare, compare, ho, isEmpty_eq_of_splitLines_eq hold, isEmpty_eq_of_splitLines_eq hnew,
    hold, hnew]

section LineEnds

variable {oldLines newLines : List Text}
variable {oldEnds oldEnds' newEnds newEnds' : List Text.LineEnd}

/-- **Line ends do not matter**: lines with any line ends between them are the lines of the text,
and a comparison by lines of two such texts has one outcome for all choices of line ends. -/
theorem compare_joinWith (hold : Text.AreLines oldLines) (hnew : Text.AreLines newLines)
    (holdEnds : oldLines.length = oldEnds.length + 1)
    (holdEnds' : oldLines.length = oldEnds'.length + 1)
    (hnewEnds : newLines.length = newEnds.length + 1)
    (hnewEnds' : newLines.length = newEnds'.length + 1) :
    Text.splitLines (Text.joinWith oldEnds oldLines) = oldLines ∧
      Text.splitLines (Text.joinWith newEnds newLines) = newLines ∧
      (o.subject = .lines →
        compare o limit (Text.joinWith oldEnds oldLines) (Text.joinWith newEnds newLines) =
          compare o limit (Text.joinWith oldEnds' oldLines) (Text.joinWith newEnds' newLines)) := by
  have holdCut := Text.splitLines_joinWith hold holdEnds
  have hnewCut := Text.splitLines_joinWith hnew hnewEnds
  refine ⟨holdCut, hnewCut, fun ho => compare_of_splitLines_eq ho ?_ ?_⟩
  · rw [holdCut, Text.splitLines_joinWith hold holdEnds']
  · rw [hnewCut, Text.splitLines_joinWith hnew hnewEnds']

/-- A carriage return inside a line and at the end of the last one, empty lines at both ends of the
new text, and line ends of both kinds in both texts. -/
theorem compare_joinWith_mixed :
    let old : List Text := ["a\rb".toList, [], "c\r".toList]
    let new : List Text := [[], "a\rb".toList, []]
    let mixed : List Text.LineEnd := [.returnAndLineFeed, .lineFeed]
    let plain : List Text.LineEnd := [.lineFeed, .lineFeed]
    Text.AreLines old ∧ Text.AreLines new ∧ old.length = mixed.length + 1 ∧
      new.length = plain.length + 1 ∧
      Text.joinWith mixed old = "a\rb\r\n\nc\r".toList ∧
      Text.joinWith mixed new = "\r\na\rb\n".toList ∧
      Text.splitLines "a\rb\r\n\nc\r".toList = old ∧
      compare .standard 10000 (Text.joinWith mixed old) (Text.joinWith plain new) =
        compare .standard 10000 (Text.joinWith plain old) (Text.joinWith mixed new) := by
  intro old new mixed plain
  have hold : Text.AreLines old := ⟨by decide, by decide⟩
  have hnew : Text.AreLines new := ⟨by decide, by decide⟩
  have hcut : Text.splitLines (Text.joinWith mixed old) = old :=
    Text.splitLines_joinWith hold rfl
  have hsame : compare .standard 10000 (Text.joinWith mixed old) (Text.joinWith plain new) =
      compare .standard 10000 (Text.joinWith plain old) (Text.joinWith mixed new) :=
    (compare_joinWith hold hnew rfl rfl rfl rfl).2.2 rfl
  exact ⟨hold, hnew, rfl, rfl, by decide, by decide, hcut, hsame⟩

end LineEnds

end LineDiff
end Galley
