/-
# Highlighted lines of records

Highlighting sees the lines of a report (`preparedLines_report`) and takes them for what they are
told by their beginnings.  The line of a record begins with a blank, a digit or a mark, never like
a heading, a fence, a statistic or a mark of omission, and it is not ruled.  So only one thing is
asked of it: whether it begins with number columns (`lineSpans_eq`).  What is left then is told by
its mark (`record_marked`).
-/

import Galley.Proofs.Highlight.Tokens
import Galley.Proofs.LineDiff.Shown

namespace Galley
namespace Highlight
namespace Report

open LineDiff (Fate Options Record Statistics headLines recordLines footLines reportLines)

variable {line : Text} {o : Options} {r : Record} {rs : List Record} {s : Statistics}

/-- The class of a record. -/
def kindOf : Fate → Class
  | .added => .inserted
  | .removed => .deleted
  | .unchanged => .plain

/-- The tokens of lines. -/
def tokensOf (lines : List Text) : List Token := (lines.flatMap lineSpans).map Span.token

theorem tokensOf_append (lines lines' : List Text) :
    tokensOf (lines ++ lines') = tokensOf lines ++ tokensOf lines' := by
  rw [tokensOf, List.flatMap_append, List.map_append]
  rfl

theorem tokensOf_eq_flatMap (lines : List Text) :
    tokensOf lines = lines.flatMap fun line => (lineSpans line).map Span.token :=
  List.map_flatMap

/-! ### The report in common form -/

/-- **Highlighting sees the lines of a report.** -/
theorem preparedLines_report (hrs : ∀ r ∈ rs, r.Printable) :
    preparedLines (LineDiff.report o rs s) = reportLines o rs s := by
  obtain ⟨init, last, hlines, hlast⟩ := LineDiff.exists_reportLines_eq (o := o) (s := s) hrs
  have hisLine := LineDiff.isLine_reportLines (o := o) (s := s) hrs
  have hunlines : Text.unlines (reportLines o rs s) = Text.unlines init ++ last ++ ['\n'] := by
    simp [hlines, Text.unlines]
  have hhead : (Text.unlines init ++ last).head? = some 'D' := by
    have hhead : (Text.unlines (reportLines o rs s)).head? = some 'D' := rfl
    rwa [hunlines, List.head?_append_of_ne_nil _ (List.append_ne_nil_of_right_ne_nil _ hlast)] at hhead
  -- the last line is ended, or only its line feed is missing
  obtain ⟨k, hreport⟩ : ∃ k, LineDiff.report o rs s =
      Text.unlines init ++ last ++ List.replicate k '\n' := by
    have htext := LineDiff.report_lines o rs s
    rw [hunlines] at htext
    cases hends : LineDiff.endsLine o with
    | true =>
      rw [hends, if_pos rfl, List.append_nil] at htext
      exact ⟨1, htext⟩
    | false =>
      rw [hends, if_neg Bool.false_ne_true] at htext
      exact ⟨0, (List.append_cancel_right htext).trans (List.append_nil _).symm⟩
  rw [hlines] at hisLine ⊢
  rw [hreport, preparedLines_eq k hisLine hlast (by rw [hhead]; decide)]

/-- **A report is cut into the tokens of its lines.** -/
theorem cutsInto_report (hrs : ∀ r ∈ rs, r.Printable) :
    prepared (LineDiff.report o rs s) = Text.unlines (reportLines o rs s) ∧
      CutsInto rules (prepared (LineDiff.report o rs s))
        (tokensOf (headLines o) ++ tokensOf (recordLines o rs) ++ tokensOf (footLines o s)) := by
  have hprepared : prepared (LineDiff.report o rs s) = Text.unlines (reportLines o rs s) :=
    congrArg Text.unlines (preparedLines_report hrs)
  refine ⟨hprepared, ?_⟩
  rw [hprepared, ← tokensOf_append, ← tokensOf_append]
  exact cutsInto_unlines fun line h => (LineDiff.isLine_reportLines hrs line h).lineFeed_not_mem

/-! ### Lines of records -/

/-- The first characters of the lines that are told by a word. -/
def openings : Text := "DJSOL`.".toList

/-- Whether a line begins like one that is told by a word. -/
def beginsLikeWord (line : Text) : Bool := line.head?.any openings.contains

/-- A line that does not begin like a word does not begin with it. -/
theorem ne_append_of_beginsLikeWord {w : Text} (hline : beginsLikeWord line = false)
    (hw : beginsLikeWord w = true) (u : Text) : line ≠ w ++ u := by
  rintro rfl
  cases w with
  | nil => cases hw
  | cons c w => exact absurd (hline.symm.trans hw) Bool.false_ne_true

/-- **A line that begins like no word** and is not ruled is told by its columns alone. -/
theorem lineSpans_eq (hline : beginsLikeWord line = false)
    (hruling : ¬∀ c ∈ line, (c == '=' || c == '-') = true) :
    lineSpans line = (numbered? line).getD [record line] := by
  have hword := fun {w : Text} => ne_append_of_beginsLikeWord (w := w) hline
  have hheading : heading? line = none := by
    refine Option.eq_none_iff_forall_ne_some.2 fun ss h => ?_
    obtain ⟨w, hw, u, hu, -⟩ := heading?_eq_some_iff.1 h
    have hopens : ∀ w ∈ headings, beginsLikeWord w = true := by decide
    exact hword (hopens w hw) u hu
  have hsides : sides? line = none :=
    if_neg fun h => hword (by decide) [] (h.trans (List.append_nil _).symm)
  have hruling : ruling? line = none :=
    Option.eq_none_iff_forall_ne_some.2 fun ss h => hruling (ruling?_eq_some_iff.1 h).1.2
  have hfence : fence? line = none := by
    refine Option.eq_none_iff_forall_ne_some.2 fun ss h => ?_
    obtain ⟨rest, hcut, -⟩ := Option.map_eq_some_iff.1 h
    exact hword (by decide) rest (cutStart?_eq_some_iff.1 hcut)
  have hstatistic : statistic? line = none := by
    refine Option.eq_none_iff_forall_ne_some.2 fun ss h => ?_
    obtain ⟨label, gap, amount, hlabel, -, -, hu, -⟩ := statistic?_eq_some_iff.1 h
    refine hword ?_ _ hu
    rcases isLabel_iff.1 hlabel with ⟨_, b, rfl, -, rfl⟩ | rfl
    · exact (by decide : openings.contains 'L' = true)
    · decide
  have homission : omission? line = none :=
    if_neg fun h => hword (w := ['.', '.', '.']) (by decide) [] (h.trans (List.append_nil _).symm)
  rw [lineSpans, hheading, hsides, hruling, hfence, hstatistic, homission]
  rfl

/-- **A record is told by its mark.** -/
theorem record_marked (r : Record) : record r.marked = ⟨kindOf r.fate, r.marked ++ ['\n']⟩ := by
  cases h : r.fate <;> simp [record, Record.marked, Fate.mark, kindOf, h]

end Report
end Highlight
end Galley
