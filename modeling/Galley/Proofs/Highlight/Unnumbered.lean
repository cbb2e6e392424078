/-
# Highlighted reports without line numbers

The unified layout has no number columns, but highlighting looks for them all the same.  An added or
a removed line begins with its mark and so never with columns; it is one token, and so is the mark of
a gap.  An unchanged line begins with two blanks, which may be a part of columns: what looks like
columns then is taken for line numbers, and what follows may be taken for an added or removed line
(`compare_unified_highlighted`).  A line of `1: + x` that both texts have is highlighted as an
insertion (`compare_unified_highlighted_not`).
-/

import Galley.Proofs.Highlight.Records
import Galley.Proofs.LineDiff.Agreement

namespace Galley
namespace Highlight
namespace Report

open LineDiff (Options Record Stretch IsCut Near gapMark compare headLines recordLines footLines
  unifiedLines)

variable {o : Options} {r : Record} {rs : List Record} {line columns rest old new : Text}

/-! ### Shown lines -/

/-- Whether a line begins with number columns. -/
def BeginsWithColumns (line : Text) : Prop := ∃ columns rest, IsColumns columns ∧ line = columns ++ rest

/-- A line without columns at its beginning is read without them. -/
theorem numbered?_eq_none (h : ¬BeginsWithColumns line) : numbered? line = none := by
  refine Option.eq_none_iff_forall_ne_some.2 fun ss hss => ?_
  obtain ⟨columns, rest, hcolumns, hline, -⟩ := numbered?_eq_some_iff.1 hss
  exact h ⟨columns, rest, hcolumns, hline⟩

/-- **A line behind a mark** is told by what looks like columns, or else by the mark. -/
theorem lineSpans_marked (r : Record) :
    lineSpans r.marked = (numbered? r.marked).getD [⟨kindOf r.fate, r.marked ++ ['\n']⟩] := by
  have hopening : beginsLikeWord r.marked = false := by
    rw [Record.marked]
    cases r.fate <;> rfl
  have hblank : ' ' ∈ r.fate.mark := by cases r.fate <;> decide
  have hruling : ¬∀ c ∈ r.marked, (c == '=' || c == '-') = true := fun hall =>
    absurd (hall ' ' (List.mem_append_left _ hblank)) (by decide)
  rw [lineSpans_eq hopening hruling, record_marked]

/-- **A changed line** begins with its mark and not with columns. -/
theorem not_beginsWithColumns (h : r.isChanged = true) : ¬BeginsWithColumns r.marked := by
  rintro ⟨columns, rest, hcolumns, hline⟩
  obtain ⟨c, hc, hkind⟩ := hcolumns.head?
  obtain ⟨u, rfl⟩ := List.head?_eq_some_iff.1 hc
  have hmark : r.marked.head? = some '+' ∨ r.marked.head? = some '-' := by
    rw [Record.marked]
    cases hfate : r.fate with
    | added => exact Or.inl rfl
    | removed => exact Or.inr rfl
    | unchanged => simp [Record.isChanged, hfate] at h
  rw [hline] at hmark
  rcases hmark with hmark | hmark
  all_goals
    obtain rfl := Option.some.inj hmark
    revert hkind
    decide

/-- **A line is one token**, of the class of its record, unless it begins with what looks like
columns. -/
theorem tokensOf_marked_eq_iff :
    tokensOf [r.marked] = [⟨some (kindOf r.fate), r.marked ++ ['\n']⟩] ↔
      ¬BeginsWithColumns r.marked := by
  rw [tokensOf, List.flatMap_singleton, lineSpans_marked]
  constructor
  · rintro h ⟨columns, rest, hcolumns, hline⟩
    rw [numbered?_eq_some_iff.2 ⟨columns, rest, hcolumns, hline, rfl⟩] at h
    exact absurd (congrArg List.length h) (by simp)
  · intro h
    rw [numbered?_eq_none h]
    rfl

/-- What looks like columns is taken for them, and what follows for a record. -/
theorem tokensOf_marked_of_columns (hcolumns : IsColumns columns) (hline : r.marked = columns ++ rest) :
    tokensOf [r.marked] = [⟨some .number, columns⟩, (record rest).token] := by
  rw [tokensOf, List.flatMap_singleton, lineSpans_marked,
    numbered?_eq_some_iff.2 ⟨columns, rest, hcolumns, hline, rfl⟩]
  rfl

/-! ### Reports -/

/-- The tokens of a stretch: those of its lines, or one for the gap. -/
def stretchTokens (s : Stretch) : List Token :=
  if s.shown then s.records.flatMap fun x => tokensOf [x.1.marked]
  else [⟨some .subheading, gapMark ++ ['\n']⟩]

theorem tokensOf_gapMark : tokensOf [gapMark] = [⟨some .subheading, gapMark ++ ['\n']⟩] := by decide

theorem tokensOf_stretches (ss : List Stretch) :
    tokensOf (ss.flatMap Stretch.lines) = ss.flatMap stretchTokens := by
  rw [tokensOf_eq_flatMap, List.flatMap_assoc]
  refine List.flatMap_congr fun s _ => ?_
  unfold Stretch.lines stretchTokens
  split
  · rw [List.flatMap_map]
    refine List.flatMap_congr fun x _ => ?_
    rw [tokensOf, List.flatMap_singleton]
  · rw [← tokensOf_gapMark, tokensOf_eq_flatMap]

/-- The unified layout shows stretches, and none where nothing changed. -/
theorem exists_stretches (o : Options) (rs : List Record) :
    ∃ ss, unifiedLines o rs = ss.flatMap Stretch.lines ∧
      ((∃ r ∈ rs, r.isChanged = true) →
        IsCut (fun i => decide (Near o.contextLines rs i)) rs.zipIdx ss) ∧
      ((∀ r ∈ rs, r.isChanged = false) → ss = []) := by
  by_cases hchanged : ∃ r ∈ rs, r.isChanged = true
  · obtain ⟨ss, hss⟩ := LineDiff.exists_isCut (fun i => decide (Near o.contextLines rs i)) rs.zipIdx
    refine ⟨ss, LineDiff.unifiedLines_eq hchanged hss, fun _ => hss, fun hsame => ?_⟩
    obtain ⟨r, hr, hchanged⟩ := hchanged
    rw [hsame r hr] at hchanged
    cases hchanged
  · refine ⟨[], ?_, fun h => absurd h hchanged, fun _ => rfl⟩
    rw [unifiedLines, if_neg (by simpa using hchanged)]
    rfl

/-- **Highlighting tells records without numbers by their beginnings.**  The report of two texts without
carriage returns in the unified layout shows stretches of records and marks of gaps.  Highlighting
makes one token of a mark and one of every record that was added or removed.  It makes one of an
unchanged record if and only if the line does not begin with what looks like number columns, and
otherwise one of the columns and one of what is left. -/
theorem compare_unified_highlighted (limit : Int) (ho : o.subject = .lines)
    (hlayout : o.layout = .unified) (hold : '\r' ∉ old) (hnew : '\r' ∉ new) :
    old = [] ∧ new = [] ∧ (compare o limit old new).value = .error .nothingToCompare ∨
      ∃ out s rs ss, (compare o limit old new).value = .ok (.lines out s rs) ∧
        ((∃ r ∈ rs, r.isChanged = true) →
          IsCut (fun i => decide (Near o.contextLines rs i)) rs.zipIdx ss) ∧
        ((∀ r ∈ rs, r.isChanged = false) → ss = []) ∧
        prepared out = Text.unlines (headLines o ++ ss.flatMap Stretch.lines ++ footLines o s) ∧
        CutsInto rules (prepared out)
          (tokensOf (headLines o) ++ ss.flatMap stretchTokens ++ tokensOf (footLines o s)) ∧
        ∀ r ∈ rs,
          (tokensOf [r.marked] = [⟨some (kindOf r.fate), r.marked ++ ['\n']⟩] ↔
            ¬BeginsWithColumns r.marked) ∧
          (r.isChanged = true → ¬BeginsWithColumns r.marked) ∧
          ∀ columns rest, IsColumns columns → r.marked = columns ++ rest →
            tokensOf [r.marked] = [⟨some .number, columns⟩, (record rest).token] := by
  by_cases hempty : old = [] ∧ new = []
  · obtain ⟨rfl, rfl⟩ := hempty
    exact Or.inl ⟨rfl, rfl, rfl⟩
  · obtain ⟨rs, hrs⟩ : ∃ rs, rs = LineDiff.records o (Text.splitLines old) (Text.splitLines new) :=
      ⟨_, rfl⟩
    have hprintable : ∀ r ∈ rs, r.Printable := hrs ▸ LineDiff.printable_records o hold hnew
    obtain ⟨hprepared, hcuts⟩ := cutsInto_report (o := o) (s := LineDiff.Statistics.of rs) hprintable
    obtain ⟨ss, hlines, hcut, hsame⟩ := exists_stretches o rs
    have hrecordLines : recordLines o rs = ss.flatMap Stretch.lines := by
      rw [recordLines, hlayout, hlines]
    rw [LineDiff.reportLines, hrecordLines] at hprepared
    rw [hrecordLines, tokensOf_stretches] at hcuts
    exact Or.inr ⟨_, _, rs, ss, LineDiff.value_compare_lines limit ho hempty hrs, hcut, hsame,
      hprepared, hcuts, fun r _ => ⟨tokensOf_marked_eq_iff, not_beginsWithColumns,
        fun _ _ => tokensOf_marked_of_columns⟩⟩

/-- A gap, and changed lines of which the contents look like columns. -/
theorem compare_unified_highlighted_imitating :
    let o : Options := { Options.standard with contextLines := 1 }
    let old := "a\nb\nc\n1: + x".toList
    let new := "a\nb\nc\n 1 |  2 | y".toList
    o.subject = .lines ∧ o.layout = .unified ∧ '\r' ∉ old ∧ '\r' ∉ new ∧
      ∃ out s rs, ∃ ss : List Stretch, (compare o 1000000 old new).value = .ok (.lines out s rs) ∧
        CutsInto rules (prepared out)
          (tokensOf (headLines o) ++ ss.flatMap stretchTokens ++ tokensOf (footLines o s)) ∧
        ss.flatMap stretchTokens =
          [⟨some .subheading, "...\n".toList⟩, ⟨some .plain, "  c\n".toList⟩,
            ⟨some .deleted, "- 1: + x\n".toList⟩, ⟨some .inserted, "+  1 |  2 | y\n".toList⟩] := by
  intro o old new
  have hold : '\r' ∉ old := by decide
  have hnew : '\r' ∉ new := by decide
  obtain ⟨out, s, rs, ss, hvalue, -, -, -, hcuts, -⟩ := (compare_unified_highlighted (o := o) 1000000
    rfl rfl hold hnew).resolve_left fun h => absurd h.1 (by decide)
  refine ⟨rfl, rfl, hold, hnew, out, s, rs, ss, hvalue, hcuts, ?_⟩
  obtain ⟨hrs, hs, hout⟩ :=
    LineDiff.eq_of_value_compare_lines rfl (fun h => absurd h.1 (by decide)) hvalue
  have htokens := hcuts.unique (cutsInto_spans out).2.1
  have hspans : (spans out).map Span.token = tokensOf (headLines o) ++
      [⟨some .subheading, "...\n".toList⟩, ⟨some .plain, "  c\n".toList⟩,
        ⟨some .deleted, "- 1: + x\n".toList⟩, ⟨some .inserted, "+  1 |  2 | y\n".toList⟩] ++
      tokensOf (footLines o s) := by
    rw [hout, hs, hrs]
    decide +kernel
  exact List.append_cancel_left (List.append_cancel_right (htokens.trans hspans))

/-- **A line that both texts have may be highlighted as an insertion**, if it looks like a line of the
inline layout. -/
theorem compare_unified_highlighted_not :
    let o := Options.standard
    let old := "1: + x\na".toList
    let new := "1: + x\nb".toList
    o.subject = .lines ∧ o.layout = .unified ∧ '\r' ∉ old ∧ '\r' ∉ new ∧
      ∃ out s rs r ts, (compare o 1000000 old new).value = .ok (.lines out s rs) ∧
        r ∈ rs ∧ r.fate = .unchanged ∧ r.marked ∈ unifiedLines o rs ∧
        CutsInto rules (prepared out) ts ∧ ⟨some .plain, r.marked ++ ['\n']⟩ ∉ ts ∧
        [⟨some .number, "  1: ".toList⟩, ⟨some .inserted, "+ x\n".toList⟩] <:+: ts := by
  intro o old new
  have hvalue : (compare o 1000000 old new).value = _ :=
    LineDiff.value_compare_lines 1000000 rfl (fun h => absurd h.1 (by decide)) rfl
  refine ⟨rfl, rfl, by decide, by decide, _, _, _,
    .unchanged 1 1 "1: + x".toList "1: + x".toList, _, hvalue, by decide +kernel, rfl,
    by decide +kernel, (cutsInto_spans _).2.1, by decide +kernel, by decide +kernel⟩

end Report
end Highlight
end Galley
