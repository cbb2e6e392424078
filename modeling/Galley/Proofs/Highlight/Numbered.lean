/-
# Highlighted reports with line numbers

The split and the inline layout put number columns before every record.  Highlighting gives the
columns of a record their class and the record its own (`compare_numbered`), whatever the line of the
text looks like: the columns end where the layout ends them, because a line begins with columns in one
way only, and behind them stands the mark.
-/

import Galley.Proofs.Highlight.Records
import Galley.Proofs.LineDiff.Agreement

namespace Galley
namespace Highlight
namespace Report

open LineDiff (Options Record numberColumn compare headLines recordLines footLines)

variable {o : Options} {r : Record} {rs : List Record} {n : Option Int} {columns old new : Text}

/-! ### The columns of a record -/

/-- The number columns of a record. -/
def numberColumns (o : Options) (r : Record) : Text :=
  match o.layout with
  | .unified => []
  | .split => numberColumn r.oldLine ++ " | ".toList ++ numberColumn r.newLine ++ " | ".toList
  | .inline => numberColumn r.oldLine ++ ": ".toList

/-- The tokens of a record behind its number columns. -/
def numberedTokens (o : Options) (r : Record) : List Token :=
  [⟨some .number, numberColumns o r⟩, ⟨some (kindOf r.fate), r.marked ++ ['\n']⟩]

/-- A positive number stands in its column as spaces and digits. -/
theorem exists_numberColumn_eq (hn : ∀ i ∈ n, 0 < i) :
    ∃ spaces digits, IsSpaces spaces ∧ IsDigits digits ∧ numberColumn n = spaces ++ digits := by
  refine ⟨_, n.elim [] Text.ofInt, fun c hc => ?_, fun c hc => ?_, rfl⟩
  · rw [List.eq_of_mem_replicate hc]
    rfl
  · cases n with
    | none => cases hc
    | some i =>
      obtain ⟨k, rfl⟩ := Int.eq_ofNat_of_zero_le (Int.le_of_lt (hn i rfl))
      exact Text.isDecimal_of_isDigit (Text.isDigit_of_mem_ofNat hc)

/-- **The columns that a layout prints** are columns for highlighting. -/
theorem isColumns_numberColumns (ho : o.layout ≠ .unified) (hr : r.Printable) :
    IsColumns (numberColumns o r) := by
  obtain ⟨s, d, hs, hd, hold⟩ := exists_numberColumn_eq hr.oldLine_pos
  obtain ⟨s', d', hs', hd', hnew⟩ := exists_numberColumn_eq hr.newLine_pos
  unfold numberColumns
  split
  · contradiction
  · -- the space behind a bar is the first of the next column
    have hright : IsSpaces (' ' :: s') := List.forall_mem_cons.2 ⟨rfl, hs'⟩
    refine Or.inl ⟨_, _, ⟨s, d, hs, hd, rfl⟩, ⟨' ' :: s', d', hright, hd', rfl⟩, ?_⟩
    rw [hold, hnew]
    simp
  · exact Or.inr ⟨s, d, hs, hd, by rw [hold]; rfl⟩

/-- Columns do not begin like a word. -/
theorem not_mem_openings {c : Char} (hc : isBlankOrDigit c = true ∨ c = ':') :
    openings.contains c = false := by
  have hother : (openings.all fun c => !isBlankOrDigit c && c != ':') = true := by decide
  refine Bool.eq_false_iff.2 fun hmem => ?_
  have hopening := List.all_eq_true.1 hother c (List.contains_iff_mem.1 hmem)
  rw [Bool.and_eq_true, Bool.not_eq_true', bne_iff_ne] at hopening
  exact hc.elim (fun htrue => absurd (htrue.symm.trans hopening.1) (by decide)) hopening.2

/-- **A line behind columns** is the columns and a record. -/
theorem lineSpans_columns (h : IsColumns columns) (r : Record) :
    lineSpans (columns ++ r.marked) =
      [⟨.number, columns⟩, ⟨kindOf r.fate, r.marked ++ ['\n']⟩] := by
  have hopening : beginsLikeWord (columns ++ r.marked) = false := by
    obtain ⟨c, hc, hkind⟩ := h.head?
    obtain ⟨u, rfl⟩ := List.head?_eq_some_iff.1 hc
    exact not_mem_openings hkind
  have hruling : ¬∀ c ∈ columns ++ r.marked, (c == '=' || c == '-') = true := by
    intro hall
    rcases h.mem with hmem | hmem
    · exact absurd (hall _ (List.mem_append_left _ hmem)) (by decide)
    · exact absurd (hall _ (List.mem_append_left _ hmem)) (by decide)
  rw [lineSpans_eq hopening hruling, numbered?_eq_some_iff.2 ⟨columns, r.marked, h, rfl, rfl⟩,
    record_marked]
  rfl

/-! ### Reports -/

theorem recordLines_numbered (ho : o.layout ≠ .unified) (hnumbers : o.showLineNumbers = true) :
    recordLines o rs = rs.map fun r => numberColumns o r ++ r.marked := by
  unfold recordLines numberColumns
  cases hlayout : o.layout with
  | unified => exact absurd hlayout ho
  | split =>
    refine List.map_congr_left fun r _ => ?_
    rw [LineDiff.splitLine, if_pos hnumbers]
  | inline =>
    refine List.map_congr_left fun r _ => ?_
    rw [LineDiff.inlineLine, if_pos hnumbers]

theorem tokensOf_numbered (ho : o.layout ≠ .unified) (hrs : ∀ r ∈ rs, r.Printable) :
    tokensOf (rs.map fun r => numberColumns o r ++ r.marked) = rs.flatMap (numberedTokens o) := by
  rw [tokensOf_eq_flatMap, List.flatMap_map]
  refine List.flatMap_congr fun r hr => ?_
  rw [lineSpans_columns (isColumns_numberColumns ho (hrs r hr))]
  rfl

/-- **Highlighting tells records with numbers by what became of them.**  The report of two texts without
carriage returns has a line for every record, and highlighting cuts it into the number columns of the
record and the rest. -/
theorem compare_numbered (limit : Int) (ho : o.subject = .lines) (hlayout : o.layout ≠ .unified)
    (hnumbers : o.showLineNumbers = true) (hold : '\r' ∉ old) (hnew : '\r' ∉ new) :
    old = [] ∧ new = [] ∧ (compare o limit old new).value = .error .nothingToCompare ∨
      ∃ out s rs, (compare o limit old new).value = .ok (.lines out s rs) ∧
        prepared out = Text.unlines
          (headLines o ++ rs.map (fun r => numberColumns o r ++ r.marked) ++ footLines o s) ∧
        CutsInto rules (prepared out)
          (tokensOf (headLines o) ++ rs.flatMap (numberedTokens o) ++ tokensOf (footLines o s)) := by
  by_cases hempty : old = [] ∧ new = []
  · obtain ⟨rfl, rfl⟩ := hempty
    exact Or.inl ⟨rfl, rfl, rfl⟩
  · have hrs := LineDiff.printable_records o hold hnew
    obtain ⟨hprepared, hcuts⟩ := cutsInto_report (o := o) (s := LineDiff.Statistics.of _) hrs
    rw [LineDiff.reportLines, recordLines_numbered hlayout hnumbers] at hprepared
    rw [recordLines_numbered hlayout hnumbers, tokensOf_numbered hlayout hrs] at hcuts
    exact Or.inr ⟨_, _, _, LineDiff.value_compare_lines limit ho hempty rfl, hprepared, hcuts⟩

/-- Lines that look like columns, like a fence and like a record of the same layout. -/
theorem compare_numbered_imitating :
    let o : Options := { Options.standard with layout := .split }
    let old := "1: + x\n```".toList
    let new := "1: + x\n   7 |    8 | - y".toList
    o.subject = .lines ∧ o.layout ≠ .unified ∧ o.showLineNumbers = true ∧ '\r' ∉ old ∧ '\r' ∉ new ∧
      ∃ out s, (compare o 1000000 old new).value = .ok (.lines out s
          [.unchanged 1 1 "1: + x".toList "1: + x".toList, .removed 2 "```".toList,
            .added 2 "   7 |    8 | - y".toList]) ∧
        CutsInto rules (prepared out) (tokensOf (headLines o) ++
          [⟨some .number, "   1 |    1 | ".toList⟩, ⟨some .plain, "  1: + x\n".toList⟩,
            ⟨some .number, "   2 |      | ".toList⟩, ⟨some .deleted, "- ```\n".toList⟩,
            ⟨some .number, "     |    2 | ".toList⟩,
            ⟨some .inserted, "+    7 |    8 | - y\n".toList⟩] ++ tokensOf (footLines o s)) := by
  intro o old new
  have hold : '\r' ∉ old := by decide
  have hnew : '\r' ∉ new := by decide
  obtain ⟨out, s, rs, hvalue, -, hcuts⟩ := (compare_numbered (o := o) 1000000 rfl (by decide) rfl
    hold hnew).resolve_left fun h => absurd h.1 (by decide)
  obtain ⟨hrs, -⟩ := LineDiff.eq_of_value_compare_lines rfl (fun h => absurd h.1 (by decide)) hvalue
  have hrecords : LineDiff.records o (Text.splitLines old) (Text.splitLines new) =
      [.unchanged 1 1 "1: + x".toList "1: + x".toList, .removed 2 "```".toList,
        .added 2 "   7 |    8 | - y".toList] := by decide +kernel
  rw [hrs, hrecords] at hvalue hcuts
  exact ⟨rfl, by decide, rfl, hold, hnew, out, s, hvalue, hcuts⟩

end Report
end Highlight
end Galley
