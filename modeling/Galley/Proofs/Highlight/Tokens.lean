/-
# The tokens of a report

The table of rules cuts every text into the spans of its lines (`cutsInto_spans`): it does not
come to a character that no rule accounts for, it does not stay at a place, and nothing of the text
is missing among the tokens.  The text is the one in common form, which ends in a line feed.
-/

import Galley.Proofs.Highlight.Table

namespace Galley
namespace Highlight

/-- The common form of a text is the text without line feeds around it, and one behind it. -/
theorem prepared_eq (t : Text) :
    prepared t = stripLineFeeds (Text.unifyLineEnds (dropByteOrderMark t)) ++ ['\n'] :=
  Text.unlines_splitAll _

/-- Line feeds behind a text are dropped. -/
theorem stripLineFeeds_append {u : Text} (k : Nat) (hne : u ≠ []) (hhead : u.head? ≠ some '\n')
    (hlast : u.getLast? ≠ some '\n') : stripLineFeeds (u ++ List.replicate k '\n') = u := by
  have hfront : (u ++ List.replicate k '\n').dropWhile (· == '\n') = u ++ List.replicate k '\n' := by
    refine (run_iff.2 ⟨(List.nil_append _).symm, by simp, fun c hc => ?_⟩).2
    rw [List.head?_append_of_ne_nil _ hne] at hc
    rw [beq_eq_false_iff_ne]
    rintro rfl
    exact hhead hc
  have hback : (List.replicate k '\n' ++ u.reverse).dropWhile (· == '\n') = u.reverse := by
    refine (run_iff.2 ⟨rfl, by simp, fun c hc => ?_⟩).2
    rw [List.head?_reverse] at hc
    rw [beq_eq_false_iff_ne]
    rintro rfl
    exact hlast hc
  rw [stripLineFeeds, hfront, List.reverse_append, List.reverse_replicate, hback,
    List.reverse_reverse]

theorem dropByteOrderMark_of_head? {t : Text} (h : t.head? ≠ some '\uFEFF') :
    dropByteOrderMark t = t := by
  unfold dropByteOrderMark
  split
  · exact absurd rfl h
  · rfl

/-- **Lines are in common form** if none has a line end in it and the last is not empty, whether that
one is ended or not.  Only the first character is to be no line feed and no byte order mark. -/
theorem preparedLines_eq {init : List Text} {last : Text} (k : Nat)
    (hlines : ∀ line ∈ init ++ [last], Text.IsLine line) (hlast : last ≠ [])
    (hhead : (Text.unlines init ++ last).head? ≠ some '\n' ∧
      (Text.unlines init ++ last).head? ≠ some '\uFEFF') :
    preparedLines (Text.unlines init ++ last ++ List.replicate k '\n') = init ++ [last] := by
  have hne : Text.unlines init ++ last ≠ [] := List.append_ne_nil_of_right_ne_nil _ hlast
  have hunlines : Text.unlines (init ++ [last]) = Text.unlines init ++ last ++ ['\n'] := by
    simp [Text.unlines]
  have hreturn : '\r' ∉ Text.unlines init ++ last ++ List.replicate k '\n' := by
    intro h
    rcases List.mem_append.1 h with h | h
    · rcases List.mem_append.1 h with h | h
      · obtain ⟨_, hmem, h⟩ := List.mem_flatten.1 h
        obtain ⟨line, hline, rfl⟩ := List.mem_map.1 hmem
        have hend : '\r' ∉ line ++ ['\n'] := by
          simp [(hlines line (List.mem_append_left _ hline)).return_not_mem]
        exact hend h
      · exact (hlines last (by simp)).return_not_mem h
    · exact absurd (List.eq_of_mem_replicate h) (by decide)
  have hlastChar : (Text.unlines init ++ last).getLast? ≠ some '\n' := by
    rw [List.getLast?_append_of_ne_nil _ hlast]
    exact fun h => (hlines last (by simp)).lineFeed_not_mem (List.mem_of_getLast? h)
  rw [preparedLines, dropByteOrderMark_of_head?, Text.unifyLineEnds_of_not_mem hreturn,
    stripLineFeeds_append k hne hhead.1 hlastChar]
  · refine (Text.unlines_inj (fun _ => Text.not_mem_of_mem_splitAll) fun line h =>
      (hlines line h).lineFeed_not_mem).1 ?_
    rw [Text.unlines_splitAll, hunlines]
  · rw [List.head?_append_of_ne_nil _ hne]
    exact hhead.2

namespace Report

variable {lines : List Text}

/-- **The rules cut lines into their spans.** -/
theorem steps_lines (h : ∀ line ∈ lines, '\n' ∉ line) :
    Steps rules (.start (Text.unlines lines)) ((lines.flatMap lineSpans).map Span.token)
      ⟨true, []⟩ := by
  induction lines with
  | nil => exact .done _
  | cons line lines ih =>
    obtain ⟨hline, hlines⟩ := List.forall_mem_cons.1 h
    have htext : Text.unlines (line :: lines) = line ++ '\n' :: Text.unlines lines := by
      simp [Text.unlines]
    rw [htext, List.flatMap_cons, List.map_append]
    exact (steps_line hline).trans (ih hlines)

theorem cutsInto_unlines (h : ∀ line ∈ lines, '\n' ∉ line) :
    CutsInto rules (Text.unlines lines) ((lines.flatMap lineSpans).map Span.token) := by
  refine .of_steps goesOn_of_mem_rules (steps_lines h) next_rules_nil fun a ha => ?_
  obtain ⟨s, -, rfl⟩ := List.mem_map.1 ha
  exact nofun

/-- **Highlighting a report loses nothing and ends.** -/
theorem cutsInto_spans (t : Text) :
    (∀ p, ∀ x ∈ next rules p, GoesOn p x) ∧
      CutsInto rules (prepared t) ((spans t).map Span.token) ∧
      prepared t = stripLineFeeds (Text.unifyLineEnds (dropByteOrderMark t)) ++ ['\n'] :=
  ⟨fun _ _ => next_goesOn goesOn_of_mem_rules,
    cutsInto_unlines fun _ => Text.not_mem_of_mem_splitAll, prepared_eq t⟩

/-- A text with a byte order mark and all kinds of line ends, of lines that are almost something else. -/
theorem cutsInto_spans_imitating :
    let t := "\uFEFF\n```diffs\r   1 |  | + x\r\n..\n----------=\n:\n\n".toList
    CutsInto rules (prepared t)
      [⟨some .frame, "```diff".toList⟩, ⟨some .plain, "s\n".toList⟩,
        ⟨some .number, "   1 |  | ".toList⟩, ⟨some .inserted, "+ x\n".toList⟩,
        ⟨some .plain, "..\n".toList⟩, ⟨some .frame, "----------=\n".toList⟩,
        ⟨some .plain, ":\n".toList⟩] := by
  intro t
  obtain ⟨-, hcuts, -⟩ := cutsInto_spans t
  exact Eq.subst (motive := CutsInto rules (prepared t)) (by decide +kernel) hcuts

end Report
end Highlight
end Galley
