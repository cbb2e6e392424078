/-
# Lines and line ends

A text is put together from lines and the line ends between them, each a line feed or a carriage
return with a line feed (`joinWith`).  Cutting the text gives the lines back, whichever end each of
them has (`splitLines_joinWith`): no line may have a line feed in it, and none that a line end
follows may end in a carriage return, which would count as a part of the line end.

Where every line ends in a line feed, the last one too, the lines can be told from the text
(`unlines_inj`).
-/

import Galley.Text.Lines
import Mathlib.Data.List.Basic

namespace Galley
namespace Text

variable {c : Char} {line t : Text} {lines lines' : List Text} {ends : List LineEnd}

/-- What stands between two lines. -/
inductive LineEnd where
  | lineFeed
  | returnAndLineFeed
  deriving DecidableEq, Repr

/-- A line end as it is written. -/
def LineEnd.text : LineEnd → Text
  | .lineFeed => ['\n']
  | .returnAndLineFeed => ['\r', '\n']

/-- Lines with line ends between them. -/
def joinWith : List LineEnd → List Text → Text
  | e :: ends, line :: lines => line ++ e.text ++ joinWith ends lines
  | _, lines => lines.flatten

/-- Whether lines can be told from the line ends between them. -/
structure AreLines (lines : List Text) : Prop where
  not_mem_lineFeed : ∀ line ∈ lines, '\n' ∉ line
  getLast?_ne_return : ∀ line ∈ lines.dropLast, line.getLast? ≠ some '\r'

/-- Whether a text is a line, without line ends and parts of them. -/
def IsLine (t : Text) : Prop := ∀ c ∈ t, c ≠ '\n' ∧ c ≠ '\r'

instance : DecidablePred IsLine := fun t =>
  List.decidableBAll (fun c => c ≠ '\n' ∧ c ≠ '\r') t

theorem IsLine.append (h : IsLine line) (ht : IsLine t) : IsLine (line ++ t) :=
  List.forall_mem_append.2 ⟨h, ht⟩

theorem IsLine.lineFeed_not_mem (h : IsLine line) : '\n' ∉ line := fun hmem => (h _ hmem).1 rfl

theorem IsLine.return_not_mem (h : IsLine line) : '\r' ∉ line := fun hmem => (h _ hmem).2 rfl

/-! ### Cutting at line ends -/

/-- A character that starts no line end belongs to the first line. -/
theorem splitLines_cons (hc : c ≠ '\n') (hr : c = '\r' → t.head? ≠ some '\n') :
    splitLines (c :: t) = consLine c (splitLines t) := by
  rw [splitLines]
  · rintro rest rfl rfl
    exact hr rfl rfl
  · exact hc

/-- A text without line feeds is one line. -/
theorem splitLines_of_not_mem (h : '\n' ∉ line) : splitLines line = [line] := by
  induction line with
  | nil => rfl
  | cons c cs ih =>
    obtain ⟨hc, hcs⟩ := List.ne_and_not_mem_of_not_mem_cons h
    rw [splitLines_cons hc.symm fun _ hhead => hcs (List.mem_of_head? hhead), ih hcs]
    rfl

/-- **A line end ends the line before it.** -/
theorem splitLines_append_lineEnd (h : '\n' ∉ line) (hr : line.getLast? ≠ some '\r') (e : LineEnd)
    (t : Text) : splitLines (line ++ e.text ++ t) = line :: splitLines t := by
  induction line with
  | nil => cases e <;> rfl
  | cons c cs ih =>
    obtain ⟨hc, hcs⟩ := List.ne_and_not_mem_of_not_mem_cons h
    have hrcs : cs.getLast? ≠ some '\r' := by
      intro hlast
      rw [List.getLast?_cons, hlast] at hr
      exact hr rfl
    have hhead : c = '\r' → (cs ++ e.text ++ t).head? ≠ some '\n' := by
      rintro rfl
      cases cs with
      | nil => exact absurd rfl hr
      | cons d ds =>
        intro hd
        exact hcs (Option.some.inj hd ▸ List.mem_cons_self ..)
    rw [List.cons_append, List.cons_append, splitLines_cons hc.symm hhead, ih hcs hrcs]
    rfl

/-- **Lines are cut at any line ends.** -/
theorem splitLines_joinWith (h : AreLines lines) (hlength : lines.length = ends.length + 1) :
    splitLines (joinWith ends lines) = lines := by
  induction ends generalizing lines with
  | nil =>
    obtain ⟨line, rfl⟩ := List.length_eq_one_iff.1 hlength
    have hjoin : joinWith [] [line] = line := List.append_nil line
    rw [hjoin, splitLines_of_not_mem (h.not_mem_lineFeed line (List.mem_singleton_self line))]
  | cons e ends ih =>
    -- another line follows the first
    obtain ⟨line, _ | ⟨next, rest⟩, rfl⟩ := List.exists_of_length_succ _ hlength
    · simp at hlength
    · obtain ⟨hline, hlines⟩ := List.forall_mem_cons.1 h.not_mem_lineFeed
      obtain ⟨hreturn, hreturns⟩ := List.forall_mem_cons.1 h.getLast?_ne_return
      rw [joinWith, splitLines_append_lineEnd hline hreturn,
        ih ⟨hlines, hreturns⟩ (Nat.succ.inj hlength)]

theorem consLine_ne_singleton_nil (c : Char) (lines : List Text) : consLine c lines ≠ [[]] := by
  cases lines <;> simp [consLine]

/-- The empty text is the one whose only line is empty. -/
theorem splitLines_eq_singleton_nil_iff : splitLines t = [[]] ↔ t = [] := by
  refine ⟨?_, by rintro rfl; rfl⟩
  fun_cases splitLines t with
  | case1 => exact fun _ => rfl
  | case2 cs => exact fun h => absurd (List.cons.inj h).2 (splitLines_ne_nil cs)
  | case3 cs => exact fun h => absurd (List.cons.inj h).2 (splitLines_ne_nil cs)
  | case4 c cs => exact fun h => absurd h (consLine_ne_singleton_nil c _)

/-- A line is without line feeds, and all of it stands in the text. -/
theorem of_mem_splitLines (h : line ∈ splitLines t) : '\n' ∉ line ∧ line ⊆ t := by
  induction t using splitLines.induct generalizing line with
  | case1 =>
    rw [List.mem_singleton.1 h]
    exact ⟨List.not_mem_nil, List.nil_subset _⟩
  | case2 cs ih =>
    rcases List.mem_cons.1 h with rfl | h
    · exact ⟨List.not_mem_nil, List.nil_subset _⟩
    · exact (ih h).imp_right fun hsub _ hc => List.mem_cons_of_mem _ (List.mem_cons_of_mem _ (hsub hc))
  | case3 cs ih =>
    rcases List.mem_cons.1 h with rfl | h
    · exact ⟨List.not_mem_nil, List.nil_subset _⟩
    · exact (ih h).imp_right fun hsub => List.Subset.trans hsub (List.subset_cons_self _ _)
  | case4 c cs hreturn hc ih =>
    obtain ⟨first, lines, hcs⟩ := List.exists_cons_of_ne_nil (splitLines_ne_nil cs)
    rw [splitLines, hcs, consLine] at h
    · rw [hcs] at ih
      rcases List.mem_cons.1 h with rfl | h
      · obtain ⟨hfirst, hsub⟩ := ih (List.mem_cons_self ..)
        exact ⟨List.not_mem_cons_of_ne_of_not_mem (Ne.symm hc) hfirst, List.cons_subset_cons c hsub⟩
      · exact (ih (List.mem_cons_of_mem _ h)).imp_right fun hsub =>
          List.Subset.trans hsub (List.subset_cons_self _ _)
    · exact hreturn
    · exact hc

/-- The lines of a text without carriage returns are without line ends. -/
theorem isLine_of_mem_splitLines (h : line ∈ splitLines t) (ht : '\r' ∉ t) : IsLine line := by
  obtain ⟨hline, hsub⟩ := of_mem_splitLines h
  exact fun c hc => ⟨ne_of_mem_of_not_mem hc hline, ne_of_mem_of_not_mem (hsub hc) ht⟩

/-- Where every line end is a line feed nothing is to be unified. -/
theorem unifyLineEnds_of_not_mem (h : '\r' ∉ t) : unifyLineEnds t = t := by
  induction t using unifyLineEnds.induct with
  | case1 => rfl
  | case2 cs => exact absurd (List.mem_cons_self ..) h
  | case3 cs => exact absurd (List.mem_cons_self ..) h
  | case4 c cs _ hc ih =>
    rw [unifyLineEnds, ih fun hmem => h (List.mem_cons_of_mem _ hmem)]
    all_goals assumption

/-! ### Lines that all end -/

/-- A text is cut at the first mark. -/
theorem splitFirst_append_mark {mark : Char} (h : mark ∉ line) (t : Text) :
    splitFirst mark (line ++ mark :: t) = some (line, t) := by
  induction line with
  | nil => exact if_pos rfl
  | cons c cs ih =>
    obtain ⟨hc, hcs⟩ := List.ne_and_not_mem_of_not_mem_cons h
    rw [List.cons_append, splitFirst, if_neg hc.symm, ih hcs]
    rfl

/-- A text that is cut at a mark has it between the two parts, and not in the first. -/
theorem splitFirst_eq_some_iff {mark : Char} {s u : Text} :
    splitFirst mark t = some (s, u) ↔ mark ∉ s ∧ t = s ++ mark :: u := by
  constructor
  · intro h
    induction t generalizing s with
    | nil => cases h
    | cons c cs ih =>
      rw [splitFirst] at h
      split at h
      · rename_i hc
        obtain ⟨rfl, rfl⟩ := Prod.mk.inj (Option.some.inj h)
        exact ⟨List.not_mem_nil, hc ▸ rfl⟩
      · rename_i hc
        obtain ⟨⟨s', u'⟩, hcut, hcons⟩ := Option.map_eq_some_iff.1 h
        obtain ⟨rfl, rfl⟩ := Prod.mk.inj hcons
        obtain ⟨hs, rfl⟩ := ih hcut
        exact ⟨List.not_mem_cons_of_ne_of_not_mem (Ne.symm hc) hs, rfl⟩
  · rintro ⟨hs, rfl⟩
    exact splitFirst_append_mark hs u

/-- The parts before and behind a mark can be told from the text, if the part before is without the
mark. -/
theorem append_mark_inj {mark : Char} {s s' t t' : Text} (hs : mark ∉ s) (hs' : mark ∉ s') :
    s ++ mark :: t = s' ++ mark :: t' ↔ s = s' ∧ t = t' := by
  constructor
  · intro h
    have hcut := splitFirst_append_mark hs t
    rw [h, splitFirst_append_mark hs' t'] at hcut
    obtain ⟨rfl, rfl⟩ := Prod.mk.inj (Option.some.inj hcut)
    exact ⟨rfl, rfl⟩
  · rintro ⟨rfl, rfl⟩
    rfl

/-- What is without the mark and stands at the beginning of a text stands before the first mark. -/
theorem append_mark_eq_append_iff {mark : Char} {s t u v : Text} (hu : mark ∉ u) :
    s ++ mark :: t = u ++ v ↔ ∃ w, s = u ++ w ∧ v = w ++ mark :: t := by
  rw [List.append_eq_append_iff]
  constructor
  · rintro (⟨w, rfl, hw⟩ | ⟨w, rfl, hw⟩)
    · cases w with
      | nil => exact ⟨[], (List.append_nil _).symm.trans (List.append_nil _).symm, hw.symm⟩
      | cons c w =>
        obtain ⟨rfl, -⟩ := List.cons.inj hw
        exact absurd (List.mem_append_right _ (List.mem_cons_self ..)) hu
    · exact ⟨w, rfl, hw⟩
  · rintro ⟨w, rfl, rfl⟩
    exact Or.inr ⟨w, rfl, rfl⟩

/-- **Lines that end in a line feed each can be told from the text.** -/
theorem unlines_inj (h : ∀ line ∈ lines, '\n' ∉ line) (h' : ∀ line ∈ lines', '\n' ∉ line) :
    unlines lines = unlines lines' ↔ lines = lines' := by
  refine ⟨fun heq => ?_, congrArg unlines⟩
  induction lines generalizing lines' with
  | nil =>
    cases lines' with
    | nil => rfl
    | cons line' lines' => simp [unlines] at heq
  | cons line lines ih =>
    cases lines' with
    | nil => simp [unlines] at heq
    | cons line' lines' =>
      obtain ⟨hline, hlines⟩ := List.forall_mem_cons.1 h
      obtain ⟨hline', hlines'⟩ := List.forall_mem_cons.1 h'
      have hcut : line ++ '\n' :: unlines lines = line' ++ '\n' :: unlines lines' := by
        simpa [unlines] using heq
      obtain ⟨rfl, hrest⟩ := (append_mark_inj hline hline').1 hcut
      rw [ih hlines hlines' hrest]

/-! ### Pieces between marks -/

variable {mark : Char} {piece : Text}

theorem splitAll_ne_nil (mark : Char) (t : Text) : splitAll mark t ≠ [] := by
  cases t with
  | nil => exact List.cons_ne_nil _ _
  | cons c t =>
    rw [splitAll]
    split
    · exact List.cons_ne_nil _ _
    · split <;> exact List.cons_ne_nil _ _

/-- The pieces between the marks have no marks. -/
theorem not_mem_of_mem_splitAll (h : piece ∈ splitAll mark t) : mark ∉ piece := by
  induction t generalizing piece with
  | nil =>
    rw [List.mem_singleton.1 h]
    exact List.not_mem_nil
  | cons c t ih =>
    rw [splitAll] at h
    split at h
    · rename_i hnil
      exact absurd hnil (splitAll_ne_nil mark t)
    · rename_i first pieces heq
      rw [heq] at ih
      split at h
      · rcases List.mem_cons.1 h with rfl | h
        · exact List.not_mem_nil
        · exact ih h
      · rename_i hc
        rcases List.mem_cons.1 h with rfl | h
        · exact List.not_mem_cons_of_ne_of_not_mem (Ne.symm hc) (ih (List.mem_cons_self ..))
        · exact ih (List.mem_cons_of_mem _ h)

theorem splitAll_of_not_mem (h : mark ∉ t) : splitAll mark t = [t] := by
  induction t with
  | nil => rfl
  | cons c t ih =>
    obtain ⟨hc, ht⟩ := List.ne_and_not_mem_of_not_mem_cons h
    rw [splitAll, ih ht]
    exact if_neg (Ne.symm hc)

/-- The pieces of a text with their marks are the text with one mark more. -/
theorem unlines_splitAll (t : Text) : unlines (splitAll '\n' t) = t ++ ['\n'] := by
  induction t with
  | nil => rfl
  | cons c t ih =>
    rw [splitAll]
    split
    · rename_i hnil
      exact absurd hnil (splitAll_ne_nil '\n' t)
    · rename_i first pieces heq
      rw [heq] at ih
      split
      · rename_i hc
        rw [hc, List.cons_append, ← ih]
        rfl
      · rw [List.cons_append, ← ih]
        rfl

end Text
end Galley
