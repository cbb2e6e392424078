/-
# Number columns

What a highlighted report takes for number columns at the beginning of a line, said without a reader:
spaces, digits and a bar twice over (`IsSplitColumns`), or spaces, digits and a colon
(`IsInlineColumn`).  Spaces and digits may be missing.  The digits are those of any script.

A line begins with columns in one way only, and the readers find it (`cutSplitColumns?_eq_some_iff`,
`cutInlineColumn?_eq_some_iff`).  A bar column without digits is the hard case: the space before the
bar is the last of the leading spaces then.  No line begins with the columns of both layouts
(`cutSplitColumns?_of_isInlineColumn`), because a bar stands in one of them where a colon stands in
the other.
-/

import Galley.Highlight.Report
import Galley.Proofs.Text.Runs

namespace Galley

namespace Highlight
namespace Report

variable {t a rest columns : Text}

/-- Whether a text is spaces only. -/
def IsSpaces (t : Text) : Prop := ∀ c ∈ t, (c == ' ') = true

/-- Whether a text is digits only. -/
def IsDigits (t : Text) : Prop := ∀ c ∈ t, Text.isDecimal c = true

/-- Whether a text is a number column with a bar behind it. -/
def IsBarColumn (t : Text) : Prop :=
  ∃ spaces digits, IsSpaces spaces ∧ IsDigits digits ∧ t = spaces ++ digits ++ [' ', '|']

/-- Whether a text is the two number columns of the split layout. -/
def IsSplitColumns (t : Text) : Prop :=
  ∃ left right, IsBarColumn left ∧ IsBarColumn right ∧ t = left ++ right ++ [' ']

/-- Whether a text is the number column of the inline layout. -/
def IsInlineColumn (t : Text) : Prop :=
  ∃ spaces digits, IsSpaces spaces ∧ IsDigits digits ∧ t = spaces ++ digits ++ [':', ' ']

/-- The spaces and the digits at the beginning of a text, and the rest. -/
theorem spaces_digits_iff {spaces digits : Text} :
    t.takeWhile (· == ' ') = spaces ∧ (t.dropWhile (· == ' ')).takeWhile Text.isDecimal = digits ∧
        (t.dropWhile (· == ' ')).dropWhile Text.isDecimal = rest ↔
      t = spaces ++ (digits ++ rest) ∧ IsSpaces spaces ∧ IsDigits digits ∧
        (∀ c ∈ (digits ++ rest).head?, (c == ' ') = false) ∧
        ∀ c ∈ rest.head?, Text.isDecimal c = false := by
  constructor
  · rintro ⟨hspaces, hdigits⟩
    obtain ⟨hafter, hd, hrest⟩ := run_iff.1 hdigits
    obtain ⟨rfl, hs, hhead⟩ := run_iff.1 ⟨hspaces, hafter⟩
    exact ⟨rfl, hs, hd, hhead, hrest⟩
  · rintro ⟨rfl, hs, hd, hhead, hrest⟩
    obtain ⟨hspaces, hafter⟩ := run_iff.2 ⟨rfl, hs, hhead⟩
    rw [hafter]
    exact ⟨hspaces, run_iff.2 ⟨rfl, hd, hrest⟩⟩

/-- What the readers of columns look at: the spaces and the digits at the beginning of a text. -/
theorem exists_spaces_digits (t : Text) :
    ∃ spaces digits rest, t.takeWhile (· == ' ') = spaces ∧
      (t.dropWhile (· == ' ')).takeWhile Text.isDecimal = digits ∧
      (t.dropWhile (· == ' ')).dropWhile Text.isDecimal = rest :=
  ⟨_, _, _, rfl, rfl, rfl⟩

theorem IsSpaces.append_space {spaces : Text} (h : IsSpaces spaces) : IsSpaces (spaces ++ [' ']) :=
  List.forall_mem_append.2 ⟨h, by simp⟩

/-- Of spaces the last one can be split off. -/
theorem IsSpaces.exists_append_space {spaces : Text} (h : IsSpaces spaces) (hne : spaces ≠ []) :
    ∃ s, IsSpaces s ∧ spaces = s ++ [' '] := by
  have hlast : spaces.getLast hne = ' ' := by simpa using h _ (List.getLast_mem hne)
  refine ⟨spaces.dropLast, fun c hc => h c (List.dropLast_subset _ hc), ?_⟩
  rw [← hlast, List.dropLast_concat_getLast]

/-- Digits are no spaces. -/
theorem IsDigits.head?_ne_space {digits : Text} (h : IsDigits digits) (hne : digits ≠ [])
    (rest : Text) : ∀ c ∈ (digits ++ rest).head?, (c == ' ') = false := by
  obtain ⟨d, ds, rfl⟩ := List.exists_cons_of_ne_nil hne
  intro c hc
  obtain rfl : d = c := Option.some.inj hc
  rw [beq_eq_false_iff_ne]
  rintro rfl
  exact absurd (h ' ' (List.mem_cons_self ..)) (by decide)

/-! ### Reading columns -/

/-- **A text begins with a bar column in one way only**, and the reader finds it. -/
theorem cutBarColumn?_eq_some_iff :
    cutBarColumn? t = some (columns, rest) ↔ IsBarColumn columns ∧ t = columns ++ rest := by
  constructor
  · obtain ⟨spaces, digits, after, hspaces, hdigits, hafter⟩ := exists_spaces_digits t
    obtain ⟨rfl, hs, hd, -, -⟩ := spaces_digits_iff.1 ⟨hspaces, hdigits, hafter⟩
    intro h
    rw [cutBarColumn?, hspaces, hdigits, hafter] at h
    split at h
    · -- without digits the last space belongs to the bar
      split at h
      · cases h
      · rename_i hne
        obtain ⟨rfl, rfl⟩ := Prod.mk.inj (Option.some.inj h)
        obtain ⟨s, hs', rfl⟩ := hs.exists_append_space (by simpa using hne)
        exact ⟨⟨s, [], hs', hd, by simp⟩, by simp⟩
    · obtain ⟨rfl, rfl⟩ := Prod.mk.inj (Option.some.inj h)
      exact ⟨⟨spaces, _, hs, hd, by simp⟩, by simp⟩
    · cases h
  · rintro ⟨⟨spaces, digits, hs, hd, rfl⟩, rfl⟩
    have hbar : ∀ c ∈ ('|' :: rest).head?, Text.isDecimal c = false := by
      simp only [List.head?_cons, Option.mem_some_iff, forall_eq']
      decide
    have hspace : ∀ c ∈ (' ' :: '|' :: rest).head?, Text.isDecimal c = false := by
      simp only [List.head?_cons, Option.mem_some_iff, forall_eq']
      decide
    rw [cutBarColumn?]
    cases digits with
    | nil =>
      obtain ⟨hspaces, hdigits, hafter⟩ := spaces_digits_iff.2
        (⟨by simp, hs.append_space, hd, by simp, hbar⟩ :
          spaces ++ [] ++ [' ', '|'] ++ rest = (spaces ++ [' ']) ++ ([] ++ '|' :: rest) ∧ _)
      rw [hspaces, hdigits, hafter]
      simp
    | cons d ds =>
      obtain ⟨hspaces, hdigits, hafter⟩ := spaces_digits_iff.2
        (⟨by simp, hs, hd, hd.head?_ne_space (List.cons_ne_nil d ds) _, hspace⟩ :
          spaces ++ d :: ds ++ [' ', '|'] ++ rest = spaces ++ (d :: ds ++ ' ' :: '|' :: rest) ∧ _)
      rw [hspaces, hdigits, hafter]
      simp

/-- **The columns of the split layout** are found where there are any. -/
theorem cutSplitColumns?_eq_some_iff :
    cutSplitColumns? t = some (columns, rest) ↔ IsSplitColumns columns ∧ t = columns ++ rest := by
  rw [cutSplitColumns?]
  constructor
  · intro h
    obtain ⟨⟨left, after⟩, hleft, hmore⟩ := Option.bind_eq_some_iff.1 h
    obtain ⟨⟨right, after'⟩, hright, hend⟩ := Option.bind_eq_some_iff.1 hmore
    obtain ⟨hl, rfl⟩ := cutBarColumn?_eq_some_iff.1 hleft
    obtain ⟨hr, rfl⟩ := cutBarColumn?_eq_some_iff.1 hright
    dsimp only at hend
    split at hend
    · obtain ⟨rfl, rfl⟩ := Prod.mk.inj (Option.some.inj hend)
      exact ⟨⟨left, right, hl, hr, rfl⟩, by simp⟩
    · cases hend
  · rintro ⟨⟨left, right, hl, hr, rfl⟩, rfl⟩
    refine Option.bind_eq_some_iff.2 ⟨(left, right ++ ' ' :: rest), ?_, ?_⟩
    · exact cutBarColumn?_eq_some_iff.2 ⟨hl, by simp⟩
    · exact Option.bind_eq_some_iff.2
        ⟨(right, ' ' :: rest), cutBarColumn?_eq_some_iff.2 ⟨hr, rfl⟩, rfl⟩

/-- **The column of the inline layout** is found where there is one. -/
theorem cutInlineColumn?_eq_some_iff :
    cutInlineColumn? t = some (columns, rest) ↔ IsInlineColumn columns ∧ t = columns ++ rest := by
  constructor
  · obtain ⟨spaces, digits, after, hspaces, hdigits, hafter⟩ := exists_spaces_digits t
    obtain ⟨rfl, hs, hd, -, -⟩ := spaces_digits_iff.1 ⟨hspaces, hdigits, hafter⟩
    intro h
    rw [cutInlineColumn?, hspaces, hdigits, hafter] at h
    split at h
    · obtain ⟨rfl, rfl⟩ := Prod.mk.inj (Option.some.inj h)
      exact ⟨⟨spaces, digits, hs, hd, by simp⟩, by simp⟩
    · cases h
  · rintro ⟨⟨spaces, digits, hs, hd, rfl⟩, rfl⟩
    have hcolon : ∀ c ∈ (':' :: ' ' :: rest).head?, Text.isDecimal c = false := by
      simp only [List.head?_cons, Option.mem_some_iff, forall_eq']
      decide
    have hhead : ∀ c ∈ (digits ++ ':' :: ' ' :: rest).head?, (c == ' ') = false := by
      cases digits with
      | nil => simp
      | cons d ds => exact hd.head?_ne_space (List.cons_ne_nil d ds) _
    obtain ⟨hspaces, hdigits, hafter⟩ := spaces_digits_iff.2
      (⟨by simp, hs, hd, hhead, hcolon⟩ :
        spaces ++ digits ++ [':', ' '] ++ rest = spaces ++ (digits ++ ':' :: ' ' :: rest) ∧ _)
    rw [cutInlineColumn?, hspaces, hdigits, hafter]
    simp

/-! ### Columns of either layout -/

/-- Whether a text is the number columns of a layout. -/
def IsColumns (t : Text) : Prop := IsSplitColumns t ∨ IsInlineColumn t

/-- Whether a character can stand before the mark of a column. -/
def isBlankOrDigit (c : Char) : Bool := c == ' ' || Text.isDecimal c

theorem isBlankOrDigit_of_mem {spaces digits : Text} (hs : IsSpaces spaces) (hd : IsDigits digits) :
    ∀ c ∈ spaces ++ digits, isBlankOrDigit c = true := by
  refine List.forall_mem_append.2 ⟨fun c hc => ?_, fun c hc => ?_⟩
  · rw [isBlankOrDigit, hs c hc, Bool.true_or]
  · rw [isBlankOrDigit, hd c hc, Bool.or_true]

theorem dropWhile_isBlankOrDigit {c : Char} (ha : ∀ c ∈ a, isBlankOrDigit c = true)
    (hc : isBlankOrDigit c = false) (t : Text) : (a ++ c :: t).dropWhile isBlankOrDigit = c :: t :=
  (run_iff.2 ⟨rfl, ha, by rintro _ ⟨⟩; exact hc⟩).2

/-- Columns begin with a blank, a digit or the mark of the inline layout. -/
theorem IsColumns.head? (h : IsColumns t) :
    ∃ c, t.head? = some c ∧ (isBlankOrDigit c = true ∨ c = ':') := by
  rcases h with ⟨_, right, ⟨s, d, hs, hd, rfl⟩, -, rfl⟩ | ⟨s, d, hs, hd, rfl⟩
  · have hcolumn : ∀ c ∈ s ++ d ++ [' '], isBlankOrDigit c = true :=
      List.forall_mem_append.2 ⟨isBlankOrDigit_of_mem hs hd, List.forall_mem_singleton.2 rfl⟩
    obtain ⟨c, u, hcons⟩ := List.exists_cons_of_ne_nil
      (List.append_ne_nil_of_right_ne_nil (s ++ d) (List.cons_ne_nil ' ' []))
    refine ⟨c, ?_, Or.inl (hcolumn c (hcons ▸ List.mem_cons_self ..))⟩
    have hsplit : s ++ d ++ [' ', '|'] ++ right ++ [' '] = s ++ d ++ [' '] ++ ('|' :: right ++ [' ']) := by
      simp
    rw [hsplit, hcons]
    rfl
  · cases hcons : s ++ d with
    | nil => exact ⟨':', rfl, Or.inr rfl⟩
    | cons c u =>
      exact ⟨c, rfl, Or.inl (isBlankOrDigit_of_mem hs hd c (hcons ▸ List.mem_cons_self ..))⟩

/-- Columns have a bar or a colon. -/
theorem IsColumns.mem (h : IsColumns t) : '|' ∈ t ∨ ':' ∈ t := by
  rcases h with ⟨_, right, ⟨s, d, -, -, rfl⟩, -, rfl⟩ | ⟨s, d, -, -, rfl⟩ <;> simp

/-- A line does not begin with the columns of both layouts. -/
theorem cutSplitColumns?_of_isInlineColumn (h : IsInlineColumn columns) (rest : Text) :
    cutSplitColumns? (columns ++ rest) = none := by
  refine Option.eq_none_iff_forall_ne_some.2 fun ⟨u, v⟩ hx => ?_
  obtain ⟨⟨_, right, ⟨s, d, hs, hd, rfl⟩, -, rfl⟩, hline⟩ := cutSplitColumns?_eq_some_iff.1 hx
  obtain ⟨s', d', hs', hd', rfl⟩ := h
  -- behind spaces and digits stands a colon, and would stand a bar
  have hcolon : (s' ++ d' ++ [':', ' '] ++ rest).dropWhile isBlankOrDigit = ':' :: ' ' :: rest := by
    have hdrop := dropWhile_isBlankOrDigit (c := ':') (isBlankOrDigit_of_mem hs' hd') (by decide)
      (' ' :: rest)
    simpa using hdrop
  have hbar : (s ++ d ++ [' ', '|'] ++ right ++ [' '] ++ v).dropWhile isBlankOrDigit =
      '|' :: (right ++ ' ' :: v) := by
    have hdrop := dropWhile_isBlankOrDigit (a := s ++ d ++ [' ']) (c := '|')
      (List.forall_mem_append.2 ⟨isBlankOrDigit_of_mem hs hd, List.forall_mem_singleton.2 rfl⟩)
      (by decide) (right ++ ' ' :: v)
    simpa using hdrop
  rw [hline, hbar] at hcolon
  exact absurd (List.cons.inj hcolon).1 (by decide)

/-- **The columns of a line** are found where there are any. -/
theorem numbered?_eq_some_iff {ss : List Span} :
    numbered? t = some ss ↔ ∃ columns rest, IsColumns columns ∧ t = columns ++ rest ∧
      ss = [⟨.number, columns⟩, record rest] := by
  rw [numbered?, Option.map_eq_some_iff]
  constructor
  · rintro ⟨⟨columns, rest⟩, hcut, rfl⟩
    rcases Option.or_eq_some_iff.1 hcut with hsplit | ⟨-, hinline⟩
    · obtain ⟨hcolumns, ht⟩ := cutSplitColumns?_eq_some_iff.1 hsplit
      exact ⟨columns, rest, Or.inl hcolumns, ht, rfl⟩
    · obtain ⟨hcolumn, ht⟩ := cutInlineColumn?_eq_some_iff.1 hinline
      exact ⟨columns, rest, Or.inr hcolumn, ht, rfl⟩
  · rintro ⟨columns, rest, hcolumns | hcolumn, rfl, rfl⟩
    · exact ⟨(columns, rest), by
        rw [cutSplitColumns?_eq_some_iff.2 ⟨hcolumns, rfl⟩, Option.some_or], rfl⟩
    · exact ⟨(columns, rest), by
        rw [cutSplitColumns?_of_isInlineColumn hcolumn, cutInlineColumn?_eq_some_iff.2 ⟨hcolumn, rfl⟩,
          Option.none_or], rfl⟩

end Report
end Highlight
end Galley
