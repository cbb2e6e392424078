/-
# Lower case word by word

The only character whose lower case depends on its neighbours is the capital sigma, and no blank is
looked past for them: blanks are neither cased nor passed over.  So a blank cuts a text for
lower-casing as it cuts it into words (`lowerFrom_append_blank`).  Blanks are their own lower case,
and nothing else becomes blank or empty in lower case (`isBlank_of_mem_lowerFrom`,
`lowerFrom_eq_nil_iff`): a matter of the two tables and the table of capitals, checked on the 29
blank code points.

Hence the words of a text in lower case are its words, each in lower case (`words_lower`), and to
collapse the blanks of a text and to write it in lower case can be done in either order
(`lower_trim_collapse`).
-/

import Galley.Proofs.Text.Words
import Galley.Text.LowerCase

namespace Galley
namespace Text

variable {b c : Char} {s t w : Text} {followsCased precedesCased : Bool}

/-! ### The tables at the blanks -/

/-- The blank code points. -/
def blankCodes : List Nat :=
  List.range' 9 5 ++ List.range' 0x1C 5 ++ [0x85, 0xA0, 0x1680] ++ List.range' 0x2000 11 ++
    [0x2028, 0x2029, 0x202F, 0x205F, 0x3000]

theorem mem_blankCodes (hb : isBlank b = true) : b.toNat ∈ blankCodes := by
  simp only [isBlank, Bool.or_eq_true, Bool.and_eq_true, decide_eq_true_eq, beq_iff_eq] at hb
  simp only [blankCodes, List.mem_append, List.mem_range'_1, List.mem_cons, List.not_mem_nil,
    or_false]
  omega

theorem isCased_blank (hb : isBlank b = true) : isCased b = false :=
  (by decide +kernel : ∀ n ∈ blankCodes, CodeRange.covers casedRanges n = false) _
    (mem_blankCodes hb)

theorem isCaseIgnorable_blank (hb : isBlank b = true) : isCaseIgnorable b = false :=
  (by decide +kernel : ∀ n ∈ blankCodes, CodeRange.covers caseIgnorableRanges n = false) _
    (mem_blankCodes hb)

theorem lowerDistance_blank (hb : isBlank b = true) : lowerDistance capitalRanges b.toNat = 0 :=
  (by decide +kernel : ∀ n ∈ blankCodes, lowerDistance capitalRanges n = 0) _
    (mem_blankCodes hb)

/-- A distance other than zero is that of a range with the code point in it. -/
theorem lowerDistance_cases (table : List CapitalRange) (n : Nat) :
    lowerDistance table n = 0 ∨
      ∃ r ∈ table, r.first ≤ n ∧ n ≤ r.last ∧ lowerDistance table n = r.distance := by
  induction table with
  | nil => exact Or.inl rfl
  | cons r rs ih =>
    unfold lowerDistance
    split
    · exact Or.inl rfl
    · split
      · rename_i hfirst hlast
        exact Or.inr ⟨r, List.mem_cons_self .., by omega, hlast.1, rfl⟩
      · obtain h | ⟨r', hr', h⟩ := ih
        · exact Or.inl h
        · exact Or.inr ⟨r', List.mem_cons_of_mem _ hr', h⟩

/-- No capital has a blank for its lower case. -/
theorem not_blank_of_capital :
    ∀ r ∈ capitalRanges, ∀ n ∈ blankCodes,
      ¬((r.first : Int) + r.distance ≤ n ∧ (n : Int) ≤ r.last + r.distance) := by
  decide +kernel

/-- A code point that gives a blank character is that of the character. -/
theorem mem_blankCodes_of_isBlank_ofNat {n : Nat} (h : isBlank (Char.ofNat n) = true) :
    n ∈ blankCodes := by
  replace h := mem_blankCodes h
  by_cases hn : n.isValidChar
  · rw [Char.ofNat, dif_pos hn] at h
    exact h
  · rw [Char.ofNat, dif_neg hn] at h
    exact absurd h (by decide)

/-! ### Characters -/

/-- A blank is its own lower case. -/
theorem lowerChar_blank (hb : isBlank b = true) :
    lowerChar followsCased precedesCased b = [b] := by
  have hsigma : b ≠ '\u03A3' := by rintro rfl; exact absurd hb (by decide)
  have hdotted : b ≠ '\u0130' := by rintro rfl; exact absurd hb (by decide)
  rw [lowerChar, if_neg hsigma, if_neg hdotted, lowerDistance_blank hb, Int.add_zero,
    Int.toNat_natCast, Char.ofNat_toNat]

/-- What is not blank is not blank in lower case. -/
theorem isBlank_of_mem_lowerChar (hc : isBlank c = false) :
    ∀ d ∈ lowerChar followsCased precedesCased c, isBlank d = false := by
  unfold lowerChar
  split
  · rw [List.forall_mem_singleton]
    split <;> decide
  split
  · exact List.forall_mem_cons.2 ⟨by decide, List.forall_mem_singleton.2 (by decide)⟩
  intro d hd
  rw [List.mem_singleton] at hd
  obtain h | ⟨r, hr, hfirst, hlast, h⟩ := lowerDistance_cases capitalRanges c.toNat
  · rw [hd, h, Int.add_zero, Int.toNat_natCast, Char.ofNat_toNat]
    exact hc
  · rw [hd, h, ← Bool.not_eq_true]
    intro hblank
    have hcode := mem_blankCodes_of_isBlank_ofNat hblank
    have hpos : ((c.toNat : Int) + r.distance).toNat ≠ 0 := by
      intro hzero
      rw [hzero] at hcode
      exact absurd hcode (by decide)
    exact not_blank_of_capital r hr _ hcode (by omega)

theorem lowerChar_ne_nil : lowerChar followsCased precedesCased c ≠ [] := by
  unfold lowerChar
  split
  · exact List.cons_ne_nil _ _
  split <;> exact List.cons_ne_nil _ _

/-! ### Texts -/

/-- A blank ends the search for a cased character. -/
theorem casedAhead_append_blank (hb : isBlank b = true) (s t : Text) :
    casedAhead (s ++ b :: t) = casedAhead s := by
  induction s with
  | nil =>
    rw [List.nil_append, casedAhead,
      List.dropWhile_cons_of_neg (by simp [isCaseIgnorable_blank hb])]
    exact isCased_blank hb
  | cons c s ih =>
    cases hc : isCaseIgnorable c with
    | true =>
      rw [casedAhead, casedAhead] at ih
      rw [List.cons_append, casedAhead, casedAhead, List.dropWhile_cons_of_pos hc,
        List.dropWhile_cons_of_pos hc, ih]
    | false =>
      rw [List.cons_append, casedAhead, casedAhead, List.dropWhile_cons_of_neg (by simp [hc]),
        List.dropWhile_cons_of_neg (by simp [hc])]

/-- **A blank cuts a text for lower-casing.** -/
theorem lowerFrom_append_blank (hb : isBlank b = true) (s t : Text) :
    lowerFrom followsCased (s ++ b :: t) = lowerFrom followsCased s ++ b :: lower t := by
  induction s generalizing followsCased with
  | nil =>
    simp only [List.nil_append, lowerFrom, lowerChar_blank hb, isCaseIgnorable_blank hb,
      isCased_blank hb]
    rfl
  | cons c s ih =>
    rw [List.cons_append, lowerFrom, lowerFrom, casedAhead_append_blank hb, ih, List.append_assoc]

/-- Without blanks a text has none in lower case. -/
theorem isBlank_of_mem_lowerFrom (hw : ∀ c ∈ w, isBlank c = false) :
    ∀ d ∈ lowerFrom followsCased w, isBlank d = false := by
  induction w generalizing followsCased with
  | nil => simp [lowerFrom]
  | cons c w ih =>
    obtain ⟨hc, hw⟩ := List.forall_mem_cons.1 hw
    rw [lowerFrom, List.forall_mem_append]
    exact ⟨isBlank_of_mem_lowerChar hc, ih hw⟩

theorem lowerFrom_eq_nil_iff : lowerFrom followsCased t = [] ↔ t = [] := by
  cases t with
  | nil => exact iff_of_true rfl rfl
  | cons c t =>
    rw [lowerFrom, List.append_eq_nil_iff]
    exact iff_of_false (fun h => lowerChar_ne_nil h.1) (List.cons_ne_nil c t)

/-- A word stays one word in lower case. -/
theorem words_lower_of_solid (hw : ∀ c ∈ w, isBlank c = false) :
    words (lower w) = (words w).map lower := by
  rw [words_of_solid hw, lower, words_of_solid (isBlank_of_mem_lowerFrom hw)]
  by_cases hne : w = []
  · rw [if_pos hne, if_pos (lowerFrom_eq_nil_iff.2 hne), List.map_nil]
  · rw [if_neg hne, if_neg fun h => hne (lowerFrom_eq_nil_iff.1 h), List.map_singleton, lower]

/-- **The words of a text in lower case are its words in lower case.** -/
theorem words_lower (t : Text) : words (lower t) = (words t).map lower := by
  induction t using word_induction with
  | word w hw => exact words_lower_of_solid hw
  | blank w b t hw hb ih =>
    rw [lower, lowerFrom_append_blank hb, ← lower, words_append_blank hb, words_append_blank hb,
      List.map_append, words_lower_of_solid hw, ih]

theorem lower_join (ws : List Text) : lower (join [' '] ws) = join [' '] (ws.map lower) := by
  induction ws with
  | nil => rfl
  | cons w ws ih =>
    cases ws with
    | nil => simp [join]
    | cons v ws =>
      rw [join_cons_cons, lower, lowerFrom_append_blank (by decide), ih, List.map_cons,
        List.map_cons, List.map_cons, join_cons_cons]
      rfl

/-- **Blanks are collapsed before or after lower-casing with the same result.** -/
theorem lower_trim_collapse (t : Text) :
    lower (trim (collapse t)) = trim (collapse (lower t)) := by
  rw [trim_collapse, lower_join, ← words_lower, ← trim_collapse]

end Text
end Galley
