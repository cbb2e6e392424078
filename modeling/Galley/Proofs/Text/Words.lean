/-
# The words of a text

The words of a text are what stands between its blanks, the runs of a list whose gaps they are.
Cutting at a blank cuts the words (`words_append_blank`), and everything else about words follows
from that one equation and from `word_induction`: a text is a word, or a word, a blank and a text.

To write every run of blanks as one space and to trim is to write the words of a text with single
spaces between them (`trim_collapse`).  So where blanks are ignored, lines are compared by their
words.

`HasWords` says what words are without cutting: runs of what is not blank, each as long as it can
be.  A text has exactly the words that cutting finds (`hasWords_iff`), and words written with single
spaces between them are read back (`words_join`).
-/

import Galley.Proofs.Text.Runs
import Galley.Text.Blank

namespace Galley
namespace Text

variable {b : Char} {w t : Text}

/-- The words of a text: what stands between its blanks. -/
def words (t : Text) : List Text := (t.splitOnP isBlank).filter fun w => !w.isEmpty

/-- **A text is a word, or a word, a blank and a text**; the word may be empty. -/
theorem word_induction {motive : Text → Prop}
    (word : ∀ w : Text, (∀ c ∈ w, isBlank c = false) → motive w)
    (blank : ∀ (w : Text) (b : Char) (t : Text), (∀ c ∈ w, isBlank c = false) →
      isBlank b = true → motive t → motive (w ++ b :: t)) (t : Text) : motive t :=
  runs_induction word blank t

/-! ### Words -/

/-- **A blank cuts the words of a text.** -/
theorem words_append_blank (hb : isBlank b = true) (s t : Text) :
    words (s ++ b :: t) = words s ++ words t := runs_append_gap hb s t

/-- A text without blanks is one word, or none if it is empty. -/
theorem words_of_solid (hw : ∀ c ∈ w, isBlank c = false) :
    words w = if w = [] then [] else [w] := runs_of_forall hw

/-- A blank at the start belongs to no word. -/
theorem words_cons_blank (hb : isBlank b = true) (t : Text) : words (b :: t) = words t :=
  words_append_blank hb [] t

theorem words_blanks_append {bs : Text} (hbs : ∀ c ∈ bs, isBlank c = true) (t : Text) :
    words (bs ++ t) = words t := by
  induction bs with
  | nil => rfl
  | cons b bs ih =>
    obtain ⟨hb, hbs⟩ := List.forall_mem_cons.1 hbs
    rw [List.cons_append, words_cons_blank hb, ih hbs]

/-- A word ends before a blank. -/
theorem words_word_append (hne : w ≠ []) (hw : ∀ c ∈ w, isBlank c = false)
    (ht : ∀ c ∈ t.head?, isBlank c = true) : words (w ++ t) = w :: words t := by
  have hword : words w = [w] := (words_of_solid hw).trans (if_neg hne)
  cases t with
  | nil => rw [List.append_nil, hword]; rfl
  | cons c t =>
    have hc : isBlank c = true := ht c rfl
    rw [words_append_blank hc, hword, words_cons_blank hc]
    rfl

/-! ### Words as runs -/

/-- Whether a text is made of words with blanks between and around them.  A word is a run of what is
not blank, and it goes on until a blank or the end. -/
inductive HasWords : Text → List Text → Prop where
  | blanks {bs : Text} (hbs : ∀ c ∈ bs, isBlank c = true) : HasWords bs []
  | word {bs w t : Text} {ws : List Text} (hbs : ∀ c ∈ bs, isBlank c = true) (hne : w ≠ [])
      (hw : ∀ c ∈ w, isBlank c = false) (ht : ∀ c ∈ t.head?, isBlank c = true)
      (h : HasWords t ws) : HasWords (bs ++ (w ++ t)) (w :: ws)

theorem HasWords.eq_words {ws : List Text} (h : HasWords t ws) : ws = words t := by
  induction h with
  | @blanks bs hbs =>
    have h := words_blanks_append hbs []
    rw [List.append_nil] at h
    exact h.symm
  | word hbs hne hw ht _ ih => rw [words_blanks_append hbs, words_word_append hne hw ht, ← ih]

theorem HasWords.cons_blank {ws : List Text} (hb : isBlank b = true) (h : HasWords t ws) :
    HasWords (b :: t) ws := by
  cases h with
  | blanks hbs => exact .blanks (List.forall_mem_cons.2 ⟨hb, hbs⟩)
  | @word bs w t ws hbs hne hw ht h =>
    have hbs' : ∀ c ∈ b :: bs, isBlank c = true := List.forall_mem_cons.2 ⟨hb, hbs⟩
    exact .word hbs' hne hw ht h

theorem hasWords_words (t : Text) : HasWords t (words t) := by
  induction t using word_induction with
  | word w hw =>
    by_cases hne : w = []
    · subst hne
      exact .blanks nofun
    · have h : HasWords ([] ++ (w ++ [])) [w] := .word nofun hne hw nofun (.blanks nofun)
      rw [List.append_nil, List.nil_append] at h
      rwa [words_of_solid hw, if_neg hne]
  | blank w b t hw hb ih =>
    by_cases hne : w = []
    · subst hne
      rw [words_append_blank hb]
      exact ih.cons_blank hb
    · rw [words_append_blank hb, words_of_solid hw, if_neg hne]
      have hnil : ∀ c ∈ ([] : Text), isBlank c = true := nofun
      exact .word hnil hne hw (by simpa using hb) (ih.cons_blank hb)

/-- **A text has the words that cutting finds, and no others.** -/
theorem hasWords_iff {ws : List Text} : HasWords t ws ↔ ws = words t := by
  constructor
  · exact HasWords.eq_words
  · rintro rfl
    exact hasWords_words t

theorem HasWords.of_mem {ws : List Text} (h : HasWords t ws) :
    ∀ w ∈ ws, w ≠ [] ∧ ∀ c ∈ w, isBlank c = false := by
  induction h with
  | blanks => exact nofun
  | word _ hne hw _ _ ih => exact List.forall_mem_cons.2 ⟨⟨hne, hw⟩, ih⟩

/-! ### Words with single spaces between them -/

/-- Words behind one space each. -/
def spaced (ws : List Text) : Text := ws.flatMap fun w => ' ' :: w

theorem join_cons_cons (v w : Text) (ws : List Text) :
    join [' '] (v :: w :: ws) = v ++ ' ' :: join [' '] (w :: ws) := by
  rw [join, List.intercalate_cons_cons, List.append_assoc]
  rfl

theorem join_cons (w : Text) (ws : List Text) : join [' '] (w :: ws) = w ++ spaced ws := by
  induction ws generalizing w with
  | nil => simp [join, spaced]
  | cons v ws ih =>
    rw [join_cons_cons, ih v]
    rfl

/-- **Words with single spaces between them are read back.** -/
theorem words_join {ws : List Text} (hws : ∀ w ∈ ws, w ≠ [] ∧ ∀ c ∈ w, isBlank c = false) :
    words (join [' '] ws) = ws := by
  induction ws with
  | nil => rfl
  | cons w ws ih =>
    obtain ⟨⟨hne, hw⟩, hws⟩ := List.forall_mem_cons.1 hws
    have hword : words w = [w] := (words_of_solid hw).trans (if_neg hne)
    cases ws with
    | nil => exact (congrArg words List.intercalate_singleton).trans hword
    | cons v ws =>
      rw [join_cons_cons, words_append_blank (by decide), hword, ih hws]
      rfl

/-- So a text written like that has the words of the text. -/
theorem words_join_words (t : Text) : words (join [' '] (words t)) = words t :=
  words_join (hasWords_words t).of_mem

/-! ### Blanks at the ends and in between -/

theorem trimLeft_of_solid {c : Char} (hc : isBlank c = false) (t : Text) :
    trimLeft (c :: t) = c :: t := by
  rw [trimLeft, List.dropWhile_cons_of_neg]
  simp [hc]

theorem trimRight_cons (c : Char) (t : Text) :
    trimRight (c :: t) =
      if (trimRight t).isEmpty && isBlank c then [] else c :: trimRight t := by
  unfold trimRight trimLeft
  rw [List.reverse_cons, List.dropWhile_append]
  cases hr : List.dropWhile isBlank t.reverse with
  | nil => cases hc : isBlank c <;> simp [hc]
  | cons d r => simp

/-- Nothing is trimmed from the right before a character that is not blank. -/
theorem trimRight_append (hw : ∀ c ∈ w, isBlank c = false) (t : Text) :
    trimRight (w ++ t) = w ++ trimRight t := by
  induction w with
  | nil => rfl
  | cons c w ih =>
    obtain ⟨hc, hw⟩ := List.forall_mem_cons.1 hw
    rw [List.cons_append, trimRight_cons, hc, Bool.and_false, if_neg (by decide), ih hw,
      List.cons_append]

theorem trimRight_space_append (hne : w ≠ []) (hw : ∀ c ∈ w, isBlank c = false) (t : Text) :
    trimRight (' ' :: (w ++ t)) = ' ' :: (w ++ trimRight t) := by
  rw [trimRight_cons, trimRight_append hw]
  cases w with
  | nil => exact absurd rfl hne
  | cons c w => rfl

theorem collapse_blank (hb : isBlank b = true) : collapse [b] = [' '] := by
  simp [collapse, hb]

theorem collapse_append (hw : ∀ c ∈ w, isBlank c = false) (t : Text) :
    collapse (w ++ t) = w ++ collapse t := by
  induction w with
  | nil => rfl
  | cons c w ih =>
    obtain ⟨hc, hw⟩ := List.forall_mem_cons.1 hw
    rw [List.cons_append, List.cons_append, ← ih hw]
    simp [collapse, hc]

/-- Of two blanks in a row the first is dropped. -/
theorem collapse_blank_blank {b' : Char} (hb : isBlank b = true) (hb' : isBlank b' = true)
    (t : Text) : collapse (b :: b' :: t) = collapse (b' :: t) := by
  rw [collapse, if_pos hb, if_pos hb']

/-- A blank before a word is written as a space. -/
theorem collapse_blank_word (hb : isBlank b = true) (hne : w ≠ [])
    (hw : ∀ c ∈ w, isBlank c = false) (t : Text) :
    collapse (b :: (w ++ t)) = ' ' :: (w ++ collapse t) := by
  rw [← collapse_append hw]
  cases w with
  | nil => exact absurd rfl hne
  | cons c w =>
    have hc : isBlank c = false := hw c (List.mem_cons_self ..)
    rw [List.cons_append, collapse, if_pos hb, if_neg (by simp [hc])]

/-- Behind a blank every word stands behind one space. -/
theorem trimRight_collapse_blank (t : Text) :
    ∀ b, isBlank b = true → trimRight (collapse (b :: t)) = spaced (words t) := by
  induction t using word_induction with
  | word w hw =>
    intro b hb
    rw [words_of_solid hw]
    by_cases hne : w = []
    · rw [if_pos hne, hne, collapse, if_pos hb]
      decide
    · have h := collapse_blank_word hb hne hw []
      rw [List.append_nil] at h
      rw [if_neg hne, h, trimRight_space_append hne hw]
      simp [spaced, collapse, trimRight, trimLeft]
  | blank w b' t hw hb' ih =>
    intro b hb
    rw [words_append_blank hb', words_of_solid hw]
    by_cases hne : w = []
    · rw [if_pos hne, hne, List.nil_append, List.nil_append, collapse_blank_blank hb hb', ih b' hb']
    · rw [if_neg hne, collapse_blank_word hb hne hw, trimRight_space_append hne hw, ih b' hb']
      rfl

/-- A blank at the start is trimmed, written as a space or not. -/
theorem trimLeft_collapse_blank (hb : isBlank b = true) (t : Text) :
    trimLeft (collapse (b :: t)) = trimLeft (collapse t) := by
  cases t with
  | nil =>
    rw [collapse_blank hb]
    decide
  | cons c t =>
    cases hc : isBlank c with
    | true => rw [collapse_blank_blank hb hc]
    | false =>
      rw [collapse, if_pos hb, if_neg (by simp [hc]), trimLeft,
        List.dropWhile_cons_of_pos (by decide), trimLeft]

/-- **To collapse blanks and to trim is to write the words with single spaces between them.** -/
theorem trim_collapse (t : Text) : trim (collapse t) = join [' '] (words t) := by
  induction t using word_induction with
  | word w hw =>
    have hcollapse := collapse_append hw []
    rw [List.append_nil] at hcollapse
    rw [words_of_solid hw, hcollapse]
    cases w with
    | nil => decide
    | cons c w =>
      have htrim := trimRight_append hw []
      rw [List.append_nil] at htrim
      rw [collapse, List.append_nil, trim, trimLeft_of_solid (hw c (List.mem_cons_self ..)), htrim,
        if_neg (List.cons_ne_nil c w), join_cons]
      rfl
  | blank w b t hw hb ih =>
    rw [words_append_blank hb, words_of_solid hw]
    cases w with
    | nil =>
      rw [if_pos rfl, List.nil_append, List.nil_append, trim, trimLeft_collapse_blank hb, ← ih,
        trim]
    | cons c w =>
      rw [if_neg (List.cons_ne_nil c w), collapse_append hw, trim, List.cons_append,
        trimLeft_of_solid (hw c (List.mem_cons_self ..)), ← List.cons_append, trimRight_append hw,
        trimRight_collapse_blank t b hb, List.singleton_append, join_cons]

end Text
end Galley
