/-
# Phrases, read and read back

A phrase is the text that the parser joins from the tokens in front of a stop.  Such a text is
tidy (`IsTidy`): its blanks are single spaces between other characters, and no comment begins in
it.  This module proves the two halves of that fact.

| direction | statement |
| --- | --- |
| what is read is tidy | `Phrase.isTidy_text_read` |
| what is tidy is read back as it stands | `Phrase.readFrom_scanFrom` |

The punctuation of a phrase is that of its tokens (`Phrase.mem_text_read`), so a phrase contains
none of the characters that stop it.
-/

import Galley.Proofs.Stylesheet.Scan
import Mathlib.Data.List.TakeWhile

namespace Galley
namespace Stylesheet

/-! ### Tidy texts -/

/-- Whether the rest of a text is tidy; `spaced` says that a space, or nothing, stands before. -/
def tidyFrom (spaced : Bool) : Text → Bool
  | [] => !spaced
  | c :: cs =>
    if Text.isBlank c then c == ' ' && !spaced && tidyFrom true cs
    else !opensComment c cs && tidyFrom false cs

/-- Whether the blanks of a text are single spaces between other characters and no comment begins
in it. -/
def IsTidy (t : Text) : Prop := t = [] ∨ tidyFrom true t = true

theorem tidyFrom_of_solid {c : Char} (h : Text.isBlank c = false) (spaced : Bool) (cs : Text) :
    tidyFrom spaced (c :: cs) = (!opensComment c cs && tidyFrom false cs) := by
  simp [tidyFrom, h]

/-- A tidy rest that begins with a blank begins with a space, and no blank follows it. -/
theorem tidyFrom_of_blank {c : Char} {cs : Text} (h : Text.isBlank c = true) {spaced : Bool}
    (ht : tidyFrom spaced (c :: cs) = true) :
    c = ' ' ∧ spaced = false ∧ tidyFrom true cs = true := by
  simpa [tidyFrom, h, and_assoc] using ht

theorem tidyFrom_punctuation {c : Char} (h : isPunctuation c = true) (spaced : Bool) (cs : Text) :
    tidyFrom spaced (c :: cs) = tidyFrom false cs := by
  have hc : c ≠ '/' := by rintro rfl; exact absurd h (by decide)
  simp [tidyFrom_of_solid (isBlank_of_isPunctuation h), opensComment, hc]

/-- What is tidy from the start on is tidy behind other characters. -/
theorem tidyFrom_false {t : Text} (h : tidyFrom true t = true) : tidyFrom false t = true := by
  cases t with
  | nil => rfl
  | cons c cs =>
    cases hc : Text.isBlank c with
    | true => exact absurd (tidyFrom_of_blank hc h).2.1 (by simp)
    | false => rwa [tidyFrom_of_solid hc] at h ⊢

theorem IsTidy.tidyFrom_false {t : Text} (h : IsTidy t) : tidyFrom false t = true := by
  rcases h with rfl | h
  · rfl
  · exact Stylesheet.tidyFrom_false h

/-- A tidy text begins with a character that is not blank. -/
theorem IsTidy.head_solid {c : Char} {cs : Text} (h : IsTidy (c :: cs)) :
    Text.isBlank c = false := by
  have h : tidyFrom true (c :: cs) = true := by simpa [IsTidy] using h
  by_contra hc
  exact absurd (tidyFrom_of_blank (by simpa using hc) h).2.1 (by simp)

/-- A tidy text ends with a character that is not blank. -/
theorem getLast_solid_of_tidyFrom {t : Text} {spaced : Bool} (h : tidyFrom spaced t = true) :
    ∀ c ∈ t.getLast?, Text.isBlank c = false := by
  induction t generalizing spaced with
  | nil => simp
  | cons c cs ih =>
    intro d hd
    rw [Option.mem_def, List.getLast?_cons, Option.some_inj] at hd
    cases hc : Text.isBlank c with
    | true =>
      have hcs := (tidyFrom_of_blank hc h).2.2
      cases hl : cs.getLast? with
      | none =>
        rw [List.getLast?_eq_none_iff.1 hl] at hcs
        simp [tidyFrom] at hcs
      | some e =>
        rw [hl] at hd
        exact ih hcs d (by simp [hl, ← hd])
    | false =>
      rw [tidyFrom_of_solid hc, Bool.and_eq_true] at h
      cases hl : cs.getLast? with
      | none =>
        rw [hl] at hd
        exact hd ▸ hc
      | some e =>
        rw [hl] at hd
        exact ih h.2 d (by simp [hl, ← hd])

/-- **A tidy text goes on with a tidy rest** that does not turn its last slash into a comment. -/
theorem tidyFrom_append {s t : Text} {spaced : Bool} (hs : tidyFrom spaced s = true)
    (ht : tidyFrom false t = true) (hstar : t.head? ≠ some '*') :
    tidyFrom spaced (s ++ t) = true := by
  induction s generalizing spaced with
  | nil =>
    obtain rfl : spaced = false := by simpa [tidyFrom] using hs
    exact ht
  | cons c cs ih =>
    cases hc : Text.isBlank c with
    | true =>
      obtain ⟨rfl, rfl, hcs⟩ := tidyFrom_of_blank hc hs
      simp [tidyFrom, hc, ih hcs]
    | false =>
      rw [tidyFrom_of_solid hc, Bool.and_eq_true, Bool.not_eq_true'] at hs
      have ho : opensComment c (cs ++ t) = false := by
        cases cs with
        | nil => simp [opensComment, hstar]
        | cons d ds => exact hs.1
      rw [List.cons_append, tidyFrom_of_solid hc, ho, ih hs.2]
      rfl

/-- A word has no blanks, and no comment begins in it. -/
theorem tidyFrom_of_cutWord {w : Text} (hw : cutWord w = (w, [])) : tidyFrom false w = true := by
  induction w with
  | nil => rfl
  | cons c cs ih =>
    rw [cutWord_cons] at hw
    have hc : ¬ endsWord (c :: cs) = true := by
      intro h
      simp [h] at hw
    rw [if_neg hc, Prod.mk.injEq, List.cons_inj_right] at hw
    simp only [endsWord, Bool.or_eq_true, not_or, Bool.not_eq_true] at hc
    rw [tidyFrom_of_solid hc.1.2, hc.2, ih (Prod.ext hw.1 hw.2)]
    rfl

/-- **A word is tidy**, whatever stands before it. -/
theorem IsWord.tidyFrom {w : Text} (hw : IsWord w) (spaced : Bool) :
    tidyFrom spaced w = true := by
  obtain ⟨hne, hcut⟩ := hw
  obtain ⟨c, cs, rfl⟩ := List.exists_cons_of_ne_nil hne
  have hsolid := (not_isPunctuation_of_mem_word hcut List.mem_cons_self).2
  have h := tidyFrom_of_cutWord hcut
  rwa [tidyFrom_of_solid hsolid] at h ⊢

/-- What stands behind the first word of a tidy rest is a tidy rest. -/
theorem tidyFrom_snd_cutWord {t : Text} (h : tidyFrom false t = true) :
    tidyFrom false (cutWord t).2 = true := by
  induction t with
  | nil => exact h
  | cons c cs ih =>
    rw [cutWord_cons]
    split
    · exact h
    · rename_i hc
      simp only [endsWord, Bool.or_eq_true, not_or, Bool.not_eq_true] at hc
      rw [tidyFrom_of_solid hc.1.2, Bool.and_eq_true] at h
      exact ih h.2

/-- A beginning of a tidy rest is tidy, but for one space that may be left at its end. -/
theorem tidyFrom_append_left {u v : Text} {spaced : Bool} (h : tidyFrom spaced (u ++ v) = true) :
    ∃ u', (u = u' ∨ u = u' ++ [' ']) ∧ (u' = [] ∨ tidyFrom spaced u' = true) := by
  induction u generalizing spaced with
  | nil => exact ⟨[], Or.inl rfl, Or.inl rfl⟩
  | cons c cs ih =>
    rw [List.cons_append] at h
    cases hc : Text.isBlank c with
    | true =>
      obtain ⟨rfl, rfl, hcs⟩ := tidyFrom_of_blank hc h
      obtain ⟨u', hu', ht⟩ := ih hcs
      rcases ht with rfl | ht
      · rcases hu' with rfl | rfl
        · exact ⟨[], Or.inr rfl, Or.inl rfl⟩
        · exact absurd (tidyFrom_of_blank hc hcs).2.1 (by simp)
      · refine ⟨' ' :: u', by simpa using hu', Or.inr ?_⟩
        simp [tidyFrom, hc, ht]
    | false =>
      rw [tidyFrom_of_solid hc, Bool.and_eq_true, Bool.not_eq_true'] at h
      obtain ⟨u', hu', ht⟩ := ih h.2
      have ht : tidyFrom false u' = true := by
        rcases ht with rfl | ht
        · rfl
        · exact ht
      refine ⟨c :: u', by simpa using hu', Or.inr ?_⟩
      have ho : opensComment c u' = false := by
        cases u' with
        | nil => simp [opensComment]
        | cons d ds =>
          have := h.1
          rcases hu' with rfl | rfl <;> simpa [opensComment] using this
      simp [tidyFrom_of_solid hc, ho, ht]

/-- Trimming takes off a space after a tidy text and nothing else. -/
theorem IsTidy.trim_eq {u : Text} (h : IsTidy u) :
    Text.trim u = u ∧ Text.trim (u ++ [' ']) = u := by
  cases u with
  | nil => exact ⟨rfl, by decide⟩
  | cons c cs =>
    have hl : ∀ v, Text.trimLeft (c :: cs ++ v) = c :: cs ++ v := by
      intro v
      simp [Text.trimLeft, h.head_solid]
    have hr : Text.trimLeft (c :: cs).reverse = (c :: cs).reverse := by
      cases hu : (c :: cs).reverse with
      | nil => rfl
      | cons d ds =>
        have hlast := getLast_solid_of_tidyFrom h.tidyFrom_false d
          (by rw [← List.head?_reverse, hu]; rfl)
        simp [Text.trimLeft, hlast]
    have hspace : ∀ v, Text.trimLeft (' ' :: v) = Text.trimLeft v := fun _ => rfl
    constructor
    · rw [Text.trim, ← List.append_nil (c :: cs), hl, List.append_nil, Text.trimRight, hr,
        List.reverse_reverse]
    · rw [Text.trim, hl, Text.trimRight, List.reverse_append, List.reverse_singleton,
        List.singleton_append, hspace, hr, List.reverse_reverse]

/-- Whether a token keeps the pieces of a phrase apart: white space and comments do. -/
def Token.isGap (t : Token) : Bool := t.kind == .whitespace || t.kind == .comment

/-- A token in front of the first stop is none. -/
theorem Token.not_isStop_of_mem_takeWhile {stops : Text} {t : Token} {ts : List Token}
    (h : t ∈ ts.takeWhile fun t => !t.isStop stops) : t.isStop stops = false := by
  simpa using List.mem_takeWhile_imp h

namespace Phrase

variable {marks : List Text} {stops : Text} {started gap : Bool} {t : Token} {ts : List Token}

/-! ### One token more -/

theorem collectFrom_mark (h : t.isMark marks = true) :
    collectFrom marks started gap (t :: ts) = ⟨[], [], [], t :: ts⟩ := by
  rw [collectFrom, if_pos h]

theorem isMark_of_kind (h : t.kind ≠ .punctuation) : t.isMark marks = false := by
  simp [Token.isMark, h]

theorem collectFrom_comment (h : t.kind = .comment) :
    collectFrom marks started gap (t :: ts) =
      ⟨(collectFrom marks started started ts).text,
        t.toComment :: (collectFrom marks started started ts).comments,
        t.commentNotes ++ (collectFrom marks started started ts).notes,
        (collectFrom marks started started ts).rest⟩ := by
  have hm : t.isMark marks = false := isMark_of_kind (by simp [h])
  rw [collectFrom, if_neg (by simp [hm]), if_pos h]

theorem collectFrom_blank (h : t.kind = .whitespace) :
    collectFrom marks started gap (t :: ts) = collectFrom marks started started ts := by
  have hm : t.isMark marks = false := isMark_of_kind (by simp [h])
  rw [collectFrom, if_neg (by simp [hm]), if_neg (by simp [h]), if_pos h]

theorem collectFrom_piece (hm : t.isMark marks = false) (hc : t.kind ≠ .comment)
    (hw : t.kind ≠ .whitespace) :
    collectFrom marks started gap (t :: ts) =
      ⟨(if gap then [' '] else []) ++ t.text ++ (collectFrom marks true false ts).text,
        (collectFrom marks true false ts).comments, (collectFrom marks true false ts).notes,
        (collectFrom marks true false ts).rest⟩ := by
  rw [collectFrom, if_neg (by simp [hm]), if_neg hc, if_neg hw]

/-- The four ways in which the reading up to a mark meets a token. -/
theorem mark_cases (marks : List Text) (t : Token) :
    t.isMark marks = true ∨ t.kind = .comment ∨ t.kind = .whitespace ∨
      t.isMark marks = false ∧ t.kind ≠ .comment ∧ t.kind ≠ .whitespace := by
  cases t.isMark marks <;> cases t.kind <;> simp

theorem readFrom_stop (h : t.isStop stops = true) :
    readFrom stops started gap (t :: ts) = ⟨[], [], [], t :: ts⟩ :=
  collectFrom_mark ((t.isMark_singletons stops).trans h)

theorem isStop_of_kind (h : t.kind ≠ .punctuation) : t.isStop stops = false :=
  (t.isMark_singletons stops).symm.trans (isMark_of_kind h)

theorem readFrom_comment (h : t.kind = .comment) :
    readFrom stops started gap (t :: ts) =
      ⟨(readFrom stops started started ts).text,
        t.toComment :: (readFrom stops started started ts).comments,
        t.commentNotes ++ (readFrom stops started started ts).notes,
        (readFrom stops started started ts).rest⟩ := collectFrom_comment h

theorem readFrom_blank (h : t.kind = .whitespace) :
    readFrom stops started gap (t :: ts) = readFrom stops started started ts :=
  collectFrom_blank h

theorem readFrom_piece (hs : t.isStop stops = false) (hc : t.kind ≠ .comment)
    (hw : t.kind ≠ .whitespace) :
    readFrom stops started gap (t :: ts) =
      ⟨(if gap then [' '] else []) ++ t.text ++ (readFrom stops true false ts).text,
        (readFrom stops true false ts).comments, (readFrom stops true false ts).notes,
        (readFrom stops true false ts).rest⟩ :=
  collectFrom_piece ((t.isMark_singletons stops).trans hs) hc hw

/-- The four ways in which a phrase meets a token. -/
theorem token_cases (stops : Text) (t : Token) :
    t.isStop stops = true ∨ t.kind = .comment ∨ t.kind = .whitespace ∨
      t.isStop stops = false ∧ t.kind ≠ .comment ∧ t.kind ≠ .whitespace := by
  cases t.isStop stops <;> cases t.kind <;> simp

/-! ### What is read is tidy -/

/-- After a gap the text goes on with a space, if it goes on at all. -/
theorem head_text_readFrom_gap (ts : List Token) :
    (readFrom stops true true ts).text = [] ∨
      (readFrom stops true true ts).text.head? = some ' ' := by
  induction ts with
  | nil => exact Or.inl rfl
  | cons t ts ih =>
    rcases token_cases stops t with hs | hc | hw | ⟨hs, hc, hw⟩
    · rw [readFrom_stop hs]
      exact Or.inl rfl
    · rw [readFrom_comment hc]
      exact ih
    · rw [readFrom_blank hw]
      exact ih
    · rw [readFrom_piece hs hc hw]
      exact Or.inr rfl

/-- Behind a word the text does not go on with a star: something separates the next token. -/
theorem head_text_readFrom_word {t : Token} (ht : t.isWord = true) (h : Lexed (t :: ts)) :
    (readFrom stops true false ts).text.head? ≠ some '*' := by
  cases ts with
  | nil => simp [readFrom_nil]
  | cons u us =>
    have hu : u.isWord = false := by
      have := (List.isChain_cons_cons.1 h.apart).1
      simpa [ht] using this
    have hgap : (readFrom stops true true us).text.head? ≠ some '*' := by
      rcases @head_text_readFrom_gap stops us with h | h <;> simp [h]
    by_cases hs : u.isStop stops = true
    · simp [readFrom_stop hs]
    · rw [Bool.not_eq_true] at hs
      have hp := h.tail.head
      unfold Token.Proper at hp
      cases hk : u.kind with
      | comment => rw [readFrom_comment hk]; exact hgap
      | whitespace => rw [readFrom_blank hk]; exact hgap
      | punctuation =>
        rw [hk] at hp
        obtain ⟨c, hc, hpc⟩ := hp
        rw [readFrom_piece hs (by simp [hk]) (by simp [hk]), hc]
        simp only [Bool.false_eq_true, if_false, List.nil_append, List.cons_append,
          List.head?_cons, ne_eq, Option.some.injEq]
        rintro rfl
        exact absurd hpc (by decide)
      | atKeyword => simp [Token.isWord, hk] at hu
      | text => simp [Token.isWord, hk] at hu

/-- A piece stands in front of a tidy rest. -/
theorem tidyFrom_piece (h : Lexed (t :: ts)) (hc : t.kind ≠ .comment) (hw : t.kind ≠ .whitespace)
    (hr : tidyFrom false (readFrom stops true false ts).text = true) (spaced : Bool) :
    tidyFrom spaced (t.text ++ (readFrom stops true false ts).text) = true := by
  have hword : t.isWord = true → IsWord t.text →
      tidyFrom spaced (t.text ++ (readFrom stops true false ts).text) = true := by
    intro ht hw
    exact tidyFrom_append (hw.tidyFrom spaced) hr (head_text_readFrom_word ht h)
  have hp := h.head
  unfold Token.Proper at hp
  cases hk : t.kind with
  | comment => exact absurd hk hc
  | whitespace => exact absurd hk hw
  | punctuation =>
    rw [hk] at hp
    obtain ⟨c, hct, hpc⟩ := hp
    rw [hct, List.singleton_append, tidyFrom_punctuation hpc]
    exact hr
  | atKeyword =>
    rw [hk] at hp
    exact hword (by simp [Token.isWord, hk]) hp.1
  | text =>
    rw [hk] at hp
    exact hword (by simp [Token.isWord, hk]) hp.1

/-- What is read behind other pieces is a tidy rest. -/
theorem tidyFrom_readFrom (gap : Bool) (h : Lexed ts) :
    tidyFrom false (readFrom stops true gap ts).text = true := by
  induction ts generalizing gap with
  | nil => rfl
  | cons t ts ih =>
    rcases token_cases stops t with hs | hc | hw | ⟨hs, hc, hw⟩
    · rw [readFrom_stop hs]
      rfl
    · rw [readFrom_comment hc]
      exact ih true h.tail
    · rw [readFrom_blank hw]
      exact ih true h.tail
    · rw [readFrom_piece hs hc hw]
      cases gap with
      | false => exact tidyFrom_piece h hc hw (ih false h.tail) false
      | true => exact tidyFrom_piece h hc hw (ih false h.tail) true

/-- **What is read is tidy.** -/
theorem isTidy_text_read (h : Lexed ts) : IsTidy (read stops ts).text := by
  unfold read
  induction ts with
  | nil => exact Or.inl rfl
  | cons t ts ih =>
    rcases token_cases stops t with hs | hc | hw | ⟨hs, hc, hw⟩
    · rw [readFrom_stop hs]
      exact Or.inl rfl
    · rw [readFrom_comment hc]
      exact ih h.tail
    · rw [readFrom_blank hw]
      exact ih h.tail
    · rw [readFrom_piece hs hc hw]
      exact Or.inr (tidyFrom_piece h hc hw (tidyFrom_readFrom false h.tail) true)

/-! ### Which tokens are read -/

/-- The reading leaves the tokens from the first mark on. -/
theorem rest_collectFrom (started gap : Bool) (ts : List Token) :
    (collectFrom marks started gap ts).rest = ts.dropWhile fun t => !t.isMark marks := by
  induction ts generalizing started gap with
  | nil => rfl
  | cons t ts ih =>
    rcases mark_cases marks t with hm | hc | hw | ⟨hm, hc, hw⟩
    · rw [collectFrom_mark hm, List.dropWhile_cons_of_neg (by simp [hm])]
    · rw [collectFrom_comment hc, List.dropWhile_cons_of_pos (by simp [isMark_of_kind, hc]), ih]
    · rw [collectFrom_blank hw, List.dropWhile_cons_of_pos (by simp [isMark_of_kind, hw]), ih]
    · rw [collectFrom_piece hm hc hw, List.dropWhile_cons_of_pos (by simp [hm]), ih]

/-- A phrase leaves the tokens from the first stop on. -/
theorem rest_readFrom (started gap : Bool) (ts : List Token) :
    (readFrom stops started gap ts).rest = ts.dropWhile fun t => !t.isStop stops := by
  rw [readFrom, rest_collectFrom]
  simp only [Token.isMark_singletons]

/-- **A phrase is what its tokens make** up to the first stop, whatever comes after. -/
theorem readFrom_append {us rest : List Token} (hts : ∀ t ∈ ts, t.isStop stops = false)
    (hus : ∀ started gap, readFrom stops started gap us = ⟨[], [], [], rest⟩)
    (started gap : Bool) :
    readFrom stops started gap (ts ++ us) =
      ⟨(readFrom stops started gap ts).text, (readFrom stops started gap ts).comments,
        (readFrom stops started gap ts).notes, rest⟩ := by
  induction ts generalizing started gap with
  | nil => rw [List.nil_append, hus]; rfl
  | cons t ts ih =>
    have ih := ih fun u hu => hts u (List.mem_cons_of_mem _ hu)
    rcases token_cases stops t with hs | hc | hw | ⟨hs, hc, hw⟩
    · exact absurd hs (by simp [hts t (List.mem_cons_self ..)])
    · rw [List.cons_append, readFrom_comment hc, readFrom_comment hc, ih]
    · rw [List.cons_append, readFrom_blank hw, readFrom_blank hw, ih]
    · rw [List.cons_append, readFrom_piece hs hc hw, readFrom_piece hs hc hw, ih]

/-- The comments and the notes are those of the comments up to the first mark, in order. -/
theorem comments_collectFrom (started gap : Bool) (ts : List Token) :
    (collectFrom marks started gap ts).comments =
        ((ts.takeWhile fun t => !t.isMark marks).filter fun t => t.kind = .comment).map
          Token.toComment ∧
      (collectFrom marks started gap ts).notes =
        ((ts.takeWhile fun t => !t.isMark marks).filter fun t => t.kind = .comment).flatMap
          Token.commentNotes := by
  induction ts generalizing started gap with
  | nil => exact ⟨rfl, rfl⟩
  | cons t ts ih =>
    rcases mark_cases marks t with hm | hc | hw | ⟨hm, hc, hw⟩
    · simp [collectFrom_mark hm, hm]
    · simp [collectFrom_comment hc, isMark_of_kind, hc, ih]
    · simp [collectFrom_blank hw, isMark_of_kind, hw, ih]
    · simp [collectFrom_piece hm hc hw, hm, hc, ih]

/-- The comments of a phrase are those among its tokens, in order. -/
theorem comments_readFrom (started gap : Bool) (ts : List Token) :
    (readFrom stops started gap ts).comments =
      ((ts.takeWhile fun t => !t.isStop stops).filter fun t => t.kind = .comment).map
        Token.toComment := by
  rw [readFrom, (comments_collectFrom started gap ts).1]
  simp only [Token.isMark_singletons]

/-- The text of a phrase has no punctuation but that of its tokens. -/
theorem mem_text_readFrom (h : Lexed ts) (started gap : Bool) {c : Char}
    (hc : isPunctuation c = true) (hm : c ∈ (readFrom stops started gap ts).text) :
    ∃ t ∈ ts.takeWhile fun t => !t.isStop stops, t.kind = .punctuation ∧ t.text = [c] := by
  induction ts generalizing started gap with
  | nil => simp [readFrom_nil] at hm
  | cons t ts ih =>
    have cons : (∃ u ∈ ts.takeWhile fun t => !t.isStop stops, u.kind = .punctuation ∧ u.text = [c])
        → t.isStop stops = false →
        ∃ u ∈ (t :: ts).takeWhile fun t => !t.isStop stops,
          u.kind = .punctuation ∧ u.text = [c] := by
      rintro ⟨u, hu, hk⟩ hs
      exact ⟨u, by simp [hs, hu], hk⟩
    rcases token_cases stops t with hs | hk | hk | ⟨hs, hk, hw⟩
    · rw [readFrom_stop hs] at hm
      simp at hm
    · rw [readFrom_comment hk] at hm
      exact cons (ih h.tail _ _ hm) (isStop_of_kind (by simp [hk]))
    · rw [readFrom_blank hk] at hm
      exact cons (ih h.tail _ _ hm) (isStop_of_kind (by simp [hk]))
    · rw [readFrom_piece hs hk hw, List.mem_append, List.mem_append] at hm
      rcases hm with (hm | hm) | hm
      · cases gap with
        | false => simp at hm
        | true =>
          obtain rfl : c = ' ' := by simpa using hm
          exact absurd hc (by decide)
      · exact ⟨t, by simp [hs], h.head.punctuation_of_mem hk hw hc hm⟩
      · exact cons (ih h.tail _ _ hm) hs

/-- **A phrase does not contain what stops it.** -/
theorem not_mem_text_read (h : Lexed ts) {c : Char} (hc : isPunctuation c = true)
    (hs : c ∈ stops) : c ∉ (read stops ts).text := by
  intro hm
  obtain ⟨t, ht, hk, htext⟩ := mem_text_readFrom h false false hc hm
  have ht := List.mem_takeWhile_imp ht
  simp [Token.isStop, hk, htext, hs] at ht

/-! ### What is tidy is read back -/

/-- A tidy rest behind other pieces is read back if every tidy text no longer than it is. -/
theorem readFrom_scanFrom_rest {r : Text} (hr : tidyFrom false r = true) (hs : ∀ c ∈ r, c ∉ stops)
    (ih : ∀ w : Text, w.length ≤ r.length → tidyFrom true w = true → (∀ c ∈ w, c ∉ stops) →
      ∀ started gap p, readFrom stops started gap (Token.scanFrom p w) =
        ⟨(if gap then [' '] else []) ++ w, [], [], []⟩)
    (p : Position) : readFrom stops true false (Token.scanFrom p r) = ⟨r, [], [], []⟩ := by
  cases r with
  | nil => rw [Token.scanFrom_nil]; rfl
  | cons c cs =>
    cases hc : Text.isBlank c with
    | true =>
      obtain ⟨rfl, -, hcs⟩ := tidyFrom_of_blank hc hr
      have hsolid : startsSolid cs = true := by
        cases cs with
        | nil => rfl
        | cons d ds => simp [startsSolid, IsTidy.head_solid (Or.inr hcs)]
      have hcut := cutBlanks_append (t := []) (Or.inr hsolid)
      rw [Token.scanFrom_cons, cutLexeme_blank hc, readFrom_blank rfl]
      simp only [List.nil_append, List.takeWhile_nil, List.dropWhile_nil] at hcut
      rw [hcut.2, ih cs (by simp) hcs fun d hd => hs d (List.mem_cons_of_mem _ hd)]
      rfl
    | false =>
      rw [ih (c :: cs) le_rfl (by rwa [tidyFrom_of_solid hc] at hr ⊢) hs]
      rfl

/-- **What is tidy is read back** as it stands, without comments and notes. -/
theorem readFrom_scanFrom {w : Text} (hw : tidyFrom true w = true) (hs : ∀ c ∈ w, c ∉ stops)
    (started gap : Bool) (p : Position) :
    readFrom stops started gap (Token.scanFrom p w) =
      ⟨(if gap then [' '] else []) ++ w, [], [], []⟩ := by
  induction hn : w.length using Nat.strongRecOn generalizing w started gap p with
  | ind n ih =>
    cases w with
    | nil => simp [tidyFrom] at hw
    | cons c cs =>
      subst hn
      -- a lexeme that is read as a piece, with a tidy rest behind it
      have piece : (⟨(cutLexeme c cs).1, (cutLexeme c cs).2.1, p⟩ : Token).isStop stops = false →
          (cutLexeme c cs).1 ≠ .comment → (cutLexeme c cs).1 ≠ .whitespace →
          tidyFrom false (cutLexeme c cs).2.2 = true →
          readFrom stops started gap (Token.scanFrom p (c :: cs)) =
            ⟨(if gap then [' '] else []) ++ c :: cs, [], [], []⟩ := by
        intro h₁ h₂ h₃ hr
        have hlen := length_cutLexeme_le c cs
        have happ := cutLexeme_append c cs
        rw [Token.scanFrom_cons, readFrom_piece h₁ h₂ h₃, readFrom_scanFrom_rest hr]
        · simp [happ]
        · intro d hd
          exact hs d (happ ▸ List.mem_append_right _ hd)
        · intro v hv htidy hvs started gap p
          exact ih _ (Nat.lt_succ_of_le (hv.trans hlen)) htidy hvs started gap p rfl
      rcases lexeme_cases c cs with ⟨b, rfl, rfl⟩ | hc | hc | hc
      · simp [tidyFrom, opensComment, show Text.isBlank '/' = false by decide] at hw
      · exact absurd (tidyFrom_of_blank hc hw).2.1 (by simp)
      · rw [cutLexeme_punctuation hc] at piece
        refine piece ?_ (by simp) (by simp) (by rwa [tidyFrom_punctuation hc] at hw)
        simp [Token.isStop, hs c (List.mem_cons_self ..)]
      · rw [cutLexeme_word hc] at piece
        have hk : (if c = '@' then Lexeme.atKeyword else .text) = .atKeyword ∨
            (if c = '@' then Lexeme.atKeyword else .text) = .text := by
          split <;> simp
        have hcs : tidyFrom false cs = true := by
          simp only [endsWord, Bool.or_eq_false_iff] at hc
          rw [tidyFrom_of_solid hc.1.2, Bool.and_eq_true] at hw
          exact hw.2
        refine piece (isStop_of_kind ?_) ?_ ?_ (tidyFrom_snd_cutWord hcs)
        all_goals rcases hk with hk | hk <;> simp [hk]

end Phrase

/-! ### Tokens of a tidy text -/

namespace IsTidy

variable {w : Text}

/-- The punctuation among the tokens of a text stands in the text. -/
theorem mem_of_mem_scanFrom {p : Position} {t : Token} (ht : t ∈ Token.scanFrom p w) {c : Char}
    (hc : t.text = [c]) : c ∈ w := by
  rw [← Token.flatMap_text_scanFrom p w]
  exact List.mem_flatMap.2 ⟨t, ht, by simp [hc]⟩

/-- No token of a tidy text is a comment. -/
theorem kind_ne_comment (hw : IsTidy w) {p : Position} {t : Token}
    (ht : t ∈ Token.scanFrom p w) : t.kind ≠ .comment := by
  rcases hw with rfl | hw
  · simp at ht
  · intro hc
    have h := @Phrase.comments_readFrom [] false false (Token.scanFrom p w)
    have hall : ∀ t ∈ Token.scanFrom p w, (!t.isStop []) = true := by
      intro t _
      unfold Token.isStop
      split <;> rfl
    rw [Phrase.readFrom_scanFrom hw (by simp), List.takeWhile_eq_self_iff.2 hall] at h
    have hmem : t ∈ (Token.scanFrom p w).filter fun t => t.kind = .comment := by simp [ht, hc]
    rw [List.map_eq_nil_iff.1 h.symm] at hmem
    simp at hmem

/-- Whatever ends words may follow a tidy text. -/
theorem seam (hw : IsTidy w) {p : Position} {next : Text} (hn : endsWord next = true) :
    ∀ t ∈ (Token.scanFrom p w).getLast?, t.Seam next := by
  intro t ht
  obtain ⟨ts, hts⟩ := List.getLast?_eq_some_iff.1 ht
  have hmem : t ∈ Token.scanFrom p w := by simp [hts]
  have hp := (Lexed.scanFrom p w).proper t hmem
  unfold Token.Proper at hp
  unfold Token.Seam Lexeme.Seam
  cases hk : t.kind with
  | comment => exact absurd hk (hw.kind_ne_comment hmem)
  | whitespace =>
    -- the last character of the text would be blank
    rw [hk] at hp
    obtain ⟨us, c, hus⟩ := (List.eq_nil_or_concat t.text).resolve_left hp.1
    have htext := Token.flatMap_text_scanFrom p w
    rw [hts, List.flatMap_append, List.flatMap_singleton, hus, List.concat_eq_append,
      ← List.append_assoc] at htext
    have hlast := getLast_solid_of_tidyFrom hw.tidyFrom_false c (by simp [← htext])
    have hblank : Text.isBlank c = true := by
      have := hp.2
      rw [hus] at this
      simp [Text.allBlank] at this
      exact this.2
    rw [hblank] at hlast
    simp at hlast
  | punctuation => trivial
  | atKeyword => exact hn
  | text => exact hn

/-- **A tidy text keeps its tokens** before whatever ends words. -/
theorem scanFrom_append (hw : IsTidy w) (p : Position) {next : Text}
    (hn : endsWord next = true) :
    Token.scanFrom p (w ++ next) = Token.scanFrom p w ++ Token.scanFrom (p.advance w) next :=
  Token.scanFrom_append p w next (hw.seam hn)

end IsTidy

/-! ### A tidy text before a stop -/

/-- The tokens of a blank text are white space. -/
theorem kind_of_mem_scanFrom_blanks {ws : Text} (hws : ws.allBlank = true) {p : Position}
    {t : Token} (ht : t ∈ Token.scanFrom p ws) : t.kind = .whitespace := by
  cases ws with
  | nil => simp at ht
  | cons c cs =>
    simp only [Text.allBlank, List.all_cons, Bool.and_eq_true] at hws
    have hd : cs.dropWhile Text.isBlank = [] := List.dropWhile_eq_nil_iff.2 (by simpa using hws.2)
    rw [Token.scanFrom_cons, cutLexeme_blank hws.1, hd, Token.scanFrom_nil,
      List.mem_singleton] at ht
    rw [ht]

/-- Blanks before a punctuation character are tokens of their own. -/
theorem scanFrom_blanks_punctuation {ws : Text} (hws : ws.allBlank = true) {c : Char}
    (hc : isPunctuation c = true) (p : Position) (next : Text) :
    Token.scanFrom p (ws ++ c :: next) =
      Token.scanFrom p ws ++ Token.scanFrom (p.advance ws) (c :: next) := by
  refine Token.scanFrom_append p ws _ fun t ht => ?_
  rw [Token.Seam, kind_of_mem_scanFrom_blanks hws (List.mem_of_mem_getLast? ht)]
  simp [Lexeme.Seam, startsSolid, isBlank_of_isPunctuation hc]

theorem endsWord_blanks_append {ws : Text} (hws : ws.allBlank = true) {c : Char}
    (hc : isPunctuation c = true) (next : Text) : endsWord (ws ++ c :: next) = true := by
  cases ws with
  | nil => exact endsWord_cons_of_isPunctuation hc next
  | cons d ds =>
    simp only [Text.allBlank, List.all_cons, Bool.and_eq_true] at hws
    exact endsWord_cons_of_isBlank hws.1 _

/-- No token of a text is a stop if no character of the text is. -/
theorem isStop_of_mem_scanFrom {stops w : Text} (hs : ∀ c ∈ w, c ∉ stops) {p : Position}
    {t : Token} (ht : t ∈ Token.scanFrom p w) : t.isStop stops = false := by
  unfold Token.isStop
  split
  · rename_i c _ hc
    simpa using hs c (IsTidy.mem_of_mem_scanFrom ht hc)
  · rfl

/-- **A phrase between blanks is read up to its stop.** -/
theorem Phrase.read_scanFrom {stops w ws ws' : Text} (hw : IsTidy w) (hs : ∀ c ∈ w, c ∉ stops)
    (hws : ws.allBlank = true) (hws' : ws'.allBlank = true) {c : Char}
    (hc : isPunctuation c = true) (hcs : c ∈ stops) (p : Position) (next : Text) :
    Phrase.read stops (Token.scanFrom p (ws ++ (w ++ (ws' ++ c :: next)))) =
      ⟨w, [], [], Token.scanFrom (((p.advance ws).advance w).advance ws') (c :: next)⟩ := by
  have hstop : ∀ started gap (bs : List Token) p, (∀ b ∈ bs, b.kind = .whitespace) →
      Phrase.readFrom stops started gap (bs ++ Token.scanFrom p (c :: next)) =
        ⟨[], [], [], Token.scanFrom p (c :: next)⟩ := by
    intro started gap bs p hbs
    induction bs generalizing gap with
    | nil =>
      rw [List.nil_append, Token.scanFrom_cons, cutLexeme_punctuation hc]
      exact Phrase.readFrom_stop (by simp [Token.isStop, hcs])
    | cons b bs ih =>
      rw [List.cons_append, Phrase.readFrom_blank (hbs b (List.mem_cons_self ..))]
      exact ih _ fun b' hb' => hbs b' (List.mem_cons_of_mem _ hb')
  rw [Phrase.read, Token.scanFrom_blanks _ (fun _ _ h => Phrase.readFrom_blank h) p hws,
    hw.scanFrom_append _ (endsWord_blanks_append hws' hc next),
    scanFrom_blanks_punctuation hws' hc]
  rw [Phrase.readFrom_append (fun t ht => isStop_of_mem_scanFrom hs ht)
    fun started gap => hstop started gap _ _ fun b hb => kind_of_mem_scanFrom_blanks hws' hb]
  rcases hw with rfl | hw
  · rw [Token.scanFrom_nil]
    rfl
  · rw [Phrase.readFrom_scanFrom hw hs]
    rfl

end Stylesheet
end Galley
