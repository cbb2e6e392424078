/-
# The lexical grammar

Which tokens a text has can be said without saying how they are found.  The tokens put together
are the text, and each of them covers what its class covers:

| class | looks like | ends |
| --- | --- | --- |
| comment | begins with `/*` | with the first `*/` behind that, or with the input |
| white space | blanks | before the first other character |
| punctuation | one punctuation character | there |
| word | no blank, no punctuation, no `/*` in it | before the first of these |

Each class is for what the classes above it leave over.  A word is an at-keyword if it begins with
`@`.  The place of a token counts the line feeds before it and the characters since the last one.

`Token.eq_scan_iff` says that the scanner finds these tokens and that no other list of tokens is
like this.  The two halves are that a lexeme that is cut off covers what its class covers
(`covers_cutLexeme`) and that only one lexeme in front of a text does so (`Lexeme.Covers.cutLexeme_eq`).
-/

import Galley.Proofs.Stylesheet.Scan
import Galley.Proofs.Text.Position

namespace Galley
namespace Stylesheet

/-! ### The grammar -/

/-- The start mark of a comment. -/
def commentStart : Text := ['/', '*']

/-- Whether a text that is cut off ends with the first end mark of a comment at a distance of at
least `n`, or with the input if there is none. -/
def EndsAtMark (n : Nat) (text after : Text) : Prop :=
  (∃ i, n ≤ i ∧ commentEnd <+: (text ++ after).drop i ∧
      (∀ j, n ≤ j → commentEnd <+: (text ++ after).drop j → i ≤ j) ∧ text.length = i + 2) ∨
    (∀ j, n ≤ j → ¬ commentEnd <+: (text ++ after).drop j) ∧ after = []

/-- Whether a text begins with something that is not part of a word. -/
def BeginsOther (t : Text) : Prop :=
  (∃ c ∈ t.head?, Text.isBlank c = true ∨ isPunctuation c = true) ∨ commentStart <+: t

/-- Whether a text is a word that goes on as long as it can. -/
structure IsRun (text after : Text) : Prop where
  inside : ∀ i < text.length, ¬ BeginsOther ((text ++ after).drop i)
  ends : after = [] ∨ BeginsOther after

/-- Whether a text is all the blanks between two texts. -/
structure IsBlankRun (before text after : Text) : Prop where
  blank : ∀ c ∈ text, Text.isBlank c = true
  starts : ∀ c ∈ before.getLast?, Text.isBlank c = false
  ends : ∀ c ∈ after.head?, Text.isBlank c = false

/-- Whether a text is a lexeme of a class between two texts. -/
structure Lexeme.Covers (kind : Lexeme) (before text after : Text) : Prop where
  ne_nil : text ≠ []
  comment_iff : kind = .comment ↔ commentStart <+: text
  extent :
    match kind with
    | .comment => EndsAtMark 2 text after
    | .whitespace => IsBlankRun before text after
    | .punctuation => ∃ c, text = [c] ∧ isPunctuation c = true
    | .atKeyword => IsRun text after ∧ text.head? = some '@'
    | .text => IsRun text after ∧ text.head? ≠ some '@'

/-- Whether a token is in place between two texts. -/
structure Token.Fits (before : Text) (t : Token) (after : Text) : Prop where
  covers : t.kind.Covers before t.text after
  line : t.position.line = 1 + before.count '\n'
  column : t.position.column = 1 + before.sinceLineFeed

/-! ### Comments -/

theorem EndsAtMark.cons {n : Nat} {text after : Text} (h : EndsAtMark n text after) (c : Char) :
    EndsAtMark (n + 1) (c :: text) after := by
  -- the distances of the marks grow by one
  have shift : ∀ {j}, n + 1 ≤ j → commentEnd <+: (c :: text ++ after).drop j →
      ∃ k, j = k + 1 ∧ n ≤ k ∧ commentEnd <+: (text ++ after).drop k := by
    rintro (_ | k) hj hmark
    · omega
    · exact ⟨k, rfl, by omega, hmark⟩
  rcases h with ⟨i, hi, hmark, hfirst, hlength⟩ | ⟨hnone, hafter⟩
  · refine Or.inl ⟨i + 1, by omega, hmark, fun j hj hj' => ?_, by simp [hlength]⟩
    obtain ⟨k, rfl, hk, hk'⟩ := shift hj hj'
    exact Nat.succ_le_succ (hfirst k hk hk')
  · refine Or.inr ⟨fun j hj hj' => ?_, hafter⟩
    obtain ⟨k, rfl, hk, hk'⟩ := shift hj hj'
    exact hnone k hk hk'

/-- The search for an end mark may begin one character earlier where none stands. -/
theorem EndsAtMark.earlier {n : Nat} {text after : Text} (h : EndsAtMark (n + 1) text after)
    (hn : ¬ commentEnd <+: (text ++ after).drop n) : EndsAtMark n text after := by
  have later : ∀ {j}, n ≤ j → commentEnd <+: (text ++ after).drop j → n + 1 ≤ j := by
    intro j hj hmark
    rcases Nat.eq_or_lt_of_le hj with rfl | hj
    · exact absurd hmark hn
    · exact hj
  rcases h with ⟨i, hi, hmark, hfirst, hlength⟩ | ⟨hnone, hafter⟩
  · exact Or.inl ⟨i, by omega, hmark, fun j hj hj' => hfirst j (later hj hj') hj', hlength⟩
  · exact Or.inr ⟨fun j hj hj' => hnone j (later hj hj') hj', hafter⟩

/-- **A text ends in one way** with the first end mark. -/
theorem EndsAtMark.unique {n : Nat} {text after text' after' : Text}
    (h : EndsAtMark n text after) (h' : EndsAtMark n text' after')
    (heq : text ++ after = text' ++ after') : text = text' ∧ after = after' := by
  rcases h with ⟨i, hi, hmark, hfirst, hlength⟩ | ⟨hnone, rfl⟩ <;>
    rcases h' with ⟨i', hi', hmark', hfirst', hlength'⟩ | ⟨hnone', rfl⟩
  · rw [heq] at hmark hfirst
    have hii' : i = i' := le_antisymm (hfirst i' hi' hmark') (hfirst' i hi hmark)
    exact List.append_inj heq (by omega)
  · exact absurd hmark (heq ▸ hnone' i hi)
  · exact absurd hmark' (heq ▸ hnone i' hi')
  · simpa using heq

/-- What is cut off as the rest of a comment ends with the first end mark. -/
theorem endsAtMark_cutComment (t : Text) : EndsAtMark 0 (cutComment t).1 (cutComment t).2 := by
  fun_induction cutComment t with
  | case1 => exact Or.inr ⟨by simp [commentEnd], rfl⟩
  | case2 cs => exact Or.inl ⟨0, le_rfl, by simp [commentEnd], fun j _ _ => Nat.zero_le j, rfl⟩
  | case3 c cs hne ih =>
    refine (ih.cons c).earlier fun hmark => ?_
    rw [List.cons_append, cutComment_append, List.drop_zero] at hmark
    obtain ⟨ds, hds⟩ := hmark
    obtain ⟨hc, hcs⟩ := List.cons.inj hds
    exact hne ds hc.symm hcs.symm

/-! ### Words -/

theorem commentStart_isPrefix_iff (c : Char) (cs : Text) :
    commentStart <+: c :: cs ↔ opensComment c cs = true := by
  cases cs with
  | nil => simp [commentStart, opensComment]
  | cons d ds =>
    simp [commentStart, opensComment, List.cons_prefix_cons, @eq_comm _ '/' c, @eq_comm _ '*' d]

/-- A text ends words if it is empty or begins with something that is not part of a word. -/
theorem endsWord_iff (t : Text) : endsWord t = true ↔ t = [] ∨ BeginsOther t := by
  cases t with
  | nil => simp [endsWord]
  | cons c cs =>
    simp only [BeginsOther, commentStart_isPrefix_iff, endsWord, Bool.or_eq_true]
    simp [or_comm]

theorem isRun_nil (after : Text) : IsRun [] after ↔ endsWord after = true := by
  rw [endsWord_iff]
  exact ⟨fun h => h.ends, fun h => ⟨by simp, h⟩⟩

theorem isRun_cons (c : Char) (cs after : Text) :
    IsRun (c :: cs) after ↔ endsWord (c :: (cs ++ after)) = false ∧ IsRun cs after := by
  have hhead : endsWord (c :: (cs ++ after)) = false ↔ ¬ BeginsOther (c :: (cs ++ after)) := by
    rw [← Bool.not_eq_true, endsWord_iff]
    simp
  rw [hhead]
  constructor
  · intro h
    refine ⟨h.inside 0 (by simp), fun i hi => ?_, h.ends⟩
    exact h.inside (i + 1) (by simpa using hi)
  · rintro ⟨h₀, h⟩
    refine ⟨fun i hi => ?_, h.ends⟩
    cases i with
    | zero => exact h₀
    | succ i => exact h.inside i (by simpa using hi)

/-- **A word that goes on as long as it can** is cut off. -/
theorem isRun_iff (text after : Text) :
    IsRun text after ↔ cutWord (text ++ after) = (text, after) := by
  induction text with
  | nil =>
    rw [isRun_nil, List.nil_append]
    cases after with
    | nil => simp [endsWord, cutWord]
    | cons d ds =>
      rw [cutWord_cons]
      split <;> simp [*]
  | cons c cs ih =>
    rw [isRun_cons, ih, List.cons_append, cutWord_cons]
    split <;> simp [Prod.ext_iff, *]

/-! ### Lexemes -/

theorem startsSolid_iff (t : Text) :
    startsSolid t = true ↔ ∀ c ∈ t.head?, Text.isBlank c = false := by
  cases t <;> simp [startsSolid]

theorem startsSolid_dropWhile (t : Text) : startsSolid (t.dropWhile Text.isBlank) = true := by
  have h := List.head?_dropWhile_not Text.isBlank t
  cases hr : t.dropWhile Text.isBlank with
  | nil => rfl
  | cons c cs => simpa [hr, startsSolid] using h

/-- A comment that does not end with the input ends with a slash. -/
theorem getLast_cutComment (t : Text) :
    (cutComment t).2 = [] ∨ (cutComment t).1.getLast? = some '/' := by
  fun_induction cutComment t with
  | case1 => exact Or.inl rfl
  | case2 cs => exact Or.inr rfl
  | case3 c cs hne ih => exact ih.imp_right fun h => by rw [List.getLast?_cons, h]; rfl

/-- **Blanks do not go on behind a lexeme** that ends with one. -/
theorem startsSolid_cutLexeme {c : Char} {cs : Text}
    (h : ∃ d ∈ (cutLexeme c cs).2.1.getLast?, Text.isBlank d = true) :
    startsSolid (cutLexeme c cs).2.2 = true := by
  obtain ⟨d, hd, hblank⟩ := h
  rcases lexeme_cases c cs with ⟨b, rfl, rfl⟩ | hc | hc | hc
  · rw [cutLexeme_comment] at hd ⊢
    rcases getLast_cutComment b with hb | hb
    · rw [hb]
      rfl
    · rw [List.getLast?_cons_cons, List.getLast?_cons, hb] at hd
      obtain rfl : '/' = d := by simpa using hd
      exact absurd hblank (by decide)
  · rw [cutLexeme_blank hc]
    exact startsSolid_dropWhile cs
  · rw [cutLexeme_punctuation hc] at hd
    obtain rfl : c = d := by simpa using hd
    exact absurd hblank (by simp [isBlank_of_isPunctuation hc])
  · have hword := cutWord_fst (c :: cs)
    rw [cutWord_cons, if_neg (by simp [hc])] at hword
    rw [cutLexeme_word hc] at hd
    have hsolid := (not_isPunctuation_of_mem_word hword (List.mem_of_mem_getLast? hd)).2
    simp [hsolid] at hblank

/-- **A lexeme that is cut off covers what its class covers.** -/
theorem covers_cutLexeme {before : Text} {c : Char} {cs : Text}
    (h : ∀ d ∈ before.getLast?, Text.isBlank d = true → Text.isBlank c = false) :
    (cutLexeme c cs).1.Covers before (cutLexeme c cs).2.1 (cutLexeme c cs).2.2 := by
  rcases lexeme_cases c cs with ⟨b, rfl, rfl⟩ | hc | hc | hc
  · rw [cutLexeme_comment]
    exact ⟨by simp, by simp [commentStart],
      ((endsAtMark_cutComment b).cons '*').cons '/'⟩
  · have hslash : c ≠ '/' := by rintro rfl; exact absurd hc (by decide)
    rw [cutLexeme_blank hc]
    refine ⟨by simp, by simp [commentStart, List.cons_prefix_cons, hslash.symm], ?_, ?_, ?_⟩
    · intro d hd
      rcases List.mem_cons.1 hd with rfl | hd
      · exact hc
      · exact List.mem_takeWhile_imp hd
    · intro d hd
      by_contra hblank
      simp [h d hd (by simpa using hblank)] at hc
    · exact (startsSolid_iff _).1 (startsSolid_dropWhile cs)
  · have hslash : c ≠ '/' := by rintro rfl; exact absurd hc (by decide)
    rw [cutLexeme_punctuation hc]
    exact ⟨by simp, by simp [commentStart, List.cons_prefix_cons, hslash.symm], c, rfl, hc⟩
  · have hrun : IsRun (c :: (cutWord cs).1) (cutWord cs).2 := by
      rw [isRun_cons, isRun_iff, cutWord_append]
      exact ⟨hc, rfl⟩
    have hstart : ¬ commentStart <+: c :: (cutWord cs).1 := fun hstart =>
      hrun.inside 0 (by simp) (Or.inr (hstart.trans (List.prefix_append _ _)))
    rw [cutLexeme_word hc]
    by_cases hat : c = '@'
    · rw [if_pos hat]
      exact ⟨by simp, by simp [hstart], hrun, by simp [hat]⟩
    · rw [if_neg hat]
      exact ⟨by simp, by simp [hstart], hrun, by simp [hat]⟩

/-- **Only one lexeme stands in front of a text.** -/
theorem Lexeme.Covers.cutLexeme_eq {kind : Lexeme} {before after : Text} {c : Char} {cs : Text}
    (h : kind.Covers before (c :: cs) after) :
    cutLexeme c (cs ++ after) = (kind, c :: cs, after) := by
  have word : IsRun (c :: cs) after →
      cutLexeme c (cs ++ after) = (if c = '@' then .atKeyword else .text, c :: cs, after) := by
    intro hrun
    rw [isRun_cons, isRun_iff] at hrun
    rw [cutLexeme_word hrun.1, hrun.2]
  have hextent := h.extent
  cases kind with
  | comment =>
    obtain ⟨b, hb⟩ := h.comment_iff.1 rfl
    obtain ⟨rfl, rfl⟩ : '/' = c ∧ '*' :: b = cs := by simpa [commentStart] using hb
    have hcut := ((endsAtMark_cutComment (b ++ after)).cons '*').cons '/'
    obtain ⟨htext, hafter⟩ := hcut.unique hextent (by simp [cutComment_append])
    rw [List.cons_append, cutLexeme_comment, htext, hafter]
  | whitespace =>
    have hcs : ∀ d ∈ cs, Text.isBlank d = true :=
      fun d hd => hextent.blank d (List.mem_cons_of_mem c hd)
    obtain ⟨htake, hdrop⟩ := cutBlanks_append (t := cs)
      (Or.inr ((startsSolid_iff after).2 hextent.ends))
    rw [cutLexeme_blank (hextent.blank c (List.mem_cons_self ..)), htake, hdrop,
      List.takeWhile_eq_self_iff.2 hcs, List.dropWhile_eq_nil_iff.2 hcs, List.nil_append]
  | punctuation =>
    obtain ⟨d, hd, hp⟩ := hextent
    obtain ⟨rfl, rfl⟩ := List.cons.inj hd
    exact cutLexeme_punctuation hp after
  | atKeyword =>
    have hat : c = '@' := by simpa using hextent.2
    rw [word hextent.1, if_pos hat]
  | text =>
    have hat : c ≠ '@' := by simpa using hextent.2
    rw [word hextent.1, if_neg hat]

/-! ### Tokens -/

namespace Token

/-- **The tokens of a text are in place**, whatever stands before the text. -/
theorem fits_scanFrom (before t : Text)
    (h : ∀ d ∈ before.getLast?, Text.isBlank d = true → startsSolid t = true) :
    ∀ us u vs, scanFrom (Position.start.advance before) t = us ++ u :: vs →
      u.Fits (before ++ us.flatMap text) (vs.flatMap text) := by
  induction hn : t.length using Nat.strongRecOn generalizing before t with
  | ind n ih =>
    cases t with
    | nil => simp
    | cons c cs =>
      subst hn
      have hsolid : ∀ d ∈ before.getLast?, Text.isBlank d = true → Text.isBlank c = false :=
        fun d hd hblank => (startsSolid_iff _).1 (h d hd hblank) c rfl
      have hrest := ih _ (Nat.lt_succ_of_le (length_cutLexeme_le c cs))
        (before ++ (cutLexeme c cs).2.1) (cutLexeme c cs).2.2 ?_ rfl
      · rw [scanFrom_cons, forall_split_cons]
        rw [Position.advance_append] at hrest
        refine ⟨⟨?_, ?_, ?_⟩, ?_⟩
        · rw [flatMap_text_scanFrom, List.flatMap_nil, List.append_nil]
          exact covers_cutLexeme hsolid
        · rw [Position.advance_start, List.flatMap_nil, List.append_nil]
        · rw [Position.advance_start, List.flatMap_nil, List.append_nil]
        · intro us u vs hvs
          have hu := hrest us u vs hvs
          rwa [List.append_assoc] at hu
      · -- what stands behind this token does not go on with its blanks
        intro d hd hblank
        rw [List.getLast?_append_of_ne_nil _ (cutLexeme_ne_nil c cs)] at hd
        exact startsSolid_cutLexeme ⟨d, hd, hblank⟩

/-- **Tokens in place are those of the text** that they make up. -/
theorem scanFrom_of_fits {before : Text} {ts : List Token}
    (h : ∀ us u vs, ts = us ++ u :: vs → u.Fits (before ++ us.flatMap text) (vs.flatMap text)) :
    scanFrom (Position.start.advance before) (ts.flatMap text) = ts := by
  induction ts generalizing before with
  | nil => simp
  | cons t ts ih =>
    rw [forall_split_cons] at h
    obtain ⟨hhead, htail⟩ := h
    rw [List.flatMap_nil, List.append_nil] at hhead
    have hposition : t.position = Position.start.advance before := by
      rw [Position.advance_start, ← hhead.line, ← hhead.column]
    have hrest := @ih (before ++ t.text) fun us u vs hvs => by
      rw [List.append_assoc]
      exact htail us u vs hvs
    obtain ⟨c, cs, htext⟩ := List.exists_cons_of_ne_nil hhead.covers.ne_nil
    have hcovers := hhead.covers
    rw [htext] at hcovers
    rw [Position.advance_append, htext] at hrest
    rw [List.flatMap_cons, htext, List.cons_append, scanFrom_cons, hcovers.cutLexeme_eq, hrest,
      ← hposition, ← htext]

/-- **The lexical grammar.** -/
theorem eq_scan_iff (source : Text) (ts : List Token) :
    ts = scan source ↔
      ts.flatMap text = source ∧
        ∀ us u vs, ts = us ++ u :: vs → u.Fits (us.flatMap text) (vs.flatMap text) := by
  constructor
  · rintro rfl
    exact ⟨flatMap_text_scanFrom _ _, fits_scanFrom [] source (by simp)⟩
  · rintro ⟨rfl, h⟩
    have hscan : scanFrom (Position.start.advance []) (ts.flatMap text) = ts :=
      scanFrom_of_fits h
    exact hscan.symm

end Token

end Stylesheet
end Galley
