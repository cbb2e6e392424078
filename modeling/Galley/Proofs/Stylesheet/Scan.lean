/-
# What the tokens of a text look like

`Galley.Stylesheet.Token` cuts a text into lexemes.  This module says what comes out, in the two
forms in which the parser and the printers need it.

* Cutting is local (`scanFrom_append`): the tokens of `a ++ b` are those of `a` and then those of
  `b`, provided that `b` cannot be drawn into the last lexeme of `a` (`Token.Seam`).  A comment is
  safe once it has its end mark, white space before a character that is not blank, a word before
  whatever ends a word.
* Every token has the shape of its class (`Token.Proper`), and two words never stand next to each
  other (`Lexed`): something always separates them, because a word goes on as long as it can.
-/

import Galley.Stylesheet.Parser
import Mathlib.Data.List.Chain

namespace Galley
namespace Stylesheet

/-! ### One lexeme before more text -/

/-- Whether a word ends before a text. -/
def endsWord : Text → Bool
  | [] => true
  | c :: cs => isPunctuation c || Text.isBlank c || opensComment c cs

/-- Whether a text does not begin with a blank. -/
def startsSolid (t : Text) : Bool := t.head?.all fun c => !Text.isBlank c

theorem endsWord_cons_of_isPunctuation {c : Char} (h : isPunctuation c = true) (cs : Text) :
    endsWord (c :: cs) = true := by simp [endsWord, h]

theorem endsWord_cons_of_isBlank {c : Char} (h : Text.isBlank c = true) (cs : Text) :
    endsWord (c :: cs) = true := by simp [endsWord, h]

theorem not_endsWord_star (cs : Text) : endsWord ('*' :: cs) = false := by
  have h : Text.isBlank '*' = false := by decide
  simp [endsWord, isPunctuation, opensComment, h]

theorem isBlank_of_isPunctuation {c : Char} (h : isPunctuation c = true) :
    Text.isBlank c = false := by
  unfold isPunctuation at h
  split at h
  all_goals first | decide | simp at h

theorem cutWord_cons (c : Char) (cs : Text) :
    cutWord (c :: cs) =
      if endsWord (c :: cs) then ([], c :: cs) else (c :: (cutWord cs).1, (cutWord cs).2) := rfl

/-- What a word leaves unread is empty or ends words. -/
theorem endsWord_snd_cutWord (t : Text) : endsWord (cutWord t).2 = true := by
  induction t with
  | nil => rfl
  | cons c cs ih =>
    rw [cutWord_cons]
    split
    · assumption
    · exact ih

/-- A slash opens a comment in a longer text only if it does so already, or if the text ended at
the slash and the star comes with the rest. -/
theorem opensComment_append {c : Char} {cs next : Text} (h : cs ≠ [] ∨ endsWord next = true) :
    opensComment c (cs ++ next) = opensComment c cs := by
  cases cs with
  | cons d ds => simp [opensComment]
  | nil =>
    have h : endsWord next = true := by simpa using h
    cases next with
    | nil => rfl
    | cons d ds =>
      have hd : d ≠ '*' := by rintro rfl; simp [not_endsWord_star] at h
      simp [opensComment, hd]

/-- **A word is cut alike before more text** that ends it. -/
theorem cutWord_append_text {t next : Text} (h : (cutWord t).2 ≠ [] ∨ endsWord next = true) :
    cutWord (t ++ next) = ((cutWord t).1, (cutWord t).2 ++ next) := by
  induction t with
  | nil =>
    have h : endsWord next = true := by simpa [cutWord] using h
    cases next with
    | nil => rfl
    | cons d ds => rw [List.nil_append, cutWord_cons, if_pos h]; rfl
  | cons c cs ih =>
    rw [cutWord_cons] at h ⊢
    by_cases he : endsWord (c :: cs) = true
    · have he' : endsWord (c :: (cs ++ next)) = true := by
        simp only [endsWord, opensComment, Bool.or_eq_true, Bool.and_eq_true, beq_iff_eq] at he ⊢
        refine he.imp_right fun ⟨h₁, h₂⟩ => ⟨h₁, ?_⟩
        rw [List.head?_append, h₂]; rfl
      rw [List.cons_append, cutWord_cons, if_pos he', if_pos he, List.cons_append]
    · rw [if_neg he] at h
      have hc : cs ≠ [] ∨ endsWord next = true := by
        refine h.imp_left fun h₁ h₂ => h₁ ?_
        rw [h₂]; rfl
      have he' : ¬ endsWord (c :: (cs ++ next)) = true := by
        simpa only [endsWord, opensComment_append hc] using he
      rw [List.cons_append, cutWord_cons, if_neg he', if_neg he, ih h]

/-- The blanks in front of a text are cut alike before more text that does not go on with them. -/
theorem cutBlanks_append {t next : Text}
    (h : t.dropWhile Text.isBlank ≠ [] ∨ startsSolid next = true) :
    (t ++ next).takeWhile Text.isBlank = t.takeWhile Text.isBlank ∧
      (t ++ next).dropWhile Text.isBlank = t.dropWhile Text.isBlank ++ next := by
  induction t with
  | nil =>
    cases next with
    | nil => simp
    | cons d ds =>
      have hd : Text.isBlank d = false := by simpa [startsSolid] using h
      simp [hd]
  | cons c cs ih =>
    by_cases hc : Text.isBlank c = true
    · rw [List.dropWhile_cons_of_pos hc] at h
      simpa [hc] using ih h
    · simp [hc]

theorem cutComment_cons {c : Char} {cs : Text} (h : ∀ ds, c = '*' → cs = '/' :: ds → False) :
    cutComment (c :: cs) = (c :: (cutComment cs).1, (cutComment cs).2) := by
  rw [cutComment]
  exact h

/-- A comment with its end mark is cut alike before any text. -/
theorem cutComment_append_text {t next : Text}
    (h : (cutComment t).2 ≠ [] ∨ commentEnd <:+ (cutComment t).1) :
    cutComment (t ++ next) = ((cutComment t).1, (cutComment t).2 ++ next) := by
  fun_induction cutComment t with
  | case1 => simp [commentEnd] at h
  | case2 cs => rfl
  | case3 c cs hne ih =>
    have hcs : (cutComment cs).2 ≠ [] ∨ commentEnd <:+ (cutComment cs).1 := by
      refine h.imp_right fun hs => ?_
      rcases List.suffix_cons_iff.1 hs with hs | hs
      · obtain ⟨hc, ht⟩ := List.cons.inj hs
        have hcs := cutComment_append cs
        rw [← ht] at hcs
        exact absurd hcs.symm (hne _ hc.symm)
      · exact hs
    have hne' : ∀ ds, c = '*' → cs ++ next = '/' :: ds → False := by
      intro ds hc hds
      cases cs with
      | nil => simp [cutComment, commentEnd] at hcs
      | cons d es => exact hne es hc (by rw [(List.cons.inj hds).1])
    rw [List.cons_append, cutComment_cons hne', ih hcs]

/-- A comment is closed when what follows its first mark ends with the end mark. -/
theorem isClosedComment_cons (b : Text) :
    isClosedComment ('/' :: '*' :: b) = true ↔ commentEnd <:+ b := by
  simp only [isClosedComment, Bool.and_eq_true, decide_eq_true_eq, List.length_cons,
    List.isSuffixOf_iff_suffix]
  constructor
  · rintro ⟨hl, hs⟩
    have hl : commentEnd.length ≤ b.length := by simp [commentEnd]; omega
    exact List.suffix_of_suffix_length_le hs (List.suffix_append ['/', '*'] b) hl
  · intro hs
    have hl : 2 ≤ b.length := hs.length_le
    exact ⟨by omega, hs.trans (List.suffix_append ['/', '*'] b)⟩

/-! ### The four classes of first lexemes -/

theorem cutLexeme_comment (b : Text) :
    cutLexeme '/' ('*' :: b) = (.comment, '/' :: '*' :: (cutComment b).1, (cutComment b).2) := rfl

theorem cutLexeme_blank {c : Char} (h : Text.isBlank c = true) (cs : Text) :
    cutLexeme c cs =
      (.whitespace, c :: cs.takeWhile Text.isBlank, cs.dropWhile Text.isBlank) := by
  have hc : opensComment c cs = false := by
    have : c ≠ '/' := by rintro rfl; exact absurd h (by decide)
    simp [opensComment, this]
  simp [cutLexeme, hc, h]

theorem cutLexeme_punctuation {c : Char} (h : isPunctuation c = true) (cs : Text) :
    cutLexeme c cs = (.punctuation, [c], cs) := by
  have hc : opensComment c cs = false := by
    have : c ≠ '/' := by rintro rfl; exact absurd h (by decide)
    simp [opensComment, this]
  simp [cutLexeme, hc, h, isBlank_of_isPunctuation h]

theorem cutLexeme_word {c : Char} {cs : Text} (h : endsWord (c :: cs) = false) :
    cutLexeme c cs =
      (if c = '@' then .atKeyword else .text, c :: (cutWord cs).1, (cutWord cs).2) := by
  simp only [endsWord, Bool.or_eq_false_iff] at h
  simp [cutLexeme, h]

/-- Every text begins with a comment, a blank, a punctuation character or a word. -/
theorem lexeme_cases (c : Char) (cs : Text) :
    (∃ b, c = '/' ∧ cs = '*' :: b) ∨ Text.isBlank c = true ∨ isPunctuation c = true ∨
      endsWord (c :: cs) = false := by
  by_cases h : opensComment c cs = true
  · simp only [opensComment, Bool.and_eq_true, beq_iff_eq] at h
    obtain ⟨b, rfl⟩ := List.head?_eq_some_iff.1 h.2
    exact Or.inl ⟨b, h.1, rfl⟩
  · simp only [endsWord, h, Bool.or_false, Bool.or_eq_false_iff]
    cases isPunctuation c <;> cases Text.isBlank c <;> simp

theorem cutLexeme_ne_nil (c : Char) (cs : Text) : (cutLexeme c cs).2.1 ≠ [] := by
  rcases lexeme_cases c cs with ⟨b, rfl, rfl⟩ | hc | hc | hc
  · simp [cutLexeme_comment]
  · simp [cutLexeme_blank hc]
  · simp [cutLexeme_punctuation hc]
  · simp [cutLexeme_word hc]

/-! ### Tokens of texts -/

/-- Whether a text may follow a lexeme without becoming part of it. -/
def Lexeme.Seam (kind : Lexeme) (text next : Text) : Prop :=
  match kind with
  | .comment => isClosedComment text = true
  | .whitespace => startsSolid next = true
  | .punctuation => True
  | .atKeyword | .text => endsWord next = true

/-- **A lexeme is cut alike before more text** when something of the text is left behind it or the
seam is safe. -/
theorem cutLexeme_append_text {c : Char} {cs next : Text}
    (h : (cutLexeme c cs).2.2 ≠ [] ∨
      (cutLexeme c cs).1.Seam (cutLexeme c cs).2.1 next) :
    cutLexeme c (cs ++ next) =
      ((cutLexeme c cs).1, (cutLexeme c cs).2.1, (cutLexeme c cs).2.2 ++ next) := by
  rcases lexeme_cases c cs with ⟨b, rfl, rfl⟩ | hc | hc | hc
  · have hb : (cutComment b).2 ≠ [] ∨ commentEnd <:+ (cutComment b).1 := by
      rw [cutLexeme_comment] at h
      exact h.imp_right (isClosedComment_cons _).1
    rw [List.cons_append, cutLexeme_comment, cutLexeme_comment, cutComment_append_text hb]
  · rw [cutLexeme_blank hc] at h ⊢
    rw [cutLexeme_blank hc, (cutBlanks_append h).1, (cutBlanks_append h).2]
  · rw [cutLexeme_punctuation hc, cutLexeme_punctuation hc]
  · have hw : (cutWord cs).2 ≠ [] ∨ endsWord next = true := by
      rw [cutLexeme_word hc] at h
      refine h.imp_right fun hs => ?_
      revert hs
      by_cases hk : c = '@' <;> simp [hk, Lexeme.Seam]
    have hcs : cs ≠ [] ∨ endsWord next = true := by
      refine hw.imp_left fun h₁ h₂ => h₁ ?_
      rw [h₂]; rfl
    have hc' : endsWord (c :: (cs ++ next)) = false := by
      simpa only [endsWord, opensComment_append hcs] using hc
    rw [cutLexeme_word hc, cutLexeme_word hc', cutWord_append_text hw]

namespace Token

/-- Whether a text may follow a token without becoming part of it. -/
def Seam (t : Token) (next : Text) : Prop := t.kind.Seam t.text next

@[simp] theorem scanFrom_nil (p : Position) : scanFrom p [] = [] := by rw [scanFrom]

theorem scanFrom_cons (p : Position) (c : Char) (cs : Text) :
    scanFrom p (c :: cs) = ⟨(cutLexeme c cs).1, (cutLexeme c cs).2.1, p⟩ ::
      scanFrom (p.advance (cutLexeme c cs).2.1) (cutLexeme c cs).2.2 := by rw [scanFrom]

/-- What is said of every place in a list of tokens is said of its first one and of the later
ones. -/
theorem forall_split_cons {P : List Token → Token → List Token → Prop} {t : Token}
    {ts : List Token} :
    (∀ us u vs, t :: ts = us ++ u :: vs → P us u vs) ↔
      P [] t ts ∧ ∀ us u vs, ts = us ++ u :: vs → P (t :: us) u vs := by
  constructor
  · intro h
    exact ⟨h [] t ts rfl, fun us u vs hts => h (t :: us) u vs (by rw [hts]; rfl)⟩
  · rintro ⟨hhead, htail⟩ (_ | ⟨u', us⟩) u vs hts
    · obtain ⟨rfl, rfl⟩ := List.cons.inj hts
      exact hhead
    · obtain ⟨rfl, hrest⟩ := List.cons.inj hts
      exact htail us u vs hrest

/-- Nothing is lost: the texts of the tokens make up the text. -/
theorem flatMap_text_scanFrom (p : Position) (a : Text) :
    (scanFrom p a).flatMap Token.text = a := by
  induction hn : a.length using Nat.strongRecOn generalizing p a with
  | ind n ih =>
    cases a with
    | nil => simp
    | cons c cs =>
      subst hn
      rw [scanFrom_cons, List.flatMap_cons,
        ih _ (Nat.lt_succ_of_le (length_cutLexeme_le c cs)) _ _ rfl]
      exact cutLexeme_append c cs

/-- **Cutting is local.**  The tokens of `a ++ b` are those of `a`, then those of `b` at the place
where `a` ends, if `b` cannot become part of the last token of `a`. -/
theorem scanFrom_append (p : Position) (a b : Text)
    (h : ∀ t ∈ (scanFrom p a).getLast?, t.Seam b) :
    scanFrom p (a ++ b) = scanFrom p a ++ scanFrom (p.advance a) b := by
  induction hn : a.length using Nat.strongRecOn generalizing p a with
  | ind n ih =>
    cases a with
    | nil => simp
    | cons c cs =>
      subst hn
      rw [scanFrom_cons] at h
      have hseam : (cutLexeme c cs).2.2 ≠ [] ∨
          (cutLexeme c cs).1.Seam (cutLexeme c cs).2.1 b := by
        by_cases hr : (cutLexeme c cs).2.2 = []
        · rw [hr, scanFrom_nil] at h
          exact Or.inr (h _ rfl)
        · exact Or.inl hr
      have hrest : ∀ t ∈ (scanFrom (p.advance (cutLexeme c cs).2.1)
          (cutLexeme c cs).2.2).getLast?, t.Seam b := by
        intro t ht
        refine h t ?_
        rw [Option.mem_def] at ht ⊢
        rw [List.getLast?_cons, ht]
        rfl
      have hadv : (p.advance (cutLexeme c cs).2.1).advance (cutLexeme c cs).2.2 =
          p.advance (c :: cs) := by rw [← Position.advance_append, cutLexeme_append]
      rw [List.cons_append, scanFrom_cons, scanFrom_cons, cutLexeme_append_text hseam,
        ih _ (Nat.lt_succ_of_le (length_cutLexeme_le c cs)) _ _ hrest rfl, hadv]
      rfl

/-- White space in front of a text is one token, so a reading that skips white space does not see
it. -/
theorem scanFrom_blanks {β : Type} (read : List Token → β)
    (skip : ∀ t ts, t.kind = .whitespace → read (t :: ts) = read ts) (p : Position)
    {ws : Text} (hws : ws.allBlank = true) (t : Text) :
    read (scanFrom p (ws ++ t)) = read (scanFrom (p.advance ws) t) := by
  -- both sides go on where the blanks of `t` end
  have drop : ∀ p t, read (scanFrom p t) =
      read (scanFrom (p.advance (t.takeWhile Text.isBlank)) (t.dropWhile Text.isBlank)) := by
    intro p t
    cases t with
    | nil => rfl
    | cons c cs =>
      by_cases hc : Text.isBlank c = true
      · rw [scanFrom_cons, cutLexeme_blank hc, skip _ _ rfl, List.takeWhile_cons_of_pos hc,
          List.dropWhile_cons_of_pos hc]
      · rw [List.takeWhile_cons_of_neg hc, List.dropWhile_cons_of_neg hc]
        rfl
  have hall : ∀ c ∈ ws, Text.isBlank c = true := by simpa [Text.allBlank] using hws
  rw [drop p, drop (p.advance ws), List.takeWhile_append_of_pos hall,
    List.dropWhile_append_of_pos hall, Position.advance_append]

end Token

/-! ### The shape of tokens -/

/-- A text that is one word. -/
def IsWord (t : Text) : Prop := t ≠ [] ∧ cutWord t = (t, [])

/-- The rest of a comment, which its end mark or the end of the text ends. -/
def IsCommentBody (b : Text) : Prop := cutComment b = (b, [])

/-- What was cut off as a word is one word. -/
theorem cutWord_fst (t : Text) : cutWord (cutWord t).1 = ((cutWord t).1, []) := by
  induction t with
  | nil => rfl
  | cons c cs ih =>
    rw [cutWord_cons]
    split
    · rfl
    · rename_i hc
      have hc' : ¬ endsWord (c :: (cutWord cs).1) = true := by
        have hcs := cutWord_append cs
        cases hw : (cutWord cs).1 with
        | nil =>
          simp only [endsWord, opensComment, Bool.or_eq_true, not_or] at hc ⊢
          exact ⟨hc.1, by simp⟩
        | cons d ds =>
          rw [hw] at hcs
          rw [← hcs] at hc
          simpa [endsWord, opensComment] using hc
      rw [cutWord_cons, if_neg hc', ih]

/-- A word has neither punctuation nor blanks. -/
theorem not_isPunctuation_of_mem_word {w : Text} (hw : cutWord w = (w, [])) {c : Char}
    (hc : c ∈ w) : isPunctuation c = false ∧ Text.isBlank c = false := by
  induction w with
  | nil => simp at hc
  | cons d ds ih =>
    rw [cutWord_cons] at hw
    have hd : ¬ endsWord (d :: ds) = true := by
      intro h
      simp [h] at hw
    rw [if_neg hd, Prod.mk.injEq, List.cons_inj_right] at hw
    simp only [endsWord, Bool.or_eq_true, not_or, Bool.not_eq_true] at hd
    rcases List.mem_cons.1 hc with rfl | hc
    · exact hd.1
    · exact ih (Prod.ext hw.1 hw.2) hc

/-- What was cut off as a comment is one comment. -/
theorem isCommentBody_fst (t : Text) : IsCommentBody (cutComment t).1 := by
  unfold IsCommentBody
  fun_induction cutComment t with
  | case1 => rfl
  | case2 cs => rfl
  | case3 c cs hne ih =>
    have hne' : ∀ ds, c = '*' → (cutComment cs).1 = '/' :: ds → False := by
      intro ds hc hds
      have hcs := cutComment_append cs
      rw [hds] at hcs
      exact hne _ hc hcs.symm
    rw [cutComment_cons hne', ih]

namespace Token

/-- Whether a token is a word. -/
def isWord (t : Token) : Bool := t.kind == .atKeyword || t.kind == .text

/-- What the text of a token of each class looks like. -/
def Proper (t : Token) : Prop :=
  match t.kind with
  | .comment => ∃ b, t.text = '/' :: '*' :: b ∧ IsCommentBody b
  | .whitespace => t.text ≠ [] ∧ t.text.allBlank = true
  | .punctuation => ∃ c, t.text = [c] ∧ isPunctuation c = true
  | .atKeyword => IsWord t.text ∧ t.text.head? = some '@'
  | .text => IsWord t.text ∧ t.text.head? ≠ some '@'

theorem Proper.text_ne_nil {t : Token} (h : t.Proper) : t.text ≠ [] := by
  unfold Proper at h
  cases hk : t.kind with
  | comment =>
    rw [hk] at h
    obtain ⟨b, hb, -⟩ := h
    simp [hb]
  | whitespace => rw [hk] at h; exact h.1
  | punctuation =>
    rw [hk] at h
    obtain ⟨c, hc, -⟩ := h
    simp [hc]
  | atKeyword => rw [hk] at h; exact h.1.1
  | text => rw [hk] at h; exact h.1.1

/-- Only a punctuation token, a comment and white space may contain punctuation. -/
theorem Proper.punctuation_of_mem {t : Token} (h : t.Proper) (hc : t.kind ≠ .comment)
    (hw : t.kind ≠ .whitespace) {c : Char} (hp : isPunctuation c = true) (hm : c ∈ t.text) :
    t.kind = .punctuation ∧ t.text = [c] := by
  unfold Proper at h
  cases hk : t.kind with
  | comment => exact absurd hk hc
  | whitespace => exact absurd hk hw
  | punctuation =>
    rw [hk] at h
    obtain ⟨d, hd, _⟩ := h
    rw [hd, List.mem_singleton] at hm
    exact ⟨rfl, hm ▸ hd⟩
  | atKeyword =>
    rw [hk] at h
    exact absurd (not_isPunctuation_of_mem_word h.1.2 hm).1 (by simp [hp])
  | text =>
    rw [hk] at h
    exact absurd (not_isPunctuation_of_mem_word h.1.2 hm).1 (by simp [hp])

/-- **A lexeme makes a token that has the shape of its class.** -/
theorem proper_cutLexeme (c : Char) (cs : Text) (p : Position) :
    Proper ⟨(cutLexeme c cs).1, (cutLexeme c cs).2.1, p⟩ := by
  rcases lexeme_cases c cs with ⟨b, rfl, rfl⟩ | hc | hc | hc
  · rw [cutLexeme_comment]
    exact ⟨_, rfl, isCommentBody_fst b⟩
  · rw [cutLexeme_blank hc]
    simp [Proper, Text.allBlank, hc]
  · rw [cutLexeme_punctuation hc]
    exact ⟨c, rfl, hc⟩
  · have hw : IsWord (c :: (cutWord cs).1) := by
      have h := cutWord_fst (c :: cs)
      rw [cutWord_cons, if_neg (by simp [hc])] at h
      exact ⟨by simp, h⟩
    rw [cutLexeme_word hc]
    by_cases hk : c = '@'
    · rw [if_pos hk]
      exact ⟨hw, by simp [hk]⟩
    · rw [if_neg hk]
      exact ⟨hw, by simp [hk]⟩

/-- A word is cut off only from a text that does not end words. -/
theorem isWord_cutLexeme {c : Char} {cs : Text} {p : Position}
    (h : isWord ⟨(cutLexeme c cs).1, (cutLexeme c cs).2.1, p⟩ = true) :
    endsWord (c :: cs) = false := by
  rcases lexeme_cases c cs with ⟨b, rfl, rfl⟩ | hc | hc | hc
  · simp [cutLexeme_comment, isWord] at h
  · simp [cutLexeme_blank hc, isWord] at h
  · simp [cutLexeme_punctuation hc, isWord] at h
  · exact hc

end Token

/-- Tokens as a text yields them: each has the shape of its class, and two words never stand next
to each other. -/
structure Lexed (ts : List Token) : Prop where
  proper : ∀ t ∈ ts, t.Proper
  apart : ts.IsChain fun s t => ¬ (s.isWord = true ∧ t.isWord = true)

namespace Lexed

theorem nil : Lexed [] := ⟨by simp, .nil⟩

theorem of_suffix {ts us : List Token} (h : Lexed ts) (hs : us <:+ ts) : Lexed us :=
  ⟨fun t ht => h.proper t (hs.subset ht), h.apart.suffix hs⟩

theorem tail {t : Token} {ts : List Token} (h : Lexed (t :: ts)) : Lexed ts :=
  h.of_suffix (List.suffix_cons t ts)

theorem head {t : Token} {ts : List Token} (h : Lexed (t :: ts)) : t.Proper :=
  h.proper t (List.mem_cons_self ..)

/-- **What a text yields.** -/
theorem scanFrom (p : Position) (a : Text) : Lexed (Token.scanFrom p a) := by
  induction hn : a.length using Nat.strongRecOn generalizing p a with
  | ind n ih =>
    cases a with
    | nil => rw [Token.scanFrom_nil]; exact nil
    | cons c cs =>
      subst hn
      have hrest := ih _ (Nat.lt_succ_of_le (length_cutLexeme_le c cs))
        (p.advance (cutLexeme c cs).2.1) _ rfl
      rw [Token.scanFrom_cons]
      refine ⟨?_, ?_⟩
      · intro t ht
        rcases List.mem_cons.1 ht with rfl | ht
        · exact Token.proper_cutLexeme c cs p
        · exact hrest.proper t ht
      · -- what follows a word ends words, so it is not cut as a word
        cases hr : (cutLexeme c cs).2.2 with
        | nil => simp
        | cons d ds =>
          rw [hr, Token.scanFrom_cons] at hrest
          rw [Token.scanFrom_cons, List.isChain_cons_cons]
          refine ⟨?_, hrest.apart⟩
          rintro ⟨h₁, h₂⟩
          have hd := Token.isWord_cutLexeme h₂
          rw [cutLexeme_word (Token.isWord_cutLexeme h₁)] at hr
          have he := endsWord_snd_cutWord cs
          rw [show (cutWord cs).2 = d :: ds from hr, hd] at he
          exact absurd he (by simp)

end Lexed

end Stylesheet
end Galley
