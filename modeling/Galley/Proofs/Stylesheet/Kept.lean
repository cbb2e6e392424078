/-
# What is kept of a text

Comments travel.  A comment may stand in a selector, in a property or in a value; it is put before
the rule, or among the rules of the block, that is being read.  Still a walk through the tree meets
the comments of the text in their order (`comments_rulesOf`).

Comments are lost in one way only, together with a whole block: a style rule without selector and
without declarations is discarded.  Where every opening brace has something in front of it that it
can belong to (`BracesHeaded`) no selector is empty.  Then all comments are kept, and the style
rules and the groups of the tree are as many as the opening braces of the text.

What a routine keeps is said by `Accounts`, for the tokens before and after it and the rules that it
returns.  Accounts are added up along the routines as the rules are.
-/

import Galley.Proofs.Stylesheet.Skim
import Galley.Stylesheet.Format

namespace Galley
namespace Stylesheet

variable {t t' u : Token} {ts us vs rest : List Token} {rs rs' : List Rule} {stops : Text}
  {headed : Bool}

/-! ### Braces that have something to open -/

/-- Whether every opening brace has a head: the last token before it, gaps aside, exists and is
neither a brace nor a semicolon. -/
def BracesHeaded (ts : List Token) : Prop :=
  ∀ before t after, ts = before ++ t :: after → t.isStop ['{'] = true →
    ∃ u ∈ (before.filter fun u => !u.isGap).getLast?, u.isStop ['{', '}', ';'] = false

/-- Whether a head stands at the end of some tokens; `headed` tells it of what is before them. -/
def endsHeaded (headed : Bool) (ts : List Token) : Bool :=
  ((ts.filter fun u => !u.isGap).getLast?.map fun u => !u.isStop ['{', '}', ';']).getD headed

/-- Whether every opening brace among some tokens has a head; `headed` tells whether one stands
right before them. -/
def bracesHeaded (headed : Bool) : List Token → Bool
  | [] => true
  | t :: ts =>
    if t.isGap then bracesHeaded headed ts
    else (!t.isStop ['{'] || headed) && bracesHeaded (!t.isStop ['{', '}', ';']) ts

theorem endsHeaded_cons (headed : Bool) (t : Token) (ts : List Token) :
    endsHeaded headed (t :: ts) =
      endsHeaded (if t.isGap then headed else !t.isStop ['{', '}', ';']) ts := by
  unfold endsHeaded
  cases hg : t.isGap with
  | true => simp [hg]
  | false =>
    rw [List.filter_cons_of_pos (by simp [hg]), List.getLast?_cons]
    cases (ts.filter fun u => !u.isGap).getLast? <;> simp

theorem bracesHeaded_gap (h : t.isGap = true) :
    bracesHeaded headed (t :: ts) = bracesHeaded headed ts := by
  rw [bracesHeaded, if_pos h]

theorem bracesHeaded_solid (h : t.isGap = false) :
    bracesHeaded headed (t :: ts) =
      ((!t.isStop ['{'] || headed) && bracesHeaded (!t.isStop ['{', '}', ';']) ts) := by
  rw [bracesHeaded, if_neg (by simp [h])]

theorem Token.isGap_of_isStop (h : t.isStop stops = true) : t.isGap = false := by
  simp [isGap, (isStop_iff.1 h).1]

/-- The check passes where every opening brace has a head. -/
theorem bracesHeaded_eq_true_iff (headed : Bool) (ts : List Token) :
    bracesHeaded headed ts = true ↔
      ∀ before t after, ts = before ++ t :: after → t.isStop ['{'] = true →
        endsHeaded headed before = true := by
  induction ts generalizing headed with
  | nil => simp [bracesHeaded]
  | cons t ts ih =>
    rw [Token.forall_split_cons]
    simp only [endsHeaded_cons]
    cases hg : t.isGap with
    | true =>
      have hstop : t.isStop ['{'] = false := by
        by_contra hs
        simp [Token.isGap_of_isStop (by simpa using hs)] at hg
      rw [bracesHeaded_gap hg, ih]
      simp [hstop]
    | false =>
      rw [bracesHeaded_solid hg, Bool.and_eq_true, ih]
      cases t.isStop ['{'] <;> simp [endsHeaded]

theorem endsHeaded_false_iff (ts : List Token) :
    endsHeaded false ts = true ↔
      ∃ u ∈ (ts.filter fun u => !u.isGap).getLast?, u.isStop ['{', '}', ';'] = false := by
  unfold endsHeaded
  cases (ts.filter fun u => !u.isGap).getLast? <;> simp

theorem bracesHeaded_iff (ts : List Token) :
    BracesHeaded ts ↔ bracesHeaded false ts = true := by
  rw [bracesHeaded_eq_true_iff, BracesHeaded]
  simp only [endsHeaded_false_iff]

/-- The check goes on behind some tokens. -/
theorem bracesHeaded_suffix (h : bracesHeaded headed ts = true) (hs : us <:+ ts) :
    ∃ headed, bracesHeaded headed us = true := by
  obtain ⟨ps, rfl⟩ := hs
  induction ps generalizing headed with
  | nil => exact ⟨headed, h⟩
  | cons p ps ih =>
    rw [List.cons_append] at h
    cases hg : p.isGap with
    | true => exact ih (by rwa [bracesHeaded_gap hg] at h)
    | false =>
      rw [bracesHeaded_solid hg, Bool.and_eq_true] at h
      exact ih h.2

/-- Behind a brace or a semicolon no head stands. -/
theorem bracesHeaded_tail (h : bracesHeaded headed (t :: ts) = true)
    (ht : t.isStop ['{', '}', ';'] = true) : bracesHeaded false ts = true := by
  rw [bracesHeaded_solid (Token.isGap_of_isStop ht), ht, Bool.and_eq_true] at h
  exact h.2

/-- In front of anything but a gap and an opening brace it does not matter whether a head stands. -/
theorem bracesHeaded_of_not_open (h : bracesHeaded headed (t :: ts) = true) (hg : t.isGap = false)
    (ho : t.isStop ['{'] = false) : bracesHeaded false (t :: ts) = true := by
  rw [bracesHeaded_solid hg, ho] at h ⊢
  exact h

/-! ### Accounts -/

/-- What some rules tell of the tokens that were read for them: no comment is made up or out of
order; and where every opening brace has a head, none is lost and every opening brace opens one of
the blocks. -/
structure Accounts (ts us : List Token) (rs : List Rule) : Prop where
  sublist : (Rule.comments rs ++ Token.comments us).Sublist (Token.comments ts)
  exact :
    bracesHeaded false ts = true →
      bracesHeaded false us = true ∧
        Token.comments ts = Rule.comments rs ++ Token.comments us ∧
        ts.countP (Token.isStop ['{']) = Rule.blockCount rs + us.countP (Token.isStop ['{'])

namespace Accounts

theorem refl (ts : List Token) : Accounts ts ts [] :=
  ⟨List.Sublist.refl _, fun h => ⟨h, rfl, (Nat.zero_add _).symm⟩⟩

/-- **Accounts are added up.** -/
theorem trans (h : Accounts ts us rs) (h' : Accounts us vs rs') : Accounts ts vs (rs ++ rs') := by
  constructor
  · rw [Rule.comments_append, List.append_assoc]
    exact ((List.append_sublist_append_left _).2 h'.sublist).trans h.sublist
  · intro hheaded
    obtain ⟨hus, hcomments, hcount⟩ := h.exact hheaded
    obtain ⟨hvs, hcomments', hcount'⟩ := h'.exact hus
    refine ⟨hvs, ?_, ?_⟩
    · rw [hcomments, hcomments', Rule.comments_append, List.append_assoc]
    · rw [hcount, hcount', Rule.blockCount_append, Nat.add_assoc]

/-- White space is not accounted for. -/
theorem blank (hk : t.kind = .whitespace) (h : Accounts ts us rs) : Accounts (t :: ts) us rs := by
  have hcomments : Token.comments (t :: ts) = Token.comments ts := by simp [Token.comments, hk]
  have hstop : t.isStop ['{'] = false := Phrase.isStop_of_kind (by simp [hk])
  constructor
  · rw [hcomments]
    exact h.sublist
  · rw [bracesHeaded_gap (by simp [Token.isGap, hk]), hcomments,
      List.countP_cons_of_neg (by simp [hstop])]
    exact h.exact

/-- A comment is kept. -/
theorem comment (hk : t.kind = .comment) (h : Accounts ts us rs) :
    Accounts (t :: ts) us (t.toComment :: rs) := by
  have hcomments : Token.comments (t :: ts) = t.toComment :: Token.comments ts := by
    simp [Token.comments, hk]
  have hstop : t.isStop ['{'] = false := Phrase.isStop_of_kind (by simp [hk])
  have hrule : Rule.comments (t.toComment :: rs) = t.toComment :: Rule.comments rs := rfl
  have hcount : Rule.blockCount (t.toComment :: rs) = Rule.blockCount rs :=
    Rule.blockCount_comment
  constructor
  · rw [hcomments, hrule]
    exact h.sublist.cons_cons _
  · rw [bracesHeaded_gap (by simp [Token.isGap, hk]), hcomments, hrule, hcount,
      List.countP_cons_of_neg (by simp [hstop])]
    intro hheaded
    obtain ⟨hus, heq, hn⟩ := h.exact hheaded
    exact ⟨hus, by rw [heq]; rfl, hn⟩

/-- A closing brace or a semicolon is not accounted for. -/
theorem mark (hs : t.isStop ['}', ';'] = true) (h : Accounts ts us rs) :
    Accounts (t :: ts) us rs := by
  have hcomments : Token.comments (t :: ts) = Token.comments ts := by
    simp [Token.comments, (Token.isStop_iff.1 hs).1]
  have hstop : t.isStop ['{'] = false := Token.not_isStop_of_isStop hs (by simp)
  constructor
  · rw [hcomments]
    exact h.sublist
  · intro hheaded
    rw [hcomments, List.countP_cons_of_neg (by simp [hstop])]
    exact h.exact (bracesHeaded_tail hheaded (Token.isStop_mono (by simp) hs))

end Accounts

/-! ### Heads behind phrases -/

/-- Where a phrase that ends an item has been read, no head stands. -/
theorem bracesHeaded_skipSemicolon (h : bracesHeaded headed ts = true) (hl : Lexed us)
    (hs : us <:+ ts) (hend : ∀ t ∈ us.head?, t.isStop [';', '}'] = true) :
    bracesHeaded false (skipSemicolon us) = true := by
  obtain ⟨headed', hus⟩ := bracesHeaded_suffix h hs
  cases us with
  | nil => rfl
  | cons u us =>
    have hu : u.isStop [';', '}'] = true := hend u rfl
    rw [skipSemicolon, Token.headIsAmong, hl.head.isAmong_eq]
    split
    · exact bracesHeaded_tail hus (Token.isStop_mono (by simp) hu)
    · exact bracesHeaded_of_not_open hus (Token.isGap_of_isStop hu)
        (Token.not_isStop_of_isStop hu (by simp))

/-- A stop in front that is not the first of the stops is one of the others. -/
theorem isStop_of_not_headIsAmong {c : Char} (h : Lexed us)
    (hc : Token.headIsAmong [c] us = false)
    (hstop : ∀ t ∈ us.head?, t.isStop (c :: stops) = true) :
    ∀ t ∈ us.head?, t.isStop stops = true := by
  cases us with
  | nil => simp
  | cons u us =>
    rw [Token.headIsAmong, h.head.isAmong_eq] at hc
    have hu := hstop u rfl
    rw [Token.isStop_cons, hc, Bool.false_or] at hu
    simpa using hu

theorem bracesHeaded_declaration (h : Lexed ts) (hb : bracesHeaded headed ts = true) :
    bracesHeaded false (declaration ts).rest = true := by
  have hrest : Lexed (propertyPhrase ts).rest := h.of_suffix (Phrase.read_suffix _ _)
  cases hc : Token.headIsAmong [':'] (propertyPhrase ts).rest with
  | true =>
    have hsuffix : (valuePhrase (propertyPhrase ts).rest.tail).rest <:+ ts :=
      (Phrase.read_suffix _ _).trans ((List.tail_suffix _).trans (Phrase.read_suffix _ _))
    rw [declaration_colon hc]
    exact bracesHeaded_skipSemicolon hb (h.of_suffix hsuffix) hsuffix Phrase.isStop_head_rest
  | false =>
    rw [declaration_bare hc]
    exact bracesHeaded_skipSemicolon hb hrest (Phrase.read_suffix _ _)
      (isStop_of_not_headIsAmong hrest hc Phrase.isStop_head_rest)

/-! ### Routines -/

namespace Accounts

variable {cs : List Rule}

/-- **A block is accounted for** together with its brace and with what was read over before it. -/
theorem opened (hskim : Skims ['{'] ts (t' :: rest) cs) (ho : t'.isStop ['{'] = true)
    (h : Accounts rest us rs) (hc : Rule.comments rs' = cs ++ Rule.comments rs)
    (hn : Rule.blockCount rs' = Rule.blockCount rs + 1) : Accounts ts us rs' := by
  have hcomments : Token.comments (t' :: rest) = Token.comments rest := by
    simp [Token.comments, (Token.isStop_iff.1 ho).1]
  constructor
  · rw [hskim.comments, hc, List.append_assoc, hcomments]
    exact (List.append_sublist_append_left _).2 h.sublist
  · intro hheaded
    obtain ⟨headed, hbrace⟩ := bracesHeaded_suffix hheaded hskim.suffix
    obtain ⟨hus, heq, hcount⟩ :=
      h.exact (bracesHeaded_tail hbrace (Token.isStop_mono (by simp) ho))
    refine ⟨hus, ?_, ?_⟩
    · rw [hskim.comments, hc, hcomments, heq, List.append_assoc]
    · rw [hskim.count, List.countP_cons_of_pos ho, hcount, hn]
      omega

/-- Of a block that is discarded nothing is kept but what was read over before it. -/
theorem discarded (hskim : Skims ['{'] ts (t' :: rest) cs) (ho : t'.isStop ['{'] = true)
    (h : Accounts rest us rs) (hne : bracesHeaded false ts = false) : Accounts ts us cs := by
  have hcomments : Token.comments (t' :: rest) = Token.comments rest := by
    simp [Token.comments, (Token.isStop_iff.1 ho).1]
  refine ⟨?_, by simp [hne]⟩
  rw [hskim.comments, hskim.comments_eq, hcomments]
  exact (List.append_sublist_append_left _).2
    ((List.sublist_append_right _ _).trans h.sublist)

/-- What is read over without a block is kept. -/
theorem skimmed (hskim : Skims ['{'] ts us cs) (hc : Rule.comments rs = cs)
    (hn : Rule.blockCount rs = 0)
    (hheaded : bracesHeaded false ts = true → bracesHeaded false us = true) :
    Accounts ts us rs := by
  refine ⟨?_, fun h => ⟨hheaded h, ?_, ?_⟩⟩
  · rw [hc, hskim.comments]
  · rw [hc, hskim.comments]
  · rw [hskim.count, hn, Nat.zero_add]

end Accounts

/-- An at-keyword and its prelude are read over. -/
theorem Skims.atRule (hk : t.kind = .atKeyword) (ts : List Token) :
    Skims ['{'] (t :: ts) (preludePhrase ts).rest (preludePhrase ts).comments :=
  (Skims.single (by simp [hk]) (Phrase.isStop_of_kind (by simp [hk])) ts).trans
    ((Skims.prelude ts).mono (by simp))

/-- A selector that begins with a head is not empty. -/
theorem selectorPhrase_text_ne_nil (h : Lexed (t :: ts)) (hw : t.kind ≠ .whitespace)
    (hc : t.kind ≠ .comment) (hb : bracesHeaded false (t :: ts) = true) :
    (selectorPhrase (t :: ts)).text ≠ [] := by
  have hgap : t.isGap = false := by simp [Token.isGap, hw, hc]
  have hopen : t.isStop ['{'] = false := by
    rw [bracesHeaded_solid hgap] at hb
    cases hs : t.isStop ['{'] with
    | true => simp [hs] at hb
    | false => rfl
  intro hnil
  have hhead := Phrase.head_text_read h.head hopen hc hw ts
  rw [hnil] at hhead
  exact h.head.text_ne_nil (List.head?_eq_none_iff.1 hhead.symm)

/-- **The routines account for what they read** by the rules that they return. -/
theorem routines_accounts :
    (∀ ts, Lexed ts → Accounts ts (block ts).1.rest (block ts).1.value.rules) ∧
      (∀ t ts, Lexed (t :: ts) → t.kind = .atKeyword →
        Accounts (t :: ts) (atRule t ts).1.rest
          ((atRule t ts).1.siblings ++ [(atRule t ts).1.value])) ∧
      ∀ t ts, Lexed (t :: ts) → t.kind ≠ .whitespace → t.kind ≠ .comment →
        Accounts (t :: ts) (styleRule t ts).1.rest
          ((styleRule t ts).1.siblings ++ (styleRule t ts).1.value.toList) := by
  apply routines_induction
  case nil =>
    intro _
    rw [block_nil]
    exact Accounts.refl []
  case blank =>
    intro t ts hk ih h
    rw [block_blank hk]
    exact (ih h.tail).blank hk
  case comment =>
    intro t ts hk ih h
    rw [block_comment hk]
    exact (ih h.tail).comment hk
  case close =>
    intro t ts hc h
    rw [block_close hc]
    rw [h.head.isAmong_eq] at hc
    exact (Accounts.refl ts).mark (Token.isStop_mono (by simp) hc)
  case semicolon =>
    intro t ts hc hs ih h
    rw [block_semicolon hc hs]
    rw [h.head.isAmong_eq] at hs
    exact (ih h.tail).mark (Token.isStop_mono (by simp) hs)
  case keyword =>
    intro t ts hk ihA ih h
    rw [block_atRule hk]
    exact (ihA h hk).trans (ih (h.tail.of_suffix (routines_suffix.2.1 t ts)))
  case nested =>
    intro t ts hs ho ihS ih h
    rw [block_styleRule hs ho]
    exact (ihS h hs.not_blank hs.not_comment).trans
      (ih (h.tail.of_suffix (routines_suffix.2.2 t ts)))
  case item =>
    intro t ts hs ho ih h
    have hskim : Skims ['{'] (t :: ts) (declaration (t :: ts)).rest
        (declaration (t :: ts)).siblings := (Skims.declaration h ho).mono (by simp)
    have hdecl : Accounts (t :: ts) (declaration (t :: ts)).rest
        (declaration (t :: ts)).siblings :=
      Accounts.skimmed hskim hskim.comments_eq hskim.blockCount_eq_zero (bracesHeaded_declaration h)
    rw [block_declaration hs ho]
    exact hdecl.trans (ih (h.of_suffix (declaration_suffix _)))
  case statement =>
    intro t ts hs h hk
    have hprelude := Skims.atRule hk ts
    have hrest : Lexed (preludePhrase ts).rest := h.of_suffix hprelude.suffix
    have hend : Skims ['{'] (preludePhrase ts).rest (skipSemicolon (preludePhrase ts).rest) [] :=
      Skims.skipSemicolon hrest (by simp)
    rw [atRule_statement hs]
    refine Accounts.skimmed (hprelude.trans hend) (by simp [hprelude.comments_eq])
      (by simp [hprelude.blockCount_eq_zero]) fun hb => ?_
    have hstop : ∀ u ∈ (preludePhrase ts).rest.head?, u.isStop ['{', ';', '}'] = true :=
      fun u hu => Token.isStop_mono (by simp) (Phrase.isStop_head_rest u hu)
    exact bracesHeaded_skipSemicolon hb hrest hprelude.suffix
      (isStop_of_not_headIsAmong hrest hs hstop)
  case group =>
    intro t ts u rest hr hu ih h hk
    have hprelude := Skims.atRule hk ts
    rw [hr] at hprelude
    have hl : Lexed (u :: rest) := h.of_suffix hprelude.suffix
    have hopen : u.isStop ['{'] = true := by rwa [← hl.head.isAmong_eq]
    rw [atRule_group hr hu]
    exact Accounts.opened hprelude hopen (ih hl.tail) (by simp [hprelude.comments_eq])
      (by simp [hprelude.blockCount_eq_zero])
  case unopened =>
    intro t ts hr h hw hc
    have hselector := Skims.selector (t :: ts)
    rw [hr] at hselector
    rw [styleRule_unopened hr]
    exact Accounts.skimmed hselector (by simp [hselector.comments_eq])
      (by simp [hselector.blockCount_eq_zero]) fun _ => rfl
  case opened =>
    intro t ts u rest hr ih h hw hc
    have hopen : u.isStop ['{'] = true := Phrase.isStop_head_rest u (by rw [hr]; rfl)
    have hselector := Skims.selector (t :: ts)
    rw [hr] at hselector
    have hl : Lexed (u :: rest) := h.of_suffix hselector.suffix
    cases hs : isShell (selectorPhrase (t :: ts)).text (block rest).1.value with
    | true =>
      have hne : bracesHeaded false (t :: ts) = false := by
        by_contra hb
        have hnil := selectorPhrase_text_ne_nil h hw hc (by simpa using hb)
        simp [isShell, hnil] at hs
      rw [styleRule_shell hr hs, Option.toList_none, List.append_nil]
      exact Accounts.discarded hselector hopen (ih hl.tail) hne
    | false =>
      rw [styleRule_kept hr hs]
      exact Accounts.opened hselector hopen (ih hl.tail) (by simp [hselector.comments_eq])
        (by simp [hselector.blockCount_eq_zero])

/-! ### Sheets -/

/-- **The parser accounts for all tokens.** -/
theorem parse_accounts (h : Lexed ts) : Accounts ts [] (parse ts) := by
  induction ts using parse_induction with
  | nil =>
    rw [parse_nil]
    exact Accounts.refl []
  | blank t ts hk ih =>
    rw [parse_blank hk]
    exact (ih h.tail).blank hk
  | comment t ts hk ih =>
    rw [parse_comment hk]
    exact (ih h.tail).comment hk
  | stray t ts hs ih =>
    rw [parse_stray hs]
    rw [h.head.isAmong_eq] at hs
    exact (ih h.tail).mark hs
  | keyword t ts hk ih =>
    rw [parse_atRule hk, List.append_cons]
    exact (routines_accounts.2.1 t ts h hk).trans
      (ih (h.tail.of_suffix (routines_suffix.2.1 t ts)))
  | rule t ts hs ih =>
    rw [parse_styleRule hs]
    exact (routines_accounts.2.2 t ts h hs.not_blank hs.not_comment).trans
      (ih (h.tail.of_suffix (routines_suffix.2.2 t ts)))

/-- **No comment is made up, and none is lost without its block.**  The comments that a walk through
the rules of a text meets are comments of the text, in their order.  If every opening brace has a
head, then they are all comments of the text, and the blocks of the tree are as many as the opening
braces. -/
theorem comments_rulesOf (source : Text) :
    (Rule.comments (rulesOf source)).Sublist (Token.comments (Token.scan source)) ∧
      (BracesHeaded (Token.scan source) →
        Rule.comments (rulesOf source) = Token.comments (Token.scan source) ∧
          Rule.blockCount (rulesOf source) =
            (Token.scan source).countP (Token.isStop ['{'])) := by
  have hall : Accounts (Token.scan source) [] (rulesOf source) :=
    parse_accounts (Lexed.scanFrom .start source)
  refine ⟨?_, fun hheaded => ?_⟩
  · simpa [Token.comments] using hall.sublist
  · obtain ⟨-, hcomments, hcount⟩ := hall.exact ((bracesHeaded_iff _).1 hheaded)
    exact ⟨by simpa [Token.comments] using hcomments.symm, by simpa using hcount.symm⟩

/-- Comments before a rule, in its selector, in a property, in a value and in a prelude, and a block
inside a block inside a block. -/
theorem comments_rulesOf_travelled :
    let source := "/*1*/ a /*2*/ b \x7b p /*3*/ : /*4*/ v; @m /*5*/ x \x7b c \x7b\x7d \x7d \x7d".toList
    BracesHeaded (Token.scan source) ∧
      Rule.comments (rulesOf source) = Token.comments (Token.scan source) ∧
        Rule.blockCount (rulesOf source) = (Token.scan source).countP (Token.isStop ['{']) := by
  intro source
  have h : BracesHeaded (Token.scan source) := by
    rw [bracesHeaded_iff]
    decide +kernel
  exact ⟨h, (comments_rulesOf source).2 h⟩

end Stylesheet
end Galley
