/-
# Well-formed rule trees

What the parser returns is more than a tree of texts.  Every text in it is tidy and free of the
characters that end it in its role, a keyword is a word that begins with `@` and nothing else does
so, and every comment has both its marks and ends with the first end mark.

| role | does not contain | does not begin with |
| --- | --- | --- |
| prelude | `;` `{` `}` | |
| property | `:` `;` `{` `}` | `@` |
| value | `;` `{` `}` | |
| selector inside a block | `;` `{` `}` | `@` |
| selector outside of blocks | `{` | `@` `;` `}` |

The value of a declaration that is not important does not end with the mark of importance, and a
rule without selector has a declaration.  `wellFormed_parse` says that all of this holds of every
text; it is what a printed tree needs in order to be read back.
-/

import Galley.Proofs.Stylesheet.Routines

namespace Galley
namespace Stylesheet

/-! ### The roles of texts -/

/-- A tidy text without some characters. -/
structure IsPhrase (stops t : Text) : Prop where
  tidy : IsTidy t
  free : ∀ c ∈ t, c ∉ stops

/-- A phrase without some characters is one without fewer of them. -/
theorem IsPhrase.mono {stops stops' t : Text} (h : IsPhrase stops t)
    (hs : ∀ c ∈ stops', c ∈ stops) : IsPhrase stops' t :=
  ⟨h.tidy, fun c hc hm => h.free c hc (hs c hm)⟩

/-- A comment with both its marks that ends with the first end mark. -/
def IsComment (t : Text) : Prop :=
  ∃ b, t = '/' :: '*' :: b ∧ IsCommentBody b ∧ commentEnd <:+ b

/-- A word that begins with `@`. -/
def IsKeyword (t : Text) : Prop := IsWord t ∧ t.head? = some '@'

/-- A selector; `inner` tells whether its rule stands inside a block. -/
structure IsSelector (inner : Bool) (s : Text) : Prop where
  phrase : IsPhrase ['{'] s
  not_keyword : s.head? ≠ some '@'
  not_stray : s.head? ≠ some ';' ∧ s.head? ≠ some '}'
  inside : inner = true → ∀ c ∈ s, c ∉ [';', '}']

/-- A declaration that is read back as it stands. -/
structure Declaration.WellFormed (d : Declaration) : Prop where
  property : IsPhrase [':', ';', '{', '}'] d.property
  not_keyword : d.property.head? ≠ some '@'
  value : IsPhrase [';', '{', '}'] d.value
  plain : d.important = false → ¬ importantMark <:+ d.value

namespace Rule

mutual
/-- A rule that is read back as it stands; `inner` tells whether it stands inside a block. -/
def WellFormed (inner : Bool) : Rule → Prop
  | .comment t _ => IsComment t
  | .statement k pre _ => IsKeyword k ∧ IsPhrase [';', '{', '}'] pre
  | .group k pre ds children _ =>
    IsKeyword k ∧ IsPhrase [';', '{', '}'] pre ∧ (∀ d ∈ ds, d.WellFormed) ∧
      AllWellFormed true children
  | .style s ds children _ =>
    IsSelector inner s ∧ (s = [] → ds ≠ []) ∧ (∀ d ∈ ds, d.WellFormed) ∧
      AllWellFormed true children

/-- Several rules that are read back as they stand. -/
def AllWellFormed (inner : Bool) : List Rule → Prop
  | [] => True
  | r :: rs => WellFormed inner r ∧ AllWellFormed inner rs
end

theorem allWellFormed_iff {inner : Bool} {rs : List Rule} :
    AllWellFormed inner rs ↔ ∀ r ∈ rs, WellFormed inner r := by
  induction rs with
  | nil => simp [AllWellFormed]
  | cons r rs ih => simp [AllWellFormed, ih]

theorem allWellFormed_append {inner : Bool} {rs rs' : List Rule} :
    AllWellFormed inner (rs ++ rs') ↔ AllWellFormed inner rs ∧ AllWellFormed inner rs' := by
  simp only [allWellFormed_iff, List.mem_append, or_imp, forall_and]

end Rule

/-- A block whose content is read back as it stands. -/
def Block.WellFormed (b : Block) : Prop :=
  (∀ d ∈ b.declarations, d.WellFormed) ∧ Rule.AllWellFormed true b.rules

/-! ### Comments -/

/-- An unfinished comment is finished by an end mark. -/
theorem isCommentBody_close {b : Text} (hb : IsCommentBody b) (ho : ¬ commentEnd <:+ b) :
    IsCommentBody (b ++ commentEnd) := by
  unfold IsCommentBody at *
  fun_induction cutComment b with
  | case1 => rfl
  | case2 cs => simp_all [commentEnd]
  | case3 c cs hne ih =>
    obtain ⟨h₁, h₂⟩ := Prod.mk.inj hb
    have hne' : ∀ ds, c = '*' → cs ++ commentEnd = '/' :: ds → False := by
      intro ds hc hds
      cases cs with
      | nil => simp [commentEnd] at hds
      | cons d es => exact hne es hc (by rw [(List.cons.inj hds).1])
    rw [List.cons_append, cutComment_cons hne',
      ih (Prod.ext (List.cons.inj h₁).2 h₂) fun h => ho (h.trans (List.suffix_cons c cs))]

/-- **The comment of a token is a comment.** -/
theorem Token.wellFormed_toComment {t : Token} (ht : t.Proper) (hk : t.kind = .comment)
    (inner : Bool) : t.toComment.WellFormed inner := by
  unfold Token.Proper at ht
  rw [hk] at ht
  obtain ⟨b, htext, hb⟩ := ht
  rw [Token.toComment, Rule.WellFormed, htext]
  split
  · rename_i hc
    exact ⟨b, rfl, hb, (isClosedComment_cons b).1 hc⟩
  · rename_i hc
    rw [isClosedComment_cons] at hc
    exact ⟨b ++ commentEnd, rfl, isCommentBody_close hb hc, List.suffix_append b commentEnd⟩

namespace Phrase

variable {stops : Text} {t : Token} {ts : List Token}

/-- The comments of a phrase are comments. -/
theorem allWellFormed_comments (h : Lexed ts) (inner : Bool) :
    Rule.AllWellFormed inner (read stops ts).comments := by
  rw [read, comments_readFrom, Rule.allWellFormed_iff]
  intro r hr
  obtain ⟨t, ht, rfl⟩ := List.mem_map.1 hr
  rw [List.mem_filter, decide_eq_true_eq] at ht
  exact Token.wellFormed_toComment
    (h.proper t ((List.takeWhile_sublist _).subset ht.1)) ht.2 inner

/-- **What is read is a phrase.** -/
theorem isPhrase_text_read (h : Lexed ts) (hs : ∀ c ∈ stops, isPunctuation c = true) :
    IsPhrase stops (read stops ts).text :=
  ⟨isTidy_text_read h, fun _ hc hm => not_mem_text_read h (hs _ hm) hm hc⟩

/-- A phrase that does not stop at once begins with its first token. -/
theorem head_text_read (ht : t.Proper) (hs : t.isStop stops = false) (hc : t.kind ≠ .comment)
    (hw : t.kind ≠ .whitespace) (ts : List Token) :
    (read stops (t :: ts)).text.head? = t.text.head? := by
  rw [read, readFrom_piece hs hc hw]
  obtain ⟨c, cs, hcs⟩ := List.exists_cons_of_ne_nil ht.text_ne_nil
  simp [hcs]

end Phrase

/-! ### Nested rules and declarations -/

/-- The first token of a phrase that is not a keyword does not make the phrase begin like one. -/
theorem head_ne_at {t : Token} (ht : t.Proper) (hk : t.kind ≠ .atKeyword)
    (hc : t.kind ≠ .comment) (hw : t.kind ≠ .whitespace) : t.text.head? ≠ some '@' := by
  unfold Token.Proper at ht
  cases hkind : t.kind with
  | comment => exact absurd hkind hc
  | whitespace => exact absurd hkind hw
  | punctuation =>
    rw [hkind] at ht
    obtain ⟨c, hct, hp⟩ := ht
    rw [hct, List.head?_cons, ne_eq, Option.some_inj]
    rintro rfl
    exact absurd hp (by decide)
  | atKeyword => exact absurd hkind hk
  | text => rw [hkind] at ht; exact ht.2

section OpensBlock

variable {stops : Text} {t : Token} {ts : List Token}

theorem occursIn_singleton (c : Char) (chars : Text) :
    Text.occursIn [c] chars = chars.contains c := by
  induction chars with
  | nil => rfl
  | cons d ds ih => simp [Text.occursIn, ih, List.isPrefixOf, Bool.beq_eq_decide_eq]

/-- The two tests for a mark agree on tokens of a text. -/
theorem Token.Proper.isAmong_eq (ht : t.Proper) (chars : Text) :
    t.isAmong chars = t.isStop chars := by
  by_cases hk : t.kind = .punctuation
  · unfold Token.Proper at ht
    rw [hk] at ht
    obtain ⟨c, hc, -⟩ := ht
    simp [Token.isAmong, Token.isStop, hk, hc, occursIn_singleton]
  · rw [Token.isAmong_of_kind hk, Phrase.isStop_of_kind hk]

/-- A stop is one of the punctuation characters. -/
theorem Token.isStop_iff : t.isStop stops = true ↔
    t.kind = .punctuation ∧ ∃ c ∈ stops, t.text = [c] := by
  unfold Token.isStop
  split
  · rename_i c hk hc
    simp [hk, hc]
  · rename_i hne
    simp only [Bool.false_eq_true, false_iff, not_and, not_exists]
    rintro hk c - hc
    exact hne c hk hc

theorem Token.isStop_cons (c : Char) (stops : Text) (t : Token) :
    t.isStop (c :: stops) = (t.isStop [c] || t.isStop stops) := by
  rw [Bool.eq_iff_iff, Bool.or_eq_true, Token.isStop_iff, Token.isStop_iff, Token.isStop_iff]
  simp [and_or_left]

/-- A stop is a stop among more characters. -/
theorem Token.isStop_mono {stops' : Text} (hs : ∀ c ∈ stops', c ∈ stops)
    (h : t.isStop stops' = true) : t.isStop stops = true := by
  obtain ⟨hk, c, hc, htext⟩ := Token.isStop_iff.1 h
  exact Token.isStop_iff.2 ⟨hk, c, hs c hc, htext⟩

/-- What is no stop is no stop among fewer characters. -/
theorem Token.not_isStop_mono {stops' : Text} (hs : ∀ c ∈ stops', c ∈ stops)
    (h : t.isStop stops = false) : t.isStop stops' = false := by
  rw [Bool.eq_false_iff] at h ⊢
  exact fun h' => h (Token.isStop_mono hs h')

/-- A stop is not a stop among other characters. -/
theorem Token.not_isStop_of_isStop {stops' : Text} (h : t.isStop stops = true)
    (hs : ∀ c ∈ stops, c ∉ stops') : t.isStop stops' = false := by
  obtain ⟨hk, c, hc, htext⟩ := Token.isStop_iff.1 h
  simp [Token.isStop, hk, htext, hs c hc]

/-- A phrase leaves nothing, or a stop in front. -/
theorem Phrase.isStop_head_rest {ts : List Token} :
    ∀ t ∈ (Phrase.read stops ts).rest.head?, t.isStop stops = true := by
  intro t ht
  have hhead := List.head?_dropWhile_not (fun t : Token => !t.isStop stops) ts
  rw [← Phrase.rest_readFrom false false] at hhead
  rw [Phrase.read, Option.mem_def] at ht
  simpa [ht] using hhead

/-- The search for an opening brace passes over what is neither brace nor semicolon. -/
theorem opensBlock_skip (ht : t.Proper) (ho : t.isStop ['{'] = false)
    (he : t.isStop [';', '}'] = false) : opensBlock (t :: ts) = opensBlock ts := by
  rw [opensBlock]
  split
  · rename_i hk
    have hopen : t.text ≠ ['{'] := by
      intro hc
      simp [Token.isStop, hk, hc] at ho
    rw [if_neg hopen, if_neg (by simp [ht.isAmong_eq, he])]
  · rfl

theorem opensBlock_open (h : t.isStop ['{'] = true) : opensBlock (t :: ts) = true := by
  obtain ⟨hk, c, hc, htext⟩ := Token.isStop_iff.1 h
  rw [List.mem_singleton.1 hc] at htext
  simp [opensBlock, hk, htext]

theorem opensBlock_end (ht : t.Proper) (h : t.isStop [';', '}'] = true) :
    opensBlock (t :: ts) = false := by
  have hopen : t.text ≠ ['{'] := by
    obtain ⟨-, c, hc, htext⟩ := Token.isStop_iff.1 h
    rw [htext]
    rintro hc'
    rw [(List.cons.inj hc').1] at hc
    simp at hc
  rw [opensBlock, if_pos (Token.isStop_iff.1 h).1, if_neg hopen, if_pos (by rwa [ht.isAmong_eq])]

/-- A token opens a block, ends an item or does neither. -/
theorem brace_cases (t : Token) :
    t.isStop ['{'] = true ∨ t.isStop [';', '}'] = true ∨
      t.isStop ['{'] = false ∧ t.isStop [';', '}'] = false := by
  cases t.isStop ['{'] <;> cases t.isStop [';', '}'] <;> simp

/-- Where no brace opens a block, a phrase that ends with the item has no opening brace, and none
comes before the end of the item after it. -/
theorem not_open_of_opensBlock (h : Lexed ts) (ho : opensBlock ts = false)
    (hs : ∀ c ∈ [';', '}'], c ∈ stops) :
    (∀ t ∈ ts.takeWhile fun t => !t.isStop stops, t.isStop ['{'] = false) ∧
      opensBlock (ts.dropWhile fun t => !t.isStop stops) = false := by
  induction ts with
  | nil => exact ⟨by simp, rfl⟩
  | cons t ts ih =>
    cases hst : t.isStop stops with
    | true => simpa [hst] using ho
    | false =>
      rcases brace_cases t with hb | hb | ⟨hb, he⟩
      · exact absurd ho (by simp [opensBlock_open hb])
      · exact absurd (Token.isStop_mono hs hb) (by simp [hst])
      · rw [opensBlock_skip h.head hb he] at ho
        simpa [hst, hb] using ih h.tail ho

/-- Where a brace opens a block, nothing before it ends an item. -/
theorem not_end_of_opensBlock (h : Lexed ts) (ho : opensBlock ts = true) :
    ∀ t ∈ ts.takeWhile fun t => !t.isStop ['{'], t.isStop [';', '}'] = false := by
  induction ts with
  | nil => simp
  | cons t ts ih =>
    rcases brace_cases t with hb | hb | ⟨hb, he⟩
    · simp [hb]
    · simp [opensBlock_end h.head hb] at ho
    · rw [opensBlock_skip h.head hb he] at ho
      simpa [hb, he] using ih h.tail ho

end OpensBlock

/-! ### What the routines return -/

section Routines

variable {t : Token} {ts : List Token}

/-- A selector or a property does not begin with a mark that its first token is not. -/
theorem head_text_read_ne {stops : Text} (h : Lexed (t :: ts)) (hc : t.kind ≠ .comment)
    (hw : t.kind ≠ .whitespace) {c : Char} (hp : isPunctuation c = true)
    (hne : t.isStop [c] = false) : (Phrase.read stops (t :: ts)).text.head? ≠ some c := by
  cases hs : t.isStop stops with
  | true => simp [Phrase.read, Phrase.readFrom_stop hs]
  | false =>
    rw [Phrase.head_text_read h.head hs hc hw]
    intro hhead
    obtain ⟨hk, htext⟩ := h.head.punctuation_of_mem hc hw hp (List.mem_of_mem_head? hhead)
    simp [Token.isStop, hk, htext] at hne

theorem head_text_read_ne_at {stops : Text} (h : Lexed (t :: ts)) (hc : t.kind ≠ .comment)
    (hw : t.kind ≠ .whitespace) (hk : t.kind ≠ .atKeyword) :
    (Phrase.read stops (t :: ts)).text.head? ≠ some '@' := by
  cases hs : t.isStop stops with
  | true => simp [Phrase.read, Phrase.readFrom_stop hs]
  | false =>
    rw [Phrase.head_text_read h.head hs hc hw]
    exact head_ne_at h.head hk hc hw

/-- What is read before an opening brace inside a block is a selector. -/
theorem isSelector_nested (h : Lexed (t :: ts)) (hs : t.StartsItem)
    (ho : opensBlock (t :: ts) = true) : IsSelector true (selectorPhrase (t :: ts)).text where
  phrase := Phrase.isPhrase_text_read h (by simp [isPunctuation])
  not_keyword := head_text_read_ne_at h hs.not_comment hs.not_blank hs.not_keyword
  not_stray := by
    refine ⟨head_text_read_ne h hs.not_comment hs.not_blank (by decide) ?_,
      head_text_read_ne h hs.not_comment hs.not_blank (by decide) ?_⟩
    · rw [← h.head.isAmong_eq, hs.not_semicolon]
    · rw [← h.head.isAmong_eq, hs.not_close]
  inside := by
    intro _ c hc hend
    have hp : isPunctuation c = true := by
      revert hend
      simp only [List.mem_cons, List.not_mem_nil, or_false]
      rintro (rfl | rfl) <;> decide
    obtain ⟨u, hu, hk, htext⟩ := Phrase.mem_text_readFrom h false false hp hc
    have hstop := not_end_of_opensBlock h ho u hu
    rw [Token.isStop_iff.2 ⟨hk, c, hend, htext⟩] at hstop
    simp at hstop

/-- What is read before an opening brace outside of blocks is a selector. -/
theorem isSelector_outer (h : Lexed (t :: ts)) (hs : t.StartsRule) :
    IsSelector false (selectorPhrase (t :: ts)).text where
  phrase := Phrase.isPhrase_text_read h (by simp [isPunctuation])
  not_keyword := head_text_read_ne_at h hs.not_comment hs.not_blank hs.not_keyword
  not_stray := by
    have hstray := hs.not_stray
    rw [h.head.isAmong_eq, Bool.eq_false_iff, ne_eq, Token.isStop_iff] at hstray
    refine ⟨head_text_read_ne h hs.not_comment hs.not_blank (by decide) ?_,
      head_text_read_ne h hs.not_comment hs.not_blank (by decide) ?_⟩
    all_goals
      rw [Bool.eq_false_iff, ne_eq, Token.isStop_iff]
      rintro ⟨hk, c, hc, htext⟩
      rw [List.mem_singleton.1 hc] at htext
      exact hstray ⟨hk, _, by simp, htext⟩
  inside := by simp

/-- A phrase of an item has no opening brace where no brace opens a block. -/
theorem isPhrase_of_opensBlock {stops : Text} (h : Lexed ts) (ho : opensBlock ts = false)
    (hp : ∀ c ∈ stops, isPunctuation c = true) (hs : ∀ c ∈ [';', '}'], c ∈ stops) :
    IsPhrase ('{' :: stops) (Phrase.read stops ts).text := by
  refine ⟨Phrase.isTidy_text_read h, fun c hc hm => ?_⟩
  rcases List.mem_cons.1 hm with rfl | hm
  · obtain ⟨u, hu, hk, htext⟩ := Phrase.mem_text_readFrom h false false (by decide) hc
    have hopen := (not_open_of_opensBlock h ho hs).1 u hu
    rw [Token.isStop_iff.2 ⟨hk, '{', by simp, htext⟩] at hopen
    simp at hopen
  · exact Phrase.not_mem_text_read h (hp c hm) hm hc

/-- A declaration made of two phrases is well formed. -/
theorem wellFormed_ofPhrases {p v : Text} (hp : IsPhrase [':', ';', '{', '}'] p)
    (hk : p.head? ≠ some '@') (hv : IsPhrase [';', '{', '}'] v) :
    (Declaration.ofPhrases p v).WellFormed := by
  unfold Declaration.ofPhrases
  split
  · rename_i hs
    obtain ⟨u, rfl⟩ := List.isSuffixOf_iff_suffix.1 hs
    -- of `u` at most one space, the one before the mark, is taken off
    have htrim : IsTidy (Text.trim u) ∧ ∀ c ∈ Text.trim u, c ∈ u := by
      have ht : tidyFrom true (u ++ importantMark) = true :=
        hv.tidy.resolve_left (by simp [importantMark])
      obtain ⟨u', hu', ht'⟩ := tidyFrom_append_left ht
      rcases hu' with rfl | rfl
      · rw [(IsTidy.trim_eq ht').1]
        exact ⟨ht', fun _ => id⟩
      · rw [(IsTidy.trim_eq ht').2]
        exact ⟨ht', fun c hc => List.mem_append_left _ hc⟩
    refine ⟨hp, hk, ?_, by simp⟩
    rw [Text.dropEnd_append]
    exact ⟨htrim.1, fun c hc => hv.free c (List.mem_append_left _ (htrim.2 c hc))⟩
  · rename_i hs
    exact ⟨hp, hk, hv, fun _ => by rwa [← List.isSuffixOf_iff_suffix]⟩

/-- Where no brace opens a block, none does so behind the colon of a declaration. -/
theorem not_opensBlock_value (h : Lexed ts) (ho : opensBlock ts = false)
    (hcolon : Token.headIsAmong [':'] (propertyPhrase ts).rest = true) :
    opensBlock (propertyPhrase ts).rest.tail = false := by
  have hends : ∀ c ∈ [';', '}'], c ∈ [':', ';', '}'] := by simp
  have hrest : opensBlock (propertyPhrase ts).rest = false := by
    rw [propertyPhrase, Phrase.read, Phrase.rest_readFrom]
    exact (not_open_of_opensBlock h ho hends).2
  have hl : Lexed (propertyPhrase ts).rest := h.of_suffix (Phrase.read_suffix _ _)
  cases hr : (propertyPhrase ts).rest with
  | nil => rfl
  | cons u us =>
    rw [hr] at hl hrest hcolon
    rw [Token.headIsAmong, hl.head.isAmong_eq, Token.isStop_iff] at hcolon
    obtain ⟨huk, c, hc, hu⟩ := hcolon
    rw [List.mem_singleton.1 hc] at hu
    rwa [opensBlock_skip hl.head (by simp [Token.isStop, huk, hu])
      (by simp [Token.isStop, huk, hu])] at hrest

/-- **A declaration is well formed** where no brace opens a block. -/
theorem wellFormed_declaration (h : Lexed (t :: ts)) (hs : t.StartsItem)
    (ho : opensBlock (t :: ts) = false) :
    (∀ d ∈ (declaration (t :: ts)).value, d.WellFormed) ∧
      Rule.AllWellFormed true (declaration (t :: ts)).siblings := by
  have hp : IsPhrase [':', ';', '{', '}'] (propertyPhrase (t :: ts)).text :=
    (isPhrase_of_opensBlock h ho (by simp [isPunctuation]) (by simp)).mono (by simp)
  have hk : (propertyPhrase (t :: ts)).text.head? ≠ some '@' :=
    head_text_read_ne_at h hs.not_comment hs.not_blank hs.not_keyword
  cases hcolon : Token.headIsAmong [':'] (propertyPhrase (t :: ts)).rest with
  | true =>
    have hl : Lexed (propertyPhrase (t :: ts)).rest.tail :=
      h.of_suffix ((List.tail_suffix _).trans (Phrase.read_suffix _ _))
    have hv : IsPhrase [';', '{', '}'] (valuePhrase (propertyPhrase (t :: ts)).rest.tail).text :=
      (isPhrase_of_opensBlock hl (not_opensBlock_value h ho hcolon) (by simp [isPunctuation])
        (by simp)).mono (by simp)
    rw [declaration_colon hcolon]
    refine ⟨?_, Rule.allWellFormed_append.2 ⟨Phrase.allWellFormed_comments h true,
      Phrase.allWellFormed_comments hl true⟩⟩
    rintro d ⟨⟩
    exact wellFormed_ofPhrases hp hk hv
  | false =>
    rw [declaration_bare hcolon]
    refine ⟨?_, Phrase.allWellFormed_comments h true⟩
    intro d hd
    rw [Option.mem_def, Option.ite_none_left_eq_some, Option.some_inj] at hd
    obtain ⟨-, rfl⟩ := hd
    exact ⟨hp, hk, ⟨Or.inl rfl, by simp⟩, fun _ => by simp [importantMark]⟩

/-- The keyword of an at-rule is a keyword, its prelude a phrase. -/
theorem isKeyword_text (ht : t.Proper) (hk : t.kind = .atKeyword) : IsKeyword t.text := by
  unfold Token.Proper at ht
  rwa [hk] at ht

/-- **The routines return well-formed rules** on the tokens of a text. -/
theorem routines_wellFormed :
    (∀ ts, Lexed ts → (block ts).1.value.WellFormed) ∧
      (∀ t ts, Lexed (t :: ts) → t.kind = .atKeyword → ∀ inner,
        Rule.AllWellFormed inner ((atRule t ts).1.siblings ++ [(atRule t ts).1.value])) ∧
      ∀ t ts, Lexed (t :: ts) → ∀ inner, IsSelector inner (selectorPhrase (t :: ts)).text →
        Rule.AllWellFormed inner ((styleRule t ts).1.siblings ++ (styleRule t ts).1.value.toList)
    := by
  apply routines_induction
  case nil =>
    intro _
    rw [block_nil]
    exact ⟨by simp [Block.empty], trivial⟩
  case blank =>
    intro t ts hk ih h
    rw [block_blank hk]
    exact ih h.tail
  case comment =>
    intro t ts hk ih h
    rw [block_comment hk]
    exact ⟨(ih h.tail).1, Token.wellFormed_toComment h.head hk true, (ih h.tail).2⟩
  case close =>
    intro t ts hc _
    rw [block_close hc]
    exact ⟨by simp [Block.empty], trivial⟩
  case semicolon =>
    intro t ts hc hs ih h
    rw [block_semicolon hc hs]
    exact ih h.tail
  case keyword =>
    intro t ts hk ihA ih h
    have hb := ih (h.tail.of_suffix (routines_suffix.2.1 t ts))
    rw [block_atRule hk]
    exact ⟨hb.1, Rule.allWellFormed_append.2 ⟨ihA h hk true, hb.2⟩⟩
  case nested =>
    intro t ts hs ho ihS ih h
    have hb := ih (h.of_suffix ((routines_suffix.2.2 t ts).trans (List.suffix_cons t ts)))
    rw [block_styleRule hs ho]
    exact ⟨hb.1, Rule.allWellFormed_append.2 ⟨ihS h true (isSelector_nested h hs ho), hb.2⟩⟩
  case item =>
    intro t ts hs ho ih h
    have hd := wellFormed_declaration h hs ho
    have hb := ih (h.of_suffix (declaration_suffix _))
    rw [block_declaration hs ho]
    refine ⟨?_, Rule.allWellFormed_append.2 ⟨hd.2, hb.2⟩⟩
    intro d hd'
    rcases List.mem_append.1 hd' with hd' | hd'
    · exact hd.1 d (Option.mem_toList.1 hd')
    · exact hb.1 d hd'
  case statement =>
    intro t ts hr h hk inner
    rw [atRule_statement hr]
    exact Rule.allWellFormed_append.2 ⟨Phrase.allWellFormed_comments h.tail inner,
      ⟨isKeyword_text h.head hk, Phrase.isPhrase_text_read h.tail (by simp [isPunctuation])⟩,
      trivial⟩
  case group =>
    intro t ts t' rest hr ho ih h hk inner
    have hb := ih (h.tail.of_suffix ((List.suffix_cons t' rest).trans
      (hr ▸ Phrase.read_suffix _ _)))
    rw [atRule_group hr ho]
    exact ⟨⟨isKeyword_text h.head hk,
      Phrase.isPhrase_text_read h.tail (by simp [isPunctuation]), hb.1,
      Rule.allWellFormed_append.2 ⟨Phrase.allWellFormed_comments h.tail true, hb.2⟩⟩, trivial⟩
  case unopened =>
    intro t ts hr h inner _
    rw [styleRule_unopened hr]
    exact Rule.allWellFormed_append.2 ⟨Phrase.allWellFormed_comments h inner, trivial⟩
  case opened =>
    intro t ts t' rest hr ih h inner hsel
    have hb := ih (h.of_suffix ((List.suffix_cons t' rest).trans (hr ▸ Phrase.read_suffix _ _)))
    have hc : Rule.AllWellFormed inner (selectorPhrase (t :: ts)).comments :=
      Phrase.allWellFormed_comments h inner
    cases hs : isShell (selectorPhrase (t :: ts)).text (block rest).1.value with
    | true =>
      rw [styleRule_shell hr hs]
      exact Rule.allWellFormed_append.2 ⟨hc, trivial⟩
    | false =>
      rw [styleRule_kept hr hs]
      refine Rule.allWellFormed_append.2 ⟨hc, ⟨hsel, ?_, hb.1, hb.2⟩, trivial⟩
      intro he hd
      simp [isShell, he, hd] at hs

/-- **What the parser returns is well formed.** -/
theorem wellFormed_parse (h : Lexed ts) : Rule.AllWellFormed false (parse ts) := by
  induction ts using parse_induction with
  | nil => rw [parse_nil]; trivial
  | blank t ts hk ih => rw [parse_blank hk]; exact ih h.tail
  | comment t ts hk ih =>
    rw [parse_comment hk]
    exact ⟨Token.wellFormed_toComment h.head hk false, ih h.tail⟩
  | stray t ts hs ih => rw [parse_stray hs]; exact ih h.tail
  | keyword t ts hk ih =>
    rw [parse_atRule hk, ← List.singleton_append, ← List.append_assoc]
    exact Rule.allWellFormed_append.2 ⟨routines_wellFormed.2.1 t ts h hk false,
      ih (h.tail.of_suffix (routines_suffix.2.1 t ts))⟩
  | rule t ts hs ih =>
    rw [parse_styleRule hs]
    exact Rule.allWellFormed_append.2
      ⟨routines_wellFormed.2.2 t ts h false (isSelector_outer h hs),
        ih (h.tail.of_suffix (routines_suffix.2.2 t ts))⟩

end Routines

end Stylesheet
end Galley
