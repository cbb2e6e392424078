/-
# Comments as gaps

To the parser a comment is white space that leaves a rule behind.  If white space takes the place
of the comments among some tokens, then the parser returns the same tree without the comments
(`parse_muted`): a comment in a selector, a property, a value or a prelude changes neither what is
read there nor where anything else ends up, and white space of one kind is as good as another.

The two readings go side by side.  After every construct they stand before tokens that again differ
in gaps only, so the statement about a routine speaks of what it leaves unread as well
(`routines_muted`).
-/

import Galley.Proofs.Stylesheet.Normal

namespace Galley
namespace Stylesheet

/-! ### Trees without comments -/

/-- The options that leave out comments and nothing else. -/
def Options.uncommented : Options := { Options.standard with preserveComments := false }

namespace Rule

/-- Rules without the comments among them and inside them. -/
def uncommented (rs : List Rule) : List Rule := normalAll Options.uncommented rs

@[simp] theorem uncommented_nil : uncommented [] = [] := rfl

@[simp] theorem uncommented_comment (t : Text) (p : Position) (rs : List Rule) :
    uncommented (.comment t p :: rs) = uncommented rs := rfl

@[simp] theorem uncommented_statement (k pre : Text) (p : Position) (rs : List Rule) :
    uncommented (.statement k pre p :: rs) = .statement k pre p :: uncommented rs := rfl

@[simp] theorem uncommented_group (k pre : Text) (ds : List Declaration) (children : List Rule)
    (p : Position) (rs : List Rule) :
    uncommented (.group k pre ds children p :: rs) =
      .group k pre ds (uncommented children) p :: uncommented rs := rfl

@[simp] theorem uncommented_style (s : Text) (ds : List Declaration) (children : List Rule)
    (p : Position) (rs : List Rule) :
    uncommented (.style s ds children p :: rs) =
      .style s ds (uncommented children) p :: uncommented rs := rfl

@[simp] theorem uncommented_append (rs rs' : List Rule) :
    uncommented (rs ++ rs') = uncommented rs ++ uncommented rs' := normalAll_append ..

end Rule

/-- A block without the comments in it. -/
def Block.uncommented (b : Block) : Block := ⟨b.declarations, Rule.uncommented b.rules⟩

theorem Block.uncommented_withRules (b : Block) (rs : List Rule) :
    (b.withRules rs).uncommented = b.uncommented.withRules (Rule.uncommented rs) := by
  rw [withRules, uncommented, Rule.uncommented_append]
  rfl

/-! ### Tokens that differ in gaps -/

/-- Whether a token may stand in the place of another where comments do not matter: white space in
the place of a comment or of white space, else the token itself. -/
def Token.Muted (t t' : Token) : Prop :=
  if t.kind = .comment ∨ t.kind = .whitespace then t'.kind = .whitespace else t' = t

/-- Whether tokens are others with white space in the place of comments and of white space. -/
abbrev Muted (ts ts' : List Token) : Prop := List.Forall₂ Token.Muted ts ts'

variable {t t' : Token} {ts ts' : List Token} {stops chars : Text}

namespace Token.Muted

theorem kind_eq_whitespace (h : t.Muted t') (ht : t.kind = .comment ∨ t.kind = .whitespace) :
    t'.kind = .whitespace := by
  rwa [Token.Muted, if_pos ht] at h

theorem eq (h : t.Muted t') (hc : t.kind ≠ .comment) (hw : t.kind ≠ .whitespace) : t' = t := by
  rwa [Token.Muted, if_neg (by simp [hc, hw])] at h

theorem eq_of_punctuation (h : t.Muted t') (ht : t.kind = .punctuation) : t' = t :=
  h.eq (by simp [ht]) (by simp [ht])

/-- Either both tokens are gaps or they are the same. -/
theorem gap_or_eq (h : t.Muted t') :
    (t.kind ≠ .punctuation ∧ t'.kind ≠ .punctuation) ∨ t' = t := by
  by_cases ht : t.kind = .comment ∨ t.kind = .whitespace
  · refine Or.inl ⟨?_, by simp [h.kind_eq_whitespace ht]⟩
    rcases ht with ht | ht <;> simp [ht]
  · rw [not_or] at ht
    exact Or.inr (h.eq ht.1 ht.2)

theorem isAmong_eq (h : t.Muted t') (chars : Text) : t'.isAmong chars = t.isAmong chars := by
  rcases h.gap_or_eq with ⟨ht, ht'⟩ | rfl
  · rw [isAmong_of_kind ht, isAmong_of_kind ht']
  · rfl

end Token.Muted

namespace Muted

theorem headIsAmong_eq (h : Muted ts ts') (chars : Text) :
    Token.headIsAmong chars ts' = Token.headIsAmong chars ts := by
  cases h with
  | nil => rfl
  | cons h _ => exact h.isAmong_eq chars

theorem tail (h : Muted ts ts') : Muted ts.tail ts'.tail := by
  cases h with
  | nil => exact .nil
  | cons _ h => exact h

theorem skipSemicolon (h : Muted ts ts') : Muted (skipSemicolon ts) (skipSemicolon ts') := by
  unfold Stylesheet.skipSemicolon
  rw [h.headIsAmong_eq]
  split
  · exact h.tail
  · exact h

/-- The search for an opening brace passes over gaps. -/
theorem opensBlock_eq (h : Muted ts ts') : opensBlock ts' = opensBlock ts := by
  induction h with
  | nil => rfl
  | cons ht _ ih =>
    rw [opensBlock, opensBlock, ih]
    rcases ht.gap_or_eq with ⟨hk, hk'⟩ | rfl
    · rw [if_neg hk, if_neg hk']
    · rfl

end Muted

/-! ### Phrases -/

/-- Whether a phrase is another one read without the comments. -/
structure Phrase.Muted (p p' : Phrase) : Prop where
  text : p'.text = p.text
  comments : p'.comments = []
  left : Rule.uncommented p.comments = []
  rest : Stylesheet.Muted p.rest p'.rest

namespace Muted

theorem readFrom (h : Muted ts ts') (started gap : Bool) :
    (Phrase.readFrom stops started gap ts).Muted (Phrase.readFrom stops started gap ts') := by
  induction h generalizing started gap with
  | nil => exact ⟨rfl, rfl, rfl, .nil⟩
  | @cons t t' ts ts' ht h ih =>
    rcases Phrase.token_cases stops t with hs | hc | hw | ⟨hs, hc, hw⟩
    · have hk : t.kind = .punctuation := by
        by_contra hk
        simp [Phrase.isStop_of_kind hk] at hs
      obtain rfl := ht.eq_of_punctuation hk
      rw [Phrase.readFrom_stop hs, Phrase.readFrom_stop hs]
      exact ⟨rfl, rfl, rfl, .cons ht h⟩
    · have ih := ih started started
      rw [Phrase.readFrom_comment hc, Phrase.readFrom_blank (ht.kind_eq_whitespace (.inl hc))]
      exact ⟨ih.text, ih.comments, ih.left, ih.rest⟩
    · rw [Phrase.readFrom_blank hw, Phrase.readFrom_blank (ht.kind_eq_whitespace (.inr hw))]
      exact ih started started
    · have ih := ih true false
      obtain rfl := ht.eq hc hw
      rw [Phrase.readFrom_piece hs hc hw, Phrase.readFrom_piece hs hc hw, ih.text]
      exact ⟨rfl, ih.comments, ih.left, ih.rest⟩

/-- **A phrase has the same text** where its comments are gaps. -/
theorem read (h : Muted ts ts') (stops : Text) :
    (Phrase.read stops ts).Muted (Phrase.read stops ts') :=
  h.readFrom false false

/-! ### Routines -/

/-- **A declaration is the same**, and its comments are left out. -/
theorem declaration (h : Muted ts ts') :
    (declaration ts').value = (declaration ts).value ∧
      (declaration ts').siblings = Rule.uncommented (declaration ts).siblings ∧
      Muted (declaration ts).rest (declaration ts').rest := by
  have hname : (propertyPhrase ts).Muted (propertyPhrase ts') := h.read _
  have hcolon := hname.rest.headIsAmong_eq [':']
  cases hc : Token.headIsAmong [':'] (propertyPhrase ts).rest with
  | true =>
    have hvalue : (valuePhrase (propertyPhrase ts).rest.tail).Muted
        (valuePhrase (propertyPhrase ts').rest.tail) := hname.rest.tail.read _
    rw [declaration_colon hc, declaration_colon (hcolon.trans hc), hname.text, hvalue.text,
      hname.comments, hvalue.comments, Rule.uncommented_append, hname.left, hvalue.left]
    exact ⟨rfl, rfl, hvalue.rest.skipSemicolon⟩
  | false =>
    rw [declaration_bare hc, declaration_bare (hcolon.trans hc), hname.text, hname.comments,
      hname.left]
    exact ⟨rfl, rfl, hname.rest.skipSemicolon⟩

end Muted

/-- **The routines read muted tokens as they read the others**, but for the comments. -/
theorem routines_muted :
    (∀ ts ts', Muted ts ts' →
      (block ts').1.value = (block ts).1.value.uncommented ∧
        Muted (block ts).1.rest (block ts').1.rest) ∧
    (∀ t ts ts', Muted ts ts' →
      (atRule t ts').1.siblings ++ [(atRule t ts').1.value] =
          Rule.uncommented ((atRule t ts).1.siblings ++ [(atRule t ts).1.value]) ∧
        Muted (atRule t ts).1.rest (atRule t ts').1.rest) ∧
    ∀ t ts ts', Muted (t :: ts) (t :: ts') →
      (styleRule t ts').1.siblings ++ (styleRule t ts').1.value.toList =
          Rule.uncommented ((styleRule t ts).1.siblings ++ (styleRule t ts).1.value.toList) ∧
        Muted (styleRule t ts).1.rest (styleRule t ts').1.rest := by
  apply routines_induction
  case nil =>
    rintro _ ⟨⟩
    rw [block_nil]
    exact ⟨rfl, .nil⟩
  case blank =>
    rintro t ts hk ih _ (_ | ⟨ht, h⟩)
    rw [block_blank hk, block_blank (ht.kind_eq_whitespace (.inr hk))]
    exact ih _ h
  case comment =>
    rintro t ts hk ih _ (_ | ⟨ht, h⟩)
    obtain ⟨hvalue, hrest⟩ := ih _ h
    rw [block_comment hk, block_blank (ht.kind_eq_whitespace (.inl hk))]
    refine ⟨?_, hrest⟩
    rw [hvalue, Block.uncommented_withRules]
    rfl
  case close =>
    rintro t ts hc _ (_ | ⟨ht, h⟩)
    obtain rfl := ht.eq_of_punctuation (Token.kind_of_isAmong hc)
    rw [block_close hc, block_close hc]
    exact ⟨rfl, h⟩
  case semicolon =>
    rintro t ts hc hs ih _ (_ | ⟨ht, h⟩)
    obtain rfl := ht.eq_of_punctuation (Token.kind_of_isAmong hs)
    rw [block_semicolon hc hs, block_semicolon hc hs]
    exact ih _ h
  case keyword =>
    rintro t ts hk ihA ih _ (_ | ⟨ht, h⟩)
    obtain rfl := ht.eq (by simp [hk]) (by simp [hk])
    obtain ⟨hrules, hrest⟩ := ihA _ h
    obtain ⟨hvalue, hrest⟩ := ih _ hrest
    rw [block_atRule hk, block_atRule hk]
    refine ⟨?_, hrest⟩
    rw [Block.uncommented_withRules, hvalue, hrules]
  case nested =>
    rintro t ts hs ho ihS ih _ (_ | ⟨ht, h⟩)
    obtain rfl := ht.eq hs.not_comment hs.not_blank
    obtain ⟨hrules, hrest⟩ := ihS _ (.cons ht h)
    obtain ⟨hvalue, hrest⟩ := ih _ hrest
    have ho' := (Muted.opensBlock_eq (.cons ht h)).trans ho
    rw [block_styleRule hs ho, block_styleRule hs ho']
    refine ⟨?_, hrest⟩
    rw [Block.uncommented_withRules, hvalue, hrules]
  case item =>
    rintro t ts hs ho ih _ (_ | ⟨ht, h⟩)
    obtain rfl := ht.eq hs.not_comment hs.not_blank
    obtain ⟨hdecl, hsiblings, hrest⟩ := Muted.declaration (.cons ht h)
    obtain ⟨hvalue, hrest⟩ := ih _ hrest
    have ho' := (Muted.opensBlock_eq (.cons ht h)).trans ho
    rw [block_declaration hs ho, block_declaration hs ho']
    refine ⟨?_, hrest⟩
    rw [hdecl, hsiblings, hvalue, ← Block.uncommented_withRules]
    rfl
  case statement =>
    intro t ts hs ts' h
    have hprelude : (preludePhrase ts).Muted (preludePhrase ts') := h.read _
    have hs' := (hprelude.rest.headIsAmong_eq ['{']).trans hs
    rw [atRule_statement hs, atRule_statement hs', hprelude.text, hprelude.comments]
    exact ⟨by simp [hprelude.left], hprelude.rest.skipSemicolon⟩
  case group =>
    intro t ts u rest hr hu ih ts' h
    have hprelude : (preludePhrase ts).Muted (preludePhrase ts') := h.read _
    obtain ⟨u', rest', hu', hrest, hr'⟩ := List.forall₂_cons_left_iff.1 (hr ▸ hprelude.rest)
    obtain rfl := hu'.eq_of_punctuation (Token.kind_of_isAmong hu)
    obtain ⟨hvalue, hleft⟩ := ih _ hrest
    rw [atRule_group hr hu, atRule_group hr' hu, hprelude.text, hprelude.comments, hvalue]
    exact ⟨by simp [hprelude.left, Block.uncommented], hleft⟩
  case unopened =>
    intro t ts hr ts' h
    have hselector : (selectorPhrase (t :: ts)).Muted (selectorPhrase (t :: ts')) := h.read _
    have hr' := List.forall₂_nil_left_iff.1 (hr ▸ hselector.rest)
    rw [styleRule_unopened hr, styleRule_unopened hr', hselector.comments]
    exact ⟨by simp [hselector.left], .nil⟩
  case opened =>
    intro t ts u rest hr ih ts' h
    have hselector : (selectorPhrase (t :: ts)).Muted (selectorPhrase (t :: ts')) := h.read _
    obtain ⟨u', rest', -, hrest, hr'⟩ := List.forall₂_cons_left_iff.1 (hr ▸ hselector.rest)
    obtain ⟨hvalue, hleft⟩ := ih _ hrest
    have hshell : isShell (selectorPhrase (t :: ts')).text (block rest').1.value =
        isShell (selectorPhrase (t :: ts)).text (block rest).1.value := by
      rw [hselector.text, hvalue]
      rfl
    cases hs : isShell (selectorPhrase (t :: ts)).text (block rest).1.value with
    | true =>
      rw [styleRule_shell hr hs, styleRule_shell hr' (hshell.trans hs), hselector.comments]
      exact ⟨by simp [hselector.left], hleft⟩
    | false =>
      rw [styleRule_kept hr hs, styleRule_kept hr' (hshell.trans hs), hselector.comments,
        hselector.text, hvalue]
      exact ⟨by simp [hselector.left, Block.uncommented], hleft⟩

/-! ### Sheets -/

/-- **Comments are gaps.**  Where white space takes the place of the comments among some tokens, and
other white space that of white space, the parser returns the same rules in the same places, without
the comments at every depth. -/
theorem parse_muted (h : Muted ts ts') : parse ts' = Rule.uncommented (parse ts) := by
  induction ts using parse_induction generalizing ts' with
  | nil =>
    cases h
    rw [parse_nil]
    rfl
  | blank t ts hk ih =>
    obtain _ | ⟨ht, h⟩ := h
    rw [parse_blank hk, parse_blank (ht.kind_eq_whitespace (.inr hk)), ih h]
  | comment t ts hk ih =>
    obtain _ | ⟨ht, h⟩ := h
    rw [parse_comment hk, parse_blank (ht.kind_eq_whitespace (.inl hk)), ih h]
    rfl
  | stray t ts hs ih =>
    obtain _ | ⟨ht, h⟩ := h
    obtain rfl := ht.eq_of_punctuation (Token.kind_of_isAmong hs)
    rw [parse_stray hs, parse_stray hs, ih h]
  | keyword t ts hk ih =>
    obtain _ | ⟨ht, h⟩ := h
    obtain rfl := ht.eq (by simp [hk]) (by simp [hk])
    obtain ⟨hrules, hrest⟩ := routines_muted.2.1 _ _ _ h
    rw [parse_atRule hk, parse_atRule hk, List.append_cons, hrules, ih hrest,
      ← Rule.uncommented_append, ← List.append_cons]
  | rule t ts hs ih =>
    obtain _ | ⟨ht, h⟩ := h
    obtain rfl := ht.eq hs.not_comment hs.not_blank
    obtain ⟨hrules, hrest⟩ := routines_muted.2.2 _ _ _ (.cons ht h)
    rw [parse_styleRule hs, parse_styleRule hs, hrules, ih hrest, ← Rule.uncommented_append]

/-- Comments with marks in them, in a selector and in a value, become a space and a line feed. -/
theorem parse_muted_marks :
    let ts' : List Token :=
      [⟨.text, ['a'], ⟨1, 1⟩⟩, ⟨.whitespace, [' '], ⟨1, 2⟩⟩, ⟨.text, ['b'], ⟨1, 7⟩⟩,
        ⟨.punctuation, ['{'], ⟨1, 8⟩⟩, ⟨.text, ['p'], ⟨1, 9⟩⟩, ⟨.punctuation, [':'], ⟨1, 10⟩⟩,
        ⟨.whitespace, ['\n'], ⟨1, 11⟩⟩, ⟨.punctuation, ['}'], ⟨1, 16⟩⟩]
    Muted (Token.scan "a/*\x7b*/b\x7bp:/*;*/\x7d".toList) ts' ∧
      parse ts' = Rule.uncommented (parse (Token.scan "a/*\x7b*/b\x7bp:/*;*/\x7d".toList)) := by
  intro ts'
  have hscan : Token.scan "a/*\x7b*/b\x7bp:/*;*/\x7d".toList =
      [⟨.text, ['a'], ⟨1, 1⟩⟩, ⟨.comment, "/*\x7b*/".toList, ⟨1, 2⟩⟩, ⟨.text, ['b'], ⟨1, 7⟩⟩,
        ⟨.punctuation, ['{'], ⟨1, 8⟩⟩, ⟨.text, ['p'], ⟨1, 9⟩⟩, ⟨.punctuation, [':'], ⟨1, 10⟩⟩,
        ⟨.comment, "/*;*/".toList, ⟨1, 11⟩⟩, ⟨.punctuation, ['}'], ⟨1, 16⟩⟩] := by
    decide +kernel
  have h : Muted (Token.scan "a/*\x7b*/b\x7bp:/*;*/\x7d".toList) ts' := by
    rw [hscan]
    simp [Token.Muted, ts']
  exact ⟨h, parse_muted h⟩

end Stylesheet
end Galley
