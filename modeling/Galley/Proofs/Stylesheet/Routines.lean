/-
# The routines of the parser, one equation for each way

`block`, `atRule`, `styleRule` and `sheet` read tokens by cases.  Each equation below is one of
these cases, with the condition under which it applies; what is proved about the parser refers to
them and does not open the routines again.

| routine | ways |
| --- | --- |
| `block` | the end, white space, a comment, `}`, `;`, an at-rule, a nested rule, a declaration |
| `atRule` | a statement, a group |
| `styleRule` | no block, a block that is discarded, a rule |
| `sheet` | as `block`, but `}` is skipped and there are no declarations |

No routine reads behind its answer: what it leaves is an ending of what it was given
(`routines_suffix`).
-/

import Galley.Proofs.Stylesheet.Phrase

namespace Galley
namespace Stylesheet

variable {t t' : Token} {ts rest : List Token}

theorem Token.isAmong_of_kind {chars : Text} (h : t.kind ≠ .punctuation) :
    t.isAmong chars = false := by
  simp [Token.isAmong, h]

/-! ### Blocks -/

theorem block_nil : (block []).1 = ⟨.empty, [], [.unclosedBlock], []⟩ := by
  rw [block]

theorem block_blank (h : t.kind = .whitespace) : (block (t :: ts)).1 = (block ts).1 := by
  rw [block]
  simp [h]

theorem block_comment (h : t.kind = .comment) :
    (block (t :: ts)).1 =
      ⟨(block ts).1.value.withRules [t.toComment], [], t.commentNotes ++ (block ts).1.notes,
        (block ts).1.rest⟩ := by
  rw [block]
  simp [h]

theorem Token.kind_of_isAmong {chars : Text} (h : t.isAmong chars = true) :
    t.kind = .punctuation := by
  by_contra hk
  simp [Token.isAmong_of_kind hk] at h

theorem block_close (h : t.isAmong ['}'] = true) :
    (block (t :: ts)).1 = ⟨.empty, [], [], ts⟩ := by
  rw [block]
  simp [h, Token.kind_of_isAmong h]

theorem block_semicolon (hc : t.isAmong ['}'] = false) (h : t.isAmong [';'] = true) :
    (block (t :: ts)).1 = (block ts).1 := by
  rw [block]
  simp [h, hc, Token.kind_of_isAmong h]

theorem block_atRule (h : t.kind = .atKeyword) :
    (block (t :: ts)).1 =
      ⟨(block (atRule t ts).1.rest).1.value.withRules
          ((atRule t ts).1.siblings ++ [(atRule t ts).1.value]), [],
        (atRule t ts).1.notes ++ (block (atRule t ts).1.rest).1.notes,
        (block (atRule t ts).1.rest).1.rest⟩ := by
  rw [block]
  simp [h, Token.isAmong_of_kind]

/-- Whether a selector or a property may begin with a token inside a block. -/
structure Token.StartsItem (t : Token) : Prop where
  not_blank : t.kind ≠ .whitespace
  not_comment : t.kind ≠ .comment
  not_keyword : t.kind ≠ .atKeyword
  not_close : t.isAmong ['}'] = false
  not_semicolon : t.isAmong [';'] = false

theorem block_styleRule (h : t.StartsItem) (ho : opensBlock (t :: ts) = true) :
    (block (t :: ts)).1 =
      ⟨(block (styleRule t ts).1.rest).1.value.withRules
          ((styleRule t ts).1.siblings ++ (styleRule t ts).1.value.toList), [],
        (styleRule t ts).1.notes ++ (block (styleRule t ts).1.rest).1.notes,
        (block (styleRule t ts).1.rest).1.rest⟩ := by
  rw [block]
  simp [h.not_blank, h.not_comment, h.not_keyword, h.not_close, h.not_semicolon, ho]

theorem block_declaration (h : t.StartsItem) (ho : opensBlock (t :: ts) = false) :
    (block (t :: ts)).1 =
      ⟨((block (declaration (t :: ts)).rest).1.value.withRules
          (declaration (t :: ts)).siblings).withDeclaration (declaration (t :: ts)).value, [],
        (declaration (t :: ts)).notes ++ (block (declaration (t :: ts)).rest).1.notes,
        (block (declaration (t :: ts)).rest).1.rest⟩ := by
  rw [block]
  simp [h.not_blank, h.not_comment, h.not_keyword, h.not_close, h.not_semicolon, ho]

/-- The ways of a block that does not end with the input. -/
theorem block_cases (t : Token) (ts : List Token) :
    t.kind = .whitespace ∨ t.kind = .comment ∨ t.isAmong ['}'] = true ∨
      (t.isAmong ['}'] = false ∧ t.isAmong [';'] = true) ∨ t.kind = .atKeyword ∨
      (t.StartsItem ∧ opensBlock (t :: ts) = true) ∨
      (t.StartsItem ∧ opensBlock (t :: ts) = false) := by
  by_cases hw : t.kind = .whitespace
  · exact Or.inl hw
  by_cases hc : t.kind = .comment
  · exact Or.inr (Or.inl hc)
  by_cases hk : t.kind = .atKeyword
  · simp [hk]
  cases h₁ : t.isAmong ['}']
  · cases h₂ : t.isAmong [';']
    · have h : t.StartsItem := ⟨hw, hc, hk, h₁, h₂⟩
      cases opensBlock (t :: ts) <;> simp [h]
    · simp
  · simp

/-! ### Declarations -/

/-- The property of a declaration and what follows it. -/
abbrev propertyPhrase (ts : List Token) : Phrase := Phrase.read [':', ';', '}'] ts

/-- The text after the colon of a declaration and what follows it. -/
abbrev valuePhrase (ts : List Token) : Phrase := Phrase.read [';', '}'] ts

theorem declaration_colon (h : Token.headIsAmong [':'] (propertyPhrase ts).rest = true) :
    declaration ts =
      ⟨some (.ofPhrases (propertyPhrase ts).text (valuePhrase (propertyPhrase ts).rest.tail).text),
        (propertyPhrase ts).comments ++ (valuePhrase (propertyPhrase ts).rest.tail).comments,
        (propertyPhrase ts).notes ++ (valuePhrase (propertyPhrase ts).rest.tail).notes,
        skipSemicolon (valuePhrase (propertyPhrase ts).rest.tail).rest⟩ := by
  simp [declaration, h]

theorem declaration_bare (h : Token.headIsAmong [':'] (propertyPhrase ts).rest = false) :
    declaration ts =
      ⟨if (propertyPhrase ts).text.isEmpty then none
        else some ⟨(propertyPhrase ts).text, [], false⟩,
        (propertyPhrase ts).comments, (propertyPhrase ts).notes,
        skipSemicolon (propertyPhrase ts).rest⟩ := by
  simp [declaration, h]

/-! ### At-rules -/

/-- The prelude of an at-rule and what follows it. -/
abbrev preludePhrase (ts : List Token) : Phrase := Phrase.read [';', '{', '}'] ts

theorem atRule_statement (h : Token.headIsAmong ['{'] (preludePhrase ts).rest = false) :
    (atRule t ts).1 =
      ⟨.statement t.text (preludePhrase ts).text t.position, (preludePhrase ts).comments,
        (preludePhrase ts).notes,
        skipSemicolon (preludePhrase ts).rest⟩ := by
  rw [atRule]
  split
  · rename_i hr
    simp [hr, skipSemicolon, Token.headIsAmong]
  · rename_i u us hr
    have hu : u.isAmong ['{'] = false := by simpa [hr, Token.headIsAmong] using h
    simp [hr, hu]

theorem atRule_group (hr : (preludePhrase ts).rest = t' :: rest) (h : t'.isAmong ['{'] = true) :
    (atRule t ts).1 =
      ⟨.group t.text (preludePhrase ts).text (block rest).1.value.declarations
          ((preludePhrase ts).comments ++ (block rest).1.value.rules) t.position, [],
        (preludePhrase ts).notes ++ (block rest).1.notes, (block rest).1.rest⟩ := by
  rw [atRule]
  split
  · rename_i hr'
    simp [hr'] at hr
  · rename_i u us hr'
    obtain ⟨rfl, rfl⟩ := List.cons.inj (hr'.symm.trans hr)
    simp [h]

/-! ### Style rules -/

/-- The selector that begins with a token and what follows it. -/
abbrev selectorPhrase (ts : List Token) : Phrase := Phrase.read ['{'] ts

theorem styleRule_unopened (h : (selectorPhrase (t :: ts)).rest = []) :
    (styleRule t ts).1 =
      ⟨none, (selectorPhrase (t :: ts)).comments,
        (selectorPhrase (t :: ts)).notes ++
          [.selectorWithoutBlock (selectorPhrase (t :: ts)).text], []⟩ := by
  rw [styleRule]
  split
  · rfl
  · rename_i hr
    simp [h] at hr

/-- Whether a style rule is discarded. -/
abbrev isShell (head : Text) (b : Block) : Bool := head.isEmpty && b.declarations.isEmpty

theorem styleRule_shell (hr : (selectorPhrase (t :: ts)).rest = t' :: rest)
    (h : isShell (selectorPhrase (t :: ts)).text (block rest).1.value = true) :
    (styleRule t ts).1 =
      ⟨none, (selectorPhrase (t :: ts)).comments,
        (selectorPhrase (t :: ts)).notes ++ (block rest).1.notes ++ [.emptyRule t.position],
        (block rest).1.rest⟩ := by
  rw [styleRule]
  split
  · rename_i hr'
    simp [hr'] at hr
  · rename_i u us hr'
    obtain ⟨rfl, rfl⟩ := List.cons.inj (hr'.symm.trans hr)
    simp only [h, if_true]

theorem styleRule_kept (hr : (selectorPhrase (t :: ts)).rest = t' :: rest)
    (h : isShell (selectorPhrase (t :: ts)).text (block rest).1.value = false) :
    (styleRule t ts).1 =
      ⟨some (.style (selectorPhrase (t :: ts)).text (block rest).1.value.declarations
          (block rest).1.value.rules t.position), (selectorPhrase (t :: ts)).comments,
        (selectorPhrase (t :: ts)).notes ++ (block rest).1.notes, (block rest).1.rest⟩ := by
  rw [styleRule]
  split
  · rename_i hr'
    simp [hr'] at hr
  · rename_i u us hr'
    obtain ⟨rfl, rfl⟩ := List.cons.inj (hr'.symm.trans hr)
    simp only [h, Bool.false_eq_true, if_false]

/-! ### Sheets -/

theorem parse_nil : parse [] = [] := by
  rw [parse, sheet]

theorem parse_blank (h : t.kind = .whitespace) : parse (t :: ts) = parse ts := by
  rw [parse, sheet]
  simp [h, parse]

theorem parse_comment (h : t.kind = .comment) :
    parse (t :: ts) = t.toComment :: parse ts := by
  rw [parse, sheet]
  simp [h, parse]

theorem parse_stray (h : t.isAmong ['}', ';'] = true) : parse (t :: ts) = parse ts := by
  rw [parse, sheet]
  simp [h, Token.kind_of_isAmong h, parse]

theorem parse_atRule (h : t.kind = .atKeyword) :
    parse (t :: ts) =
      (atRule t ts).1.siblings ++ (atRule t ts).1.value :: parse (atRule t ts).1.rest := by
  rw [parse, sheet]
  simp [h, Token.isAmong_of_kind, parse]

/-- Whether a selector may begin with a token outside of blocks. -/
structure Token.StartsRule (t : Token) : Prop where
  not_blank : t.kind ≠ .whitespace
  not_comment : t.kind ≠ .comment
  not_keyword : t.kind ≠ .atKeyword
  not_stray : t.isAmong ['}', ';'] = false

theorem parse_styleRule (h : t.StartsRule) :
    parse (t :: ts) =
      (styleRule t ts).1.siblings ++ (styleRule t ts).1.value.toList ++
        parse (styleRule t ts).1.rest := by
  rw [parse, sheet]
  simp [h.not_blank, h.not_comment, h.not_keyword, h.not_stray, parse]

/-- The ways of a sheet that is not at its end. -/
theorem parse_cases (t : Token) :
    t.kind = .whitespace ∨ t.kind = .comment ∨ t.isAmong ['}', ';'] = true ∨
      t.kind = .atKeyword ∨ t.StartsRule := by
  by_cases hw : t.kind = .whitespace
  · exact Or.inl hw
  by_cases hc : t.kind = .comment
  · exact Or.inr (Or.inl hc)
  by_cases hk : t.kind = .atKeyword
  · simp [hk]
  cases h : t.isAmong ['}', ';']
  · exact Or.inr (Or.inr (Or.inr (Or.inr ⟨hw, hc, hk, h⟩)))
  · simp

/-! ### What is left unread -/

theorem Phrase.read_suffix (stops : Text) (ts : List Token) :
    (Phrase.read stops ts).rest <:+ ts := by
  rw [Phrase.read, Phrase.rest_readFrom]
  exact List.dropWhile_suffix _

theorem skipSemicolon_suffix (ts : List Token) : skipSemicolon ts <:+ ts := by
  unfold skipSemicolon
  split
  · exact List.tail_suffix ts
  · exact List.suffix_rfl

theorem declaration_suffix (ts : List Token) : (declaration ts).rest <:+ ts := by
  cases h : Token.headIsAmong [':'] (propertyPhrase ts).rest with
  | true =>
    rw [declaration_colon h]
    exact (skipSemicolon_suffix _).trans ((Phrase.read_suffix _ _).trans
      ((List.tail_suffix _).trans (Phrase.read_suffix _ _)))
  | false =>
    rw [declaration_bare h]
    exact (skipSemicolon_suffix _).trans (Phrase.read_suffix _ _)

/-! ### Induction along the routines -/

/-- **Induction along the routines.**  `B` is about `block`, `A` about `atRule` and `S` about
`styleRule`; each case may use what holds of the calls that the routine makes there. -/
theorem routines_induction {B : List Token → Prop} {A S : Token → List Token → Prop}
    (nil : B [])
    (blank : ∀ t ts, t.kind = .whitespace → B ts → B (t :: ts))
    (comment : ∀ t ts, t.kind = .comment → B ts → B (t :: ts))
    (close : ∀ t ts, t.isAmong ['}'] = true → B (t :: ts))
    (semicolon : ∀ t ts, t.isAmong ['}'] = false → t.isAmong [';'] = true → B ts → B (t :: ts))
    (keyword : ∀ t ts, t.kind = .atKeyword → A t ts → B (atRule t ts).1.rest → B (t :: ts))
    (nested : ∀ t ts, t.StartsItem → opensBlock (t :: ts) = true → S t ts →
      B (styleRule t ts).1.rest → B (t :: ts))
    (item : ∀ t ts, t.StartsItem → opensBlock (t :: ts) = false →
      B (declaration (t :: ts)).rest → B (t :: ts))
    (statement : ∀ t ts, Token.headIsAmong ['{'] (preludePhrase ts).rest = false → A t ts)
    (group : ∀ t ts t' rest, (preludePhrase ts).rest = t' :: rest → t'.isAmong ['{'] = true →
      B rest → A t ts)
    (unopened : ∀ t ts, (selectorPhrase (t :: ts)).rest = [] → S t ts)
    (opened : ∀ t ts t' rest, (selectorPhrase (t :: ts)).rest = t' :: rest → B rest → S t ts) :
    (∀ ts, B ts) ∧ (∀ t ts, A t ts) ∧ ∀ t ts, S t ts := by
  -- an at-rule and a style rule hold if the blocks in the tokens after their first one do
  have atRules : ∀ t ts, (∀ us : List Token, us.length ≤ ts.length → B us) → A t ts := by
    intro t ts ih
    cases h : Token.headIsAmong ['{'] (preludePhrase ts).rest with
    | false => exact statement t ts h
    | true =>
      cases hr : (preludePhrase ts).rest with
      | nil => simp [hr, Token.headIsAmong] at h
      | cons t' rest =>
        have hl := (Phrase.read_suffix [';', '{', '}'] ts).length_le
        rw [hr, List.length_cons] at hl
        exact group t ts t' rest hr (by simpa [hr, Token.headIsAmong] using h) (ih rest (by omega))
  have styleRules : ∀ t ts, (∀ us : List Token, us.length ≤ ts.length → B us) → S t ts := by
    intro t ts ih
    cases hr : (selectorPhrase (t :: ts)).rest with
    | nil => exact unopened t ts hr
    | cons t' rest =>
      have hl := (Phrase.read_suffix ['{'] (t :: ts)).length_le
      rw [hr, List.length_cons, List.length_cons] at hl
      exact opened t ts t' rest hr (ih rest (by omega))
  have blocks : ∀ ts, B ts := by
    intro ts
    induction hn : ts.length using Nat.strongRecOn generalizing ts with
    | ind n ih =>
      cases ts with
      | nil => exact nil
      | cons t ts =>
        subst hn
        have ih : ∀ us : List Token, us.length ≤ ts.length → B us := fun us hus =>
          ih us.length (Nat.lt_succ_of_le hus) us rfl
        rcases block_cases t ts with h | h | h | ⟨hc, h⟩ | h | ⟨hs, h⟩ | ⟨hs, h⟩
        · exact blank t ts h (ih ts le_rfl)
        · exact comment t ts h (ih ts le_rfl)
        · exact close t ts h
        · exact semicolon t ts hc h (ih ts le_rfl)
        · exact keyword t ts h (atRules t ts ih) (ih _ (atRule t ts).2)
        · exact nested t ts hs h (styleRules t ts ih) (ih _ (styleRule t ts).2)
        · exact item t ts hs h
            (ih _ (length_rest_declaration_cons_le ts hs.not_semicolon hs.not_close))
  exact ⟨blocks, fun t ts => atRules t ts fun us _ => blocks us,
    fun t ts => styleRules t ts fun us _ => blocks us⟩

/-- **Every routine leaves an ending of its tokens.** -/
theorem routines_suffix :
    (∀ ts, (block ts).1.rest <:+ ts) ∧ (∀ t ts, (atRule t ts).1.rest <:+ ts) ∧
      ∀ t ts, (styleRule t ts).1.rest <:+ ts := by
  apply routines_induction
  case nil => simp [block_nil]
  case blank =>
    intro t ts h ih
    rw [block_blank h]
    exact ih.trans (List.suffix_cons t ts)
  case comment =>
    intro t ts h ih
    rw [block_comment h]
    exact ih.trans (List.suffix_cons t ts)
  case close =>
    intro t ts h
    rw [block_close h]
    exact List.suffix_cons t ts
  case semicolon =>
    intro t ts hc h ih
    rw [block_semicolon hc h]
    exact ih.trans (List.suffix_cons t ts)
  case keyword =>
    intro t ts h ihA ih
    rw [block_atRule h]
    exact ih.trans (ihA.trans (List.suffix_cons t ts))
  case nested =>
    intro t ts hs ho ihS ih
    rw [block_styleRule hs ho]
    exact ih.trans (ihS.trans (List.suffix_cons t ts))
  case item =>
    intro t ts hs ho ih
    rw [block_declaration hs ho]
    exact ih.trans (declaration_suffix _)
  case statement =>
    intro t ts h
    rw [atRule_statement h]
    exact (skipSemicolon_suffix _).trans (Phrase.read_suffix _ _)
  case group =>
    intro t ts t' rest hr h ih
    rw [atRule_group hr h]
    exact ih.trans ((List.suffix_cons t' rest).trans (hr ▸ Phrase.read_suffix _ _))
  case unopened =>
    intro t ts h
    rw [styleRule_unopened h]
    exact List.nil_suffix
  case opened =>
    intro t ts t' rest hr ih
    have hs : t' :: rest <:+ t :: ts := hr ▸ Phrase.read_suffix _ _
    have hrest : rest <:+ ts := by
      rcases List.suffix_cons_iff.1 hs with h | h
      · exact (List.cons.inj h).2 ▸ List.suffix_rfl
      · exact (List.suffix_cons t' rest).trans h
    cases h : isShell (selectorPhrase (t :: ts)).text (block rest).1.value with
    | true => rw [styleRule_shell hr h]; exact ih.trans hrest
    | false => rw [styleRule_kept hr h]; exact ih.trans hrest

/-- Induction along a sheet, which calls the routines one after the other. -/
theorem parse_induction {P : List Token → Prop} (nil : P [])
    (blank : ∀ t ts, t.kind = .whitespace → P ts → P (t :: ts))
    (comment : ∀ t ts, t.kind = .comment → P ts → P (t :: ts))
    (stray : ∀ t ts, t.isAmong ['}', ';'] = true → P ts → P (t :: ts))
    (keyword : ∀ t ts, t.kind = .atKeyword → P (atRule t ts).1.rest → P (t :: ts))
    (rule : ∀ t ts, t.StartsRule → P (styleRule t ts).1.rest → P (t :: ts)) (ts : List Token) :
    P ts := by
  induction hn : ts.length using Nat.strongRecOn generalizing ts with
  | ind n ih =>
    cases ts with
    | nil => exact nil
    | cons t ts =>
      subst hn
      have ih : ∀ us : List Token, us.length ≤ ts.length → P us := fun us hus =>
        ih us.length (Nat.lt_succ_of_le hus) us rfl
      rcases parse_cases t with h | h | h | h | h
      · exact blank t ts h (ih ts le_rfl)
      · exact comment t ts h (ih ts le_rfl)
      · exact stray t ts h (ih ts le_rfl)
      · exact keyword t ts h (ih _ (atRule t ts).2)
      · exact rule t ts h (ih _ (styleRule t ts).2)

end Stylesheet
end Galley
