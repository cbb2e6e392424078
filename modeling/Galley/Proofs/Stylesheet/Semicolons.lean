/-
# Stray semicolons

A semicolon ends a declaration or a statement, and where there is nothing to end it is skipped.
Next to the braces of a block it therefore changes nothing (`parse_insert_semicolon`):

| place | met by | with the effect of |
| --- | --- | --- |
| behind `{` | the block that begins there | nothing |
| before the `}` of a block | a property, a value or a prelude | the `}` |
| before the `}` of a block | the block, between its items | nothing |
| behind the `}` of a block | the block or the sheet around it | nothing |

A `}` that closes no block may stand in a selector, and a semicolon beside it would be part of the
selector.  So the place depends on the depth of braces, which the parser does not count:
`Sprinkled b d ts us` carries the depth `d` along the tokens, and `b` tells whether a brace of a
block stands just before them.  Any number of semicolons may be put in at any of the places.
-/

import Galley.Proofs.Stylesheet.Depth

namespace Galley
namespace Stylesheet

/-- A semicolon. -/
def Token.semicolon (p : Position) : Token := ⟨.punctuation, [';'], p⟩

/-- Whether a token that is met at a depth is a brace of a block. -/
def Token.isBraceAt (d : Nat) (t : Token) : Bool :=
  t.isStop ['{'] || t.isStop ['}'] && decide (0 < d)

/-- Whether tokens are others, met at a depth, with semicolons beside the braces of blocks;
`behind` tells whether such a brace stands before them. -/
inductive Sprinkled : Bool → Nat → List Token → List Token → Prop
  | nil {behind : Bool} {d : Nat} : Sprinkled behind d [] []
  | keep {behind : Bool} {d : Nat} {t : Token} {ts us : List Token} :
    Sprinkled (t.isBraceAt d) (t.depthAfter d) ts us → Sprinkled behind d (t :: ts) (t :: us)
  | behind {d : Nat} {p : Position} {ts us : List Token} :
    Sprinkled true d ts us → Sprinkled true d ts (.semicolon p :: us)
  | before {behind : Bool} {d : Nat} {p : Position} {t : Token} {ts us : List Token} :
    t.isStop ['}'] = true → 0 < d → Sprinkled behind d (t :: ts) us →
    Sprinkled behind d (t :: ts) (.semicolon p :: us)

variable {behind : Bool} {d : Nat} {p : Position} {t : Token} {ts us : List Token} {stops : Text}

namespace Token

/-- What does not change the depth is no brace of a block. -/
theorem isBraceAt_eq_false (h : t.depthAfter d = d) : t.isBraceAt d = false := by
  unfold isBraceAt
  cases ho : t.isStop ['{'] with
  | true => simp [depthAfter_open ho] at h
  | false =>
    cases hc : t.isStop ['}'] with
    | true =>
      rw [depthAfter_close hc] at h
      have hd : ¬ 0 < d := by omega
      simp [hd]
    | false => rfl

end Token

/-! ### What is sprinkled where -/

namespace Sprinkled

theorem refl (ts : List Token) : Sprinkled behind d ts ts := by
  induction ts generalizing behind d with
  | nil => exact .nil
  | cons t ts ih => exact .keep ih

/-- Behind a brace there is no less room for semicolons. -/
theorem loose (h : Sprinkled behind d ts us) : Sprinkled true d ts us := by
  induction h with
  | nil => exact .nil
  | keep h _ => exact .keep h
  | behind _ ih => exact .behind ih
  | before ht hd _ ih => exact .before ht hd ih

/-- Behind all tokens there are semicolons only. -/
theorem of_nil (h : Sprinkled behind d [] us) : ∃ ps : List Position, us = ps.map .semicolon := by
  generalize hts : ([] : List Token) = ts at h
  induction h with
  | nil => exact ⟨[], rfl⟩
  | keep => simp at hts
  | @behind d p ts us _ ih =>
    obtain ⟨ps, rfl⟩ := ih hts
    exact ⟨p :: ps, rfl⟩
  | before => simp at hts

/-- In front of a token there are semicolons, if any. -/
theorem of_cons (h : Sprinkled behind d (t :: ts) us) :
    ∃ (ps : List Position) (vs : List Token), us = ps.map .semicolon ++ t :: vs ∧
      Sprinkled (t.isBraceAt d) (t.depthAfter d) ts vs := by
  generalize hts : t :: ts = ts' at h
  induction h with
  | nil => simp at hts
  | keep h _ =>
    obtain ⟨rfl, rfl⟩ := List.cons.inj hts
    exact ⟨[], _, rfl, h⟩
  | @behind d p ts us _ ih =>
    obtain ⟨ps, vs, rfl, h⟩ := ih hts
    exact ⟨p :: ps, vs, rfl, h⟩
  | @before behind d p t ts us _ _ _ ih =>
    obtain ⟨ps, vs, rfl, h⟩ := ih hts
    exact ⟨p :: ps, vs, rfl, h⟩

/-- Where no brace stands before it, a token that closes no block comes first. -/
theorem eq_cons (h : Sprinkled false d (t :: ts) us) (ht : t.isStop ['}'] = false ∨ d = 0) :
    ∃ vs, us = t :: vs ∧ Sprinkled (t.isBraceAt d) (t.depthAfter d) ts vs := by
  cases h with
  | keep h => exact ⟨_, rfl, h⟩
  | before hc hd _ =>
    rcases ht with ht | rfl
    · simp [hc] at ht
    · simp at hd

theorem eq_nil (h : Sprinkled false d [] us) : us = [] := by
  cases h
  rfl

/-! ### Phrases -/

/-- **A phrase is the same** where the depth does not change in it, and it leaves sprinkled
tokens.  A phrase that a closing brace stops is stopped by a semicolon as well. -/
theorem readFrom (h : Sprinkled false d ts us) (hs : '}' ∈ stops → ';' ∈ stops)
    (hlevel : ∀ t ∈ ts.takeWhile fun t => !t.isStop stops, t.depthAfter d = d)
    (started gap : Bool) :
    ∃ rest, Phrase.readFrom stops started gap us =
        ⟨(Phrase.readFrom stops started gap ts).text,
          (Phrase.readFrom stops started gap ts).comments,
          (Phrase.readFrom stops started gap ts).notes, rest⟩ ∧
      Sprinkled false d (Phrase.readFrom stops started gap ts).rest rest := by
  induction ts generalizing us started gap with
  | nil =>
    obtain rfl := h.eq_nil
    exact ⟨[], rfl, .nil⟩
  | cons t ts ih =>
    cases hstop : t.isStop stops with
    | true =>
      refine ⟨us, ?_, by rwa [Phrase.readFrom_stop hstop]⟩
      rw [Phrase.readFrom_stop hstop]
      cases h with
      | keep _ => exact Phrase.readFrom_stop hstop
      | before hc _ _ =>
        -- the closing brace is a stop, and so is the semicolon
        obtain ⟨-, c, hc, htext⟩ := Token.isStop_iff.1 hc
        obtain ⟨-, c', hc', htext'⟩ := Token.isStop_iff.1 hstop
        rw [htext, List.mem_singleton.1 hc] at htext'
        rw [← (List.cons.inj htext').1] at hc'
        exact Phrase.readFrom_stop (by simp [Token.isStop, Token.semicolon, hs hc'])
    | false =>
      rw [List.takeWhile_cons_of_pos (by simp [hstop]), List.forall_mem_cons] at hlevel
      obtain ⟨ht, hlevel⟩ := hlevel
      have hclose : t.isStop ['}'] = false ∨ d = 0 := by
        cases hc : t.isStop ['}'] with
        | false => exact Or.inl rfl
        | true =>
          rw [Token.depthAfter_close hc] at ht
          omega
      obtain ⟨vs, rfl, hvs⟩ := h.eq_cons hclose
      rw [Token.isBraceAt_eq_false ht, ht] at hvs
      rcases Phrase.token_cases stops t with hs' | hc | hw | ⟨-, hc, hw⟩
      · simp [hstop] at hs'
      · obtain ⟨rest, hread, hrest⟩ := ih hvs hlevel started started
        exact ⟨rest, by rw [Phrase.readFrom_comment hc, Phrase.readFrom_comment hc, hread],
          by rwa [Phrase.readFrom_comment hc]⟩
      · obtain ⟨rest, hread, hrest⟩ := ih hvs hlevel started started
        exact ⟨rest, by rw [Phrase.readFrom_blank hw, Phrase.readFrom_blank hw, hread],
          by rwa [Phrase.readFrom_blank hw]⟩
      · obtain ⟨rest, hread, hrest⟩ := ih hvs hlevel true false
        exact ⟨rest, by
          rw [Phrase.readFrom_piece hstop hc hw, Phrase.readFrom_piece hstop hc hw, hread],
          by rwa [Phrase.readFrom_piece hstop hc hw]⟩

/-- A prelude is the same: the depth changes behind it only. -/
theorem prelude (h : Sprinkled false d ts us) :
    ∃ rest, preludePhrase us = ⟨(preludePhrase ts).text, (preludePhrase ts).comments,
        (preludePhrase ts).notes, rest⟩ ∧ Sprinkled false d (preludePhrase ts).rest rest := by
  refine h.readFrom (by simp) (fun t ht => ?_) false false
  have hstop : t.isStop [';', '{', '}'] = false := Token.not_isStop_of_mem_takeWhile ht
  exact Token.depthAfter_of_not_isStop (Token.not_isStop_mono (by simp) hstop)

/-- A property and a value are the same where no brace opens a block. -/
theorem read_item (h : Sprinkled false d ts us) (hl : Lexed ts) (ho : opensBlock ts = false)
    (hs : ∀ c ∈ [';', '}'], c ∈ stops) :
    ∃ rest, Phrase.read stops us = ⟨(Phrase.read stops ts).text,
        (Phrase.read stops ts).comments, (Phrase.read stops ts).notes, rest⟩ ∧
      Sprinkled false d (Phrase.read stops ts).rest rest := by
  refine h.readFrom (fun _ => hs ';' (by simp)) (fun t ht => ?_) false false
  have hstop : t.isStop stops = false := Token.not_isStop_of_mem_takeWhile ht
  have hopen : t.isStop ['{'] = false := (not_open_of_opensBlock hl ho hs).1 t ht
  have hclose : t.isStop ['}'] = false := Token.not_isStop_mono (by simpa using hs '}') hstop
  exact Token.depthAfter_other hopen hclose

/-! ### Declarations -/

/-- A mark other than a semicolon is in front of sprinkled tokens where it was in front. -/
theorem headIsAmong_eq {c : Char} (h : Sprinkled false d ts us) (hl : Lexed ts) (hs : ';' ≠ c)
    (hc : '}' ≠ c) : Token.headIsAmong [c] us = Token.headIsAmong [c] ts := by
  cases h with
  | nil => rfl
  | keep _ => rfl
  | @before _ _ p t ts us ht _ _ =>
    have ht : t.isAmong [c] = false := by
      rw [hl.head.isAmong_eq]
      exact Token.not_isStop_of_isStop ht (by simpa using hc)
    have hp : (Token.semicolon p).isAmong [c] = false := by
      simp [Token.isAmong, Token.semicolon, occursIn_singleton, hs]
    exact hp.trans ht.symm

/-- Behind a mark that is no brace the tokens are sprinkled as before. -/
theorem tail {c : Char} (h : Sprinkled false d ts us) (hl : Lexed ts)
    (hhead : Token.headIsAmong [c] ts = true) (ho : c ≠ '{') (hc : c ≠ '}') :
    Sprinkled false d ts.tail us.tail := by
  cases ts with
  | nil => simp [Token.headIsAmong] at hhead
  | cons t ts =>
    rw [Token.headIsAmong, hl.head.isAmong_eq] at hhead
    have hclose : t.isStop ['}'] = false :=
      Token.not_isStop_of_isStop hhead (by simpa using hc)
    have hdepth : t.depthAfter d = d := Token.depthAfter_of_isStop hhead ho hc
    obtain ⟨vs, rfl, hvs⟩ := h.eq_cons (Or.inl hclose)
    rwa [Token.isBraceAt_eq_false hdepth, hdepth] at hvs

/-- **Skipping a semicolon** leaves sprinkled tokens: one that was there, or one of those put before
a closing brace. -/
theorem skipSemicolon (h : Sprinkled false d ts us) (hl : Lexed ts) :
    Sprinkled false d (skipSemicolon ts) (skipSemicolon us) := by
  cases hhead : Token.headIsAmong [';'] ts with
  | true =>
    have htail := h.tail hl hhead (by decide) (by decide)
    cases h with
    | nil => simp [Token.headIsAmong] at hhead
    | keep _ =>
      rw [Stylesheet.skipSemicolon, if_pos hhead, Stylesheet.skipSemicolon, if_pos (by exact hhead)]
      exact htail
    | before ht _ _ =>
      rw [Token.headIsAmong, hl.head.isAmong_eq, Token.not_isStop_of_isStop ht (by simp)] at hhead
      simp at hhead
  | false =>
    rw [Stylesheet.skipSemicolon, if_neg (by simp [hhead])]
    cases h with
    | nil => exact .nil
    | keep h =>
      rw [Stylesheet.skipSemicolon, if_neg (by simpa [Token.headIsAmong] using hhead)]
      exact .keep h
    | before _ _ h =>
      rw [Stylesheet.skipSemicolon, if_pos (by rfl)]
      exact h

/-- The search for an opening brace ends at a semicolon as at the closing brace behind it. -/
theorem opensBlock_eq (h : Sprinkled false d ts us) (hl : Lexed ts) :
    opensBlock us = opensBlock ts := by
  induction ts generalizing us with
  | nil =>
    obtain rfl := h.eq_nil
    rfl
  | cons t ts ih =>
    rcases brace_cases t with ho | he | ⟨ho, he⟩
    · obtain ⟨vs, rfl, -⟩ := h.eq_cons (Or.inl (Token.not_isStop_of_isStop ho (by simp)))
      rw [opensBlock_open ho, opensBlock_open ho]
    · cases h with
      | keep _ => rw [opensBlock_end hl.head he, opensBlock_end hl.head he]
      | before _ _ _ => exact (opensBlock_end hl.head he).symm
    · have hclose : t.isStop ['}'] = false := Token.not_isStop_mono (by simp) he
      have hdepth : t.depthAfter d = d := Token.depthAfter_other ho hclose
      obtain ⟨vs, rfl, hvs⟩ := h.eq_cons (Or.inl hclose)
      rw [Token.isBraceAt_eq_false hdepth, hdepth] at hvs
      rw [opensBlock_skip hl.head ho he, opensBlock_skip hl.head ho he, ih hvs hl.tail]

/-- **A declaration is the same** where no brace opens a block. -/
theorem declaration (h : Sprinkled false d ts us) (hl : Lexed ts) (ho : opensBlock ts = false) :
    (declaration us).value = (declaration ts).value ∧
      (declaration us).siblings = (declaration ts).siblings ∧
      Sprinkled false d (declaration ts).rest (declaration us).rest := by
  obtain ⟨rest, hname, hrest⟩ :=
    h.read_item hl ho (show ∀ c ∈ [';', '}'], c ∈ [':', ';', '}'] by simp)
  have hlrest : Lexed (propertyPhrase ts).rest := hl.of_suffix (Phrase.read_suffix _ _)
  have hcolon : Token.headIsAmong [':'] (propertyPhrase us).rest =
      Token.headIsAmong [':'] (propertyPhrase ts).rest := by
    rw [propertyPhrase, hname]
    exact hrest.headIsAmong_eq hlrest (by decide) (by decide)
  cases hc : Token.headIsAmong [':'] (propertyPhrase ts).rest with
  | true =>
    have hltail : Lexed (propertyPhrase ts).rest.tail := hlrest.of_suffix (List.tail_suffix _)
    obtain ⟨rest', hvalue, hrest'⟩ := (hrest.tail hlrest hc (by decide) (by decide)).read_item
      hltail (not_opensBlock_value hl ho hc) (show ∀ c ∈ [';', '}'], c ∈ [';', '}'] from
        fun _ hc => hc)
    rw [declaration_colon hc, declaration_colon (hcolon.trans hc), propertyPhrase, hname,
      valuePhrase, hvalue]
    exact ⟨rfl, rfl, hrest'.skipSemicolon (hltail.of_suffix (Phrase.read_suffix _ _))⟩
  | false =>
    rw [declaration_bare hc, declaration_bare (hcolon.trans hc), propertyPhrase, hname]
    exact ⟨rfl, rfl, hrest.skipSemicolon hlrest⟩

end Sprinkled

/-! ### Routines -/

theorem block_semicolons (ps : List Position) (ts : List Token) :
    (block (ps.map Token.semicolon ++ ts)).1 = (block ts).1 := by
  induction ps with
  | nil => rfl
  | cons p ps ih => rw [List.map_cons, List.cons_append, block_semicolon rfl rfl, ih]

theorem parse_semicolons (ps : List Position) (ts : List Token) :
    parse (ps.map Token.semicolon ++ ts) = parse ts := by
  induction ps with
  | nil => rfl
  | cons p ps ih => rw [List.map_cons, List.cons_append, parse_stray rfl, ih]

/-- A token that is not punctuation keeps sprinkled tokens behind it as they were. -/
theorem Sprinkled.of_kind (h : Sprinkled (t.isBraceAt d) (t.depthAfter d) ts us)
    (hk : t.kind ≠ .punctuation) : Sprinkled false d ts us := by
  have hdepth : t.depthAfter d = d := Token.depthAfter_of_kind hk
  rwa [Token.isBraceAt_eq_false hdepth, hdepth] at h

/-- **The routines return the same** on sprinkled tokens, and leave sprinkled tokens. -/
theorem routines_sprinkled :
    (∀ ts, Lexed ts → ∀ behind d us, Sprinkled behind (d + 1) ts us →
      (block us).1.value = (block ts).1.value ∧
        Sprinkled true d (block ts).1.rest (block us).1.rest) ∧
    (∀ t ts, Lexed (t :: ts) → t.kind = .atKeyword → ∀ d us, Sprinkled false d ts us →
      (atRule t us).1.value = (atRule t ts).1.value ∧
        (atRule t us).1.siblings = (atRule t ts).1.siblings ∧
        Sprinkled true d (atRule t ts).1.rest (atRule t us).1.rest) ∧
    ∀ t ts, Lexed (t :: ts) → ∀ d us, Sprinkled false d (t :: ts) (t :: us) →
      (∀ u ∈ (t :: ts).takeWhile fun u => !u.isStop ['{'], u.depthAfter d = d) →
      (styleRule t us).1.value = (styleRule t ts).1.value ∧
        (styleRule t us).1.siblings = (styleRule t ts).1.siblings ∧
        Sprinkled true d (styleRule t ts).1.rest (styleRule t us).1.rest := by
  apply routines_induction
  case nil =>
    intro _ behind d us h
    obtain ⟨ps, rfl⟩ := h.of_nil
    rw [← List.append_nil (ps.map Token.semicolon), block_semicolons, block_nil]
    exact ⟨rfl, .nil⟩
  case blank =>
    intro t ts hk ih hl behind d us h
    obtain ⟨ps, vs, rfl, hvs⟩ := h.of_cons
    rw [block_semicolons, block_blank hk, block_blank hk]
    exact ih hl.tail _ _ _ (hvs.of_kind (by simp [hk]))
  case comment =>
    intro t ts hk ih hl behind d us h
    obtain ⟨ps, vs, rfl, hvs⟩ := h.of_cons
    obtain ⟨hvalue, hrest⟩ := ih hl.tail _ _ _ (hvs.of_kind (by simp [hk]))
    rw [block_semicolons, block_comment hk, block_comment hk, hvalue]
    exact ⟨rfl, hrest⟩
  case close =>
    intro t ts hc hl behind d us h
    obtain ⟨ps, vs, rfl, hvs⟩ := h.of_cons
    rw [block_semicolons, block_close hc, block_close hc]
    rw [hl.head.isAmong_eq] at hc
    rw [Token.depthAfter_close hc, Nat.add_sub_cancel] at hvs
    exact ⟨rfl, hvs.loose⟩
  case semicolon =>
    intro t ts hc hs ih hl behind d us h
    obtain ⟨ps, vs, rfl, hvs⟩ := h.of_cons
    rw [block_semicolons, block_semicolon hc hs, block_semicolon hc hs]
    rw [hl.head.isAmong_eq] at hs
    rw [Token.depthAfter_of_isStop hs (by decide) (by decide)] at hvs
    exact ih hl.tail _ _ _ hvs
  case keyword =>
    intro t ts hk ihA ih hl behind d us h
    obtain ⟨ps, vs, rfl, hvs⟩ := h.of_cons
    obtain ⟨hrule, hsiblings, hrest⟩ := ihA hl hk _ _ (hvs.of_kind (by simp [hk]))
    obtain ⟨hvalue, hrest⟩ :=
      ih (hl.tail.of_suffix (routines_suffix.2.1 t ts)) _ _ _ hrest
    rw [block_semicolons, block_atRule hk, block_atRule hk, hrule, hsiblings, hvalue]
    exact ⟨rfl, hrest⟩
  case nested =>
    intro t ts hs ho ihS ih hl behind d us h
    obtain ⟨ps, vs, rfl, hvs⟩ := h.of_cons
    have h : Sprinkled false (d + 1) (t :: ts) (t :: vs) := .keep hvs
    have ho' := (h.opensBlock_eq hl).trans ho
    obtain ⟨hrule, hsiblings, hrest⟩ := ihS hl _ _ h (hl.level_of_opensBlock ho _)
    obtain ⟨hvalue, hrest⟩ :=
      ih (hl.tail.of_suffix (routines_suffix.2.2 t ts)) _ _ _ hrest
    rw [block_semicolons, block_styleRule hs ho, block_styleRule hs ho', hrule, hsiblings, hvalue]
    exact ⟨rfl, hrest⟩
  case item =>
    intro t ts hs ho ih hl behind d us h
    obtain ⟨ps, vs, rfl, hvs⟩ := h.of_cons
    have h : Sprinkled false (d + 1) (t :: ts) (t :: vs) := .keep hvs
    have ho' := (h.opensBlock_eq hl).trans ho
    obtain ⟨hdecl, hsiblings, hrest⟩ := h.declaration hl ho
    obtain ⟨hvalue, hrest⟩ := ih (hl.of_suffix (declaration_suffix _)) _ _ _ hrest
    rw [block_semicolons, block_declaration hs ho, block_declaration hs ho', hdecl, hsiblings,
      hvalue]
    exact ⟨rfl, hrest⟩
  case statement =>
    intro t ts hs hl hk d us h
    obtain ⟨rest, hprelude, hrest⟩ := h.prelude
    have hlrest : Lexed (preludePhrase ts).rest := hl.tail.of_suffix (Phrase.read_suffix _ _)
    have hs' : Token.headIsAmong ['{'] (preludePhrase us).rest = false := by
      rw [hprelude, ← hs]
      exact hrest.headIsAmong_eq hlrest (by decide) (by decide)
    rw [atRule_statement hs, atRule_statement hs', hprelude]
    exact ⟨rfl, rfl, (hrest.skipSemicolon hlrest).loose⟩
  case group =>
    intro t ts u rest hr hu ih hl hk d us h
    obtain ⟨rest', hprelude, hrest⟩ := h.prelude
    rw [hr] at hrest
    have hlrest : Lexed (u :: rest) := hl.tail.of_suffix (hr ▸ Phrase.read_suffix _ _)
    have hopen : u.isStop ['{'] = true := by rwa [← hlrest.head.isAmong_eq]
    obtain ⟨vs, rfl, hvs⟩ := hrest.eq_cons (Or.inl (Token.not_isStop_of_isStop hopen (by simp)))
    rw [Token.depthAfter_open hopen] at hvs
    obtain ⟨hvalue, hleft⟩ := ih hlrest.tail _ _ _ hvs
    have hr' : (preludePhrase us).rest = u :: vs := by rw [hprelude]
    rw [atRule_group hr hu, atRule_group hr' hu, hprelude, hvalue]
    exact ⟨rfl, rfl, hleft⟩
  case unopened =>
    intro t ts hr hl d us h hlevel
    obtain ⟨rest, hselector, hrest⟩ := h.readFrom (by simp) hlevel false false
    rw [← Phrase.read, ← Phrase.read] at hselector
    rw [← Phrase.read, ← selectorPhrase, hr] at hrest
    obtain rfl := hrest.eq_nil
    have hr' : (selectorPhrase (t :: us)).rest = [] := by rw [selectorPhrase, hselector]
    rw [styleRule_unopened hr, styleRule_unopened hr', selectorPhrase, hselector]
    exact ⟨rfl, rfl, .nil⟩
  case opened =>
    intro t ts u rest hr ih hl d us h hlevel
    obtain ⟨rest', hselector, hrest⟩ := h.readFrom (by simp) hlevel false false
    rw [← Phrase.read, ← Phrase.read] at hselector
    rw [← Phrase.read, ← selectorPhrase, hr] at hrest
    have hlrest : Lexed (u :: rest) := hl.of_suffix (hr ▸ Phrase.read_suffix _ _)
    have hopen : u.isStop ['{'] = true := Phrase.isStop_head_rest u (by rw [hr]; rfl)
    obtain ⟨vs, rfl, hvs⟩ := hrest.eq_cons (Or.inl (Token.not_isStop_of_isStop hopen (by simp)))
    rw [Token.depthAfter_open hopen] at hvs
    obtain ⟨hvalue, hleft⟩ := ih hlrest.tail _ _ _ hvs
    have hr' : (selectorPhrase (t :: us)).rest = u :: vs := by rw [selectorPhrase, hselector]
    have hshell : isShell (selectorPhrase (t :: us)).text (block vs).1.value =
        isShell (selectorPhrase (t :: ts)).text (block rest).1.value := by
      rw [selectorPhrase, hselector, hvalue]
    cases hs : isShell (selectorPhrase (t :: ts)).text (block rest).1.value with
    | true =>
      rw [styleRule_shell hr hs, styleRule_shell hr' (hshell.trans hs), selectorPhrase, hselector]
      exact ⟨rfl, rfl, hleft⟩
    | false =>
      rw [styleRule_kept hr hs, styleRule_kept hr' (hshell.trans hs), selectorPhrase, hselector,
        hvalue]
      exact ⟨rfl, rfl, hleft⟩

/-! ### Sheets -/

/-- **Semicolons beside the braces of blocks are inert.** -/
theorem parse_sprinkled (hl : Lexed ts) (h : Sprinkled behind 0 ts us) : parse us = parse ts := by
  induction ts using parse_induction generalizing behind us with
  | nil =>
    obtain ⟨ps, rfl⟩ := h.of_nil
    rw [← List.append_nil (ps.map Token.semicolon), parse_semicolons]
  | blank t ts hk ih =>
    obtain ⟨ps, vs, rfl, hvs⟩ := h.of_cons
    rw [parse_semicolons, parse_blank hk, parse_blank hk, ih hl.tail (hvs.of_kind (by simp [hk]))]
  | comment t ts hk ih =>
    obtain ⟨ps, vs, rfl, hvs⟩ := h.of_cons
    rw [parse_semicolons, parse_comment hk, parse_comment hk,
      ih hl.tail (hvs.of_kind (by simp [hk]))]
  | stray t ts hs ih =>
    obtain ⟨ps, vs, rfl, hvs⟩ := h.of_cons
    rw [parse_semicolons, parse_stray hs, parse_stray hs]
    rw [hl.head.isAmong_eq] at hs
    rw [Token.depthAfter_zero (Token.not_isStop_of_isStop hs (by simp))] at hvs
    exact ih hl.tail hvs
  | keyword t ts hk ih =>
    obtain ⟨ps, vs, rfl, hvs⟩ := h.of_cons
    obtain ⟨hrule, hsiblings, hrest⟩ :=
      routines_sprinkled.2.1 t ts hl hk _ _ (hvs.of_kind (by simp [hk]))
    rw [parse_semicolons, parse_atRule hk, parse_atRule hk, hrule, hsiblings,
      ih (hl.tail.of_suffix (routines_suffix.2.1 t ts)) hrest]
  | rule t ts hs ih =>
    obtain ⟨ps, vs, rfl, hvs⟩ := h.of_cons
    obtain ⟨hrule, hsiblings, hrest⟩ :=
      routines_sprinkled.2.2 t ts hl _ _ (.keep hvs) fun _ => Token.depthAfter_zero_of_mem
    rw [parse_semicolons, parse_styleRule hs, parse_styleRule hs, hrule, hsiblings,
      ih (hl.tail.of_suffix (routines_suffix.2.2 t ts)) hrest]

/-! ### One semicolon -/

/-- Whether a place between tokens is behind an opening brace, or before or behind a closing brace
that stands at depth one or deeper. -/
def BesideBrace (before after : List Token) : Prop :=
  (∃ t ∈ before.getLast?, t.isStop ['{'] = true) ∨
    (∃ t ∈ after.head?, t.isStop ['}'] = true ∧ 1 ≤ braceDepth 0 before) ∨
    ∃ before' t, before = before' ++ [t] ∧ t.isStop ['}'] = true ∧ 1 ≤ braceDepth 0 before'

/-- One semicolon at such a place, or behind a brace before all tokens. -/
theorem Sprinkled.insert {before after : List Token} (p : Position)
    (h : before = [] ∧ behind = true ∨
      (∃ t ∈ after.head?, t.isStop ['}'] = true ∧ 1 ≤ braceDepth d before) ∨
      ∃ before' t, before = before' ++ [t] ∧ t.isBraceAt (braceDepth d before') = true) :
    Sprinkled behind d (before ++ after) (before ++ .semicolon p :: after) := by
  induction before generalizing behind d with
  | nil =>
    rcases h with ⟨-, rfl⟩ | ⟨t, ht, hclose, hdepth⟩ | ⟨before', t, h, -⟩
    · exact .behind (refl after)
    · obtain ⟨ts, rfl⟩ := List.head?_eq_some_iff.1 ht
      exact .before hclose hdepth (refl _)
    · simp at h
  | cons u before ih =>
    refine .keep (ih ?_)
    rcases h with ⟨h, -⟩ | h | ⟨before', t, h, hbrace⟩
    · simp at h
    · exact Or.inr (Or.inl h)
    · cases before' with
      | nil =>
        obtain ⟨rfl, rfl⟩ := List.cons.inj h
        exact Or.inl ⟨rfl, hbrace⟩
      | cons v before' =>
        obtain ⟨rfl, rfl⟩ := List.cons.inj h
        exact Or.inr (Or.inr ⟨before', t, rfl, hbrace⟩)

/-- **Stray semicolons are inert.**  A semicolon put among the tokens of a text behind an opening
brace, or before or behind a closing brace at depth one or deeper, leaves the rules and their places
as they are. -/
theorem parse_insert_semicolon {source : Text} {before after : List Token}
    (hscan : Token.scan source = before ++ after) (h : BesideBrace before after) (p : Position) :
    parse (before ++ .semicolon p :: after) = parse (Token.scan source) := by
  have hplace : (∃ t ∈ after.head?, t.isStop ['}'] = true ∧ 1 ≤ braceDepth 0 before) ∨
      ∃ before' t, before = before' ++ [t] ∧ t.isBraceAt (braceDepth 0 before') = true := by
    rcases h with ⟨t, ht, hopen⟩ | h | ⟨before', t, rfl, hclose, hdepth⟩
    · obtain ⟨before', rfl⟩ := List.getLast?_eq_some_iff.1 ht
      exact Or.inr ⟨before', t, rfl, by simp [Token.isBraceAt, hopen]⟩
    · exact Or.inl h
    · have hdepth : 0 < braceDepth 0 before' := hdepth
      exact Or.inr ⟨before', t, rfl, by simp [Token.isBraceAt, hclose, hdepth]⟩
  have hl : Lexed (before ++ after) := hscan ▸ Lexed.scanFrom .start source
  have hinsert : Sprinkled false 0 (before ++ after) (before ++ .semicolon p :: after) :=
    .insert p (Or.inr hplace)
  rw [hscan]
  exact parse_sprinkled hl hinsert

/-- A semicolon between the closing braces of a nested rule and of the rule around it. -/
theorem parse_insert_semicolon_nested :
    let before : List Token :=
      [⟨.text, ['a'], ⟨1, 1⟩⟩, ⟨.punctuation, ['{'], ⟨1, 2⟩⟩, ⟨.text, ['b'], ⟨1, 3⟩⟩,
        ⟨.punctuation, ['{'], ⟨1, 4⟩⟩, ⟨.text, ['p'], ⟨1, 5⟩⟩, ⟨.punctuation, ['}'], ⟨1, 6⟩⟩]
    let after : List Token := [⟨.punctuation, ['}'], ⟨1, 7⟩⟩]
    Token.scan "a\x7bb\x7bp\x7d\x7d".toList = before ++ after ∧ BesideBrace before after ∧
      parse (before ++ .semicolon ⟨1, 7⟩ :: after) =
        parse (Token.scan "a\x7bb\x7bp\x7d\x7d".toList) := by
  intro before after
  have hscan : Token.scan "a\x7bb\x7bp\x7d\x7d".toList = before ++ after := by
    decide +kernel
  have hplace : BesideBrace before after := Or.inr (Or.inl ⟨_, rfl, by decide⟩)
  exact ⟨hscan, hplace, parse_insert_semicolon hscan hplace ⟨1, 7⟩⟩

end Stylesheet
end Galley
