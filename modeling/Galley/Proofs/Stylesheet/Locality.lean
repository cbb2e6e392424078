/-
# What stands behind a block

A closing brace that leaves no block open ends what the parser does with the tokens up to it: the
rules are those of the tokens up to the brace and then those of the tokens behind it
(`parse_split_at_close`).

The parser does not see that it stands at such a brace.  It searches for an opening brace as far as
need be, and outside of blocks a selector reads over semicolons and closing braces.  What keeps each
routine on its side of the brace is the depth (`Sealed`):

| routine | stops before the end since |
| --- | --- |
| prelude, property, value, search | the last token is a closing brace |
| selector inside a block | the search found an opening brace |
| selector outside of blocks | from depth zero to depth one there is an opening brace |
| block | its own brace comes first, or is the last token |

Cutting into tokens is local at the brace as well: it takes up to the brace the tokens that it takes
from the whole text (`Token.scanFrom_flatMap_text`).
-/

import Galley.Proofs.Stylesheet.Depth
import Galley.Proofs.Stylesheet.Truncation

namespace Galley
namespace Stylesheet

variable {d : Nat} {t u : Token} {ts us vs : List Token} {stops chars : Text} {cs : List Rule}

/-- Whether tokens that are met at a depth end with the closing brace of the outermost block, or
are all met already. -/
inductive Sealed : Nat → List Token → Prop
  | nil : Sealed 0 []
  | last {t : Token} : t.isStop ['}'] = true → Sealed 1 [t]
  | cons {d : Nat} {t : Token} {ts : List Token} :
    ts ≠ [] → Sealed (t.depthAfter d) ts → Sealed d (t :: ts)

namespace Sealed

theorem tail (h : Sealed d (t :: ts)) : Sealed (t.depthAfter d) ts := by
  cases h with
  | last ht =>
    rw [Token.depthAfter_close ht]
    exact .nil
  | cons _ h => exact h

theorem tail_of_kind (h : Sealed d (t :: ts)) (hk : t.kind ≠ .punctuation) : Sealed d ts := by
  have htail := h.tail
  rwa [Token.depthAfter_of_kind hk] at htail

/-- Behind a token that closes nothing there are others. -/
theorem tail_ne_nil (h : Sealed d (t :: ts)) (ht : t.isStop ['}'] = false) : ts ≠ [] := by
  cases h with
  | last hclose => simp [ht] at hclose
  | cons hts _ => exact hts

/-- In a block there are tokens left. -/
theorem ne_nil (h : Sealed (d + 1) ts) : ts ≠ [] := by
  rintro rfl
  cases h

/-- The last token is a closing brace. -/
theorem exists_close (h : Sealed d ts) (hne : ts ≠ []) : ∃ u ∈ ts, u.isStop ['}'] = true := by
  induction h with
  | nil => exact absurd rfl hne
  | last ht => exact ⟨_, List.mem_singleton_self _, ht⟩
  | cons hts _ ih =>
    obtain ⟨u, hu, hclose⟩ := ih hts
    exact ⟨u, List.mem_cons_of_mem _ hu, hclose⟩

/-- Outside of blocks there is one to come. -/
theorem exists_open (h : Sealed 0 ts) (hne : ts ≠ []) : ∃ u ∈ ts, u.isStop ['{'] = true := by
  induction ts with
  | nil => exact absurd rfl hne
  | cons t ts ih =>
    cases ho : t.isStop ['{'] with
    | true => exact ⟨t, List.mem_cons_self .., ho⟩
    | false =>
      cases h with
      | cons hts h =>
        rw [Token.depthAfter_zero ho] at h
        obtain ⟨u, hu, hopen⟩ := ih h hts
        exact ⟨u, List.mem_cons_of_mem t hu, hopen⟩

/-- What does not change the depth may be read. -/
theorem level (h : Sealed d (us ++ ts)) (hus : ∀ u ∈ us, u.depthAfter d = d) : Sealed d ts := by
  induction us with
  | nil => exact h
  | cons u us ih =>
    obtain ⟨hu, hus⟩ := List.forall_mem_cons.1 hus
    have htail := h.tail
    rw [hu] at htail
    exact ih htail hus

/-- What is read over without braces does not change the depth. -/
theorem skims (h : Sealed d ts) (hs : Skims ['{', '}'] ts us cs) : Sealed d us := by
  obtain ⟨read, rfl, -, hread⟩ := hs
  exact h.level fun u hu => Token.depthAfter_of_not_isStop (hread u hu)

/-- A closing brace at depth one is such an end. -/
theorem of_close (ht : t.isStop ['}'] = true) (hts : braceDepth d ts = 1) :
    Sealed d (ts ++ [t]) := by
  induction ts generalizing d with
  | nil =>
    obtain rfl : d = 1 := hts
    exact .last ht
  | cons u ts ih => exact .cons (by simp) (ih hts)

end Sealed

/-! ### Phrases -/

/-- A phrase with more tokens behind those that it leaves unread. -/
def Phrase.followed (p : Phrase) (us : List Token) : Phrase := { p with rest := p.rest ++ us }

/-- What a routine returns, with more tokens behind those that it leaves unread. -/
def Outcome.followed {α : Type} (o : Outcome α) (us : List Token) : Outcome α :=
  { o with rest := o.rest ++ us }

/-- A phrase stops at a stop. -/
theorem Phrase.rest_read_ne_nil (h : ∃ u ∈ ts, u.isStop stops = true) :
    (Phrase.read stops ts).rest ≠ [] := by
  obtain ⟨u, hu, hstop⟩ := h
  rw [Phrase.read, Phrase.rest_readFrom, Ne, List.dropWhile_eq_nil_iff]
  intro hnone
  simpa [hstop] using hnone u hu

/-- **A phrase that stops does not see what comes after.** -/
theorem Phrase.read_followed (h : ∃ u ∈ ts, u.isStop stops = true) (us : List Token) :
    Phrase.read stops (ts ++ us) = (Phrase.read stops ts).followed us :=
  Phrase.readFrom_append_unread false false (Or.inl (Phrase.rest_read_ne_nil h))

theorem headIsAmong_append (hts : ts ≠ []) (us : List Token) :
    Token.headIsAmong chars (ts ++ us) = Token.headIsAmong chars ts := by
  obtain ⟨t, ts, rfl⟩ := List.exists_cons_of_ne_nil hts
  rfl

theorem skipSemicolon_append (hts : ts ≠ []) (us : List Token) :
    skipSemicolon (ts ++ us) = skipSemicolon ts ++ us := by
  unfold skipSemicolon
  rw [headIsAmong_append hts]
  split
  · rename_i h
    exact tail_append_of_headIsAmong h
  · rfl

/-- The search for an opening brace ends at a closing brace. -/
theorem opensBlock_append (hl : Lexed ts) (h : ∃ u ∈ ts, u.isStop ['}'] = true)
    (us : List Token) : opensBlock (ts ++ us) = opensBlock ts := by
  induction ts with
  | nil => simp at h
  | cons t ts ih =>
    rw [List.cons_append]
    rcases brace_cases t with ho | he | ⟨ho, he⟩
    · rw [opensBlock_open ho, opensBlock_open ho]
    · rw [opensBlock_end hl.head he, opensBlock_end hl.head he]
    · have hts : ∃ u ∈ ts, u.isStop ['}'] = true := by
        have hclose : t.isStop ['}'] = false := Token.not_isStop_mono (by simp) he
        simpa [hclose] using h
      rw [opensBlock_skip hl.head ho he, opensBlock_skip hl.head ho he, ih hl.tail hts]

/-- The search for an opening brace has found one. -/
theorem exists_open_of_opensBlock (hl : Lexed ts) (h : opensBlock ts = true) :
    ∃ u ∈ ts, u.isStop ['{'] = true := by
  induction ts with
  | nil => simp [opensBlock] at h
  | cons t ts ih =>
    rcases brace_cases t with ho | he | ⟨ho, he⟩
    · exact ⟨t, List.mem_cons_self .., ho⟩
    · simp [opensBlock_end hl.head he] at h
    · rw [opensBlock_skip hl.head ho he] at h
      obtain ⟨u, hu, hopen⟩ := ih hl.tail h
      exact ⟨u, List.mem_cons_of_mem t hu, hopen⟩

namespace Sealed

/-- A phrase that a closing brace stops does stop. -/
theorem exists_stop (h : Sealed d ts) (hne : ts ≠ []) (hs : '}' ∈ stops) :
    ∃ u ∈ ts, u.isStop stops = true := by
  obtain ⟨u, hu, hclose⟩ := h.exists_close hne
  exact ⟨u, hu, Token.isStop_mono (by simpa using hs) hclose⟩

/-- **A prelude does not see what comes after**, and it stops before the end. -/
theorem prelude (h : Sealed d (t :: ts)) (hk : t.kind = .atKeyword) :
    Sealed d (preludePhrase ts).rest ∧ (preludePhrase ts).rest ≠ [] ∧
      ∀ us, preludePhrase (ts ++ us) = (preludePhrase ts).followed us := by
  have hts := h.tail_of_kind (by simp [hk])
  have hne : ts ≠ [] := h.tail_ne_nil (Phrase.isStop_of_kind (by simp [hk]))
  have hstop := hts.exists_stop hne (show '}' ∈ [';', '{', '}'] by simp)
  exact ⟨hts.skims (Skims.prelude ts), Phrase.rest_read_ne_nil hstop, Phrase.read_followed hstop⟩

/-- **A selector that reaches its brace** goes one level down. -/
theorem selector (h : Sealed d ts)
    (hlevel : ∀ u ∈ ts.takeWhile fun u => !u.isStop ['{'], u.depthAfter d = d)
    (hr : (selectorPhrase ts).rest = u :: us) : Sealed (d + 1) us := by
  have hopen : u.isStop ['{'] = true := Phrase.isStop_head_rest u (by rw [hr]; rfl)
  rw [← List.takeWhile_append_dropWhile (p := fun u : Token => !u.isStop ['{']) (l := ts)] at h
  have hrest := h.level hlevel
  rw [← Phrase.rest_readFrom false false, ← Phrase.read, ← selectorPhrase, hr] at hrest
  have htail := hrest.tail
  rwa [Token.depthAfter_open hopen] at htail

/-- **A declaration does not see what comes after** the block that it stands in. -/
theorem declaration (h : Sealed (d + 1) ts) (hl : Lexed ts) (ho : opensBlock ts = false)
    (us : List Token) : declaration (ts ++ us) = (declaration ts).followed us := by
  have hname := h.exists_stop h.ne_nil (show '}' ∈ [':', ';', '}'] by simp)
  have hskims : Skims ['{', '}'] ts (propertyPhrase ts).rest (propertyPhrase ts).comments :=
    Skims.read_item hl ho (by simp)
  have hrest := h.skims hskims
  have hproperty : propertyPhrase (ts ++ us) = (propertyPhrase ts).followed us :=
    Phrase.read_followed hname us
  have hcolon : Token.headIsAmong [':'] (propertyPhrase (ts ++ us)).rest =
      Token.headIsAmong [':'] (propertyPhrase ts).rest := by
    rw [hproperty]
    exact headIsAmong_append hrest.ne_nil us
  cases hc : Token.headIsAmong [':'] (propertyPhrase ts).rest with
  | true =>
    have hlrest : Lexed (propertyPhrase ts).rest := hl.of_suffix hskims.suffix
    have htail := hrest.skims (Skims.tail hlrest hc (by simp))
    have hstop := htail.exists_stop htail.ne_nil (show '}' ∈ [';', '}'] by simp)
    have hvalue : valuePhrase ((propertyPhrase ts).rest.tail ++ us) =
        (valuePhrase (propertyPhrase ts).rest.tail).followed us := Phrase.read_followed hstop us
    rw [declaration_colon hc, declaration_colon (hcolon.trans hc), hproperty, Phrase.followed,
      tail_append_of_headIsAmong hc, hvalue]
    exact congrArg (Outcome.mk _ _ _) (skipSemicolon_append (Phrase.rest_read_ne_nil hstop) us)
  | false =>
    rw [declaration_bare hc, declaration_bare (hcolon.trans hc), hproperty]
    exact congrArg (Outcome.mk _ _ _) (skipSemicolon_append hrest.ne_nil us)

end Sealed

/-! ### Routines -/

/-- **No routine sees what comes after the end** of sealed tokens, and what it leaves is sealed. -/
theorem routines_sealed :
    (∀ ts, Lexed ts → ∀ d, Sealed (d + 1) ts → Sealed d (block ts).1.rest ∧
      ∀ us, (block (ts ++ us)).1 = (block ts).1.followed us) ∧
    (∀ t ts, Lexed (t :: ts) → t.kind = .atKeyword → ∀ d, Sealed d (t :: ts) →
      Sealed d (atRule t ts).1.rest ∧
        ∀ us, (atRule t (ts ++ us)).1 = (atRule t ts).1.followed us) ∧
    ∀ t ts, Lexed (t :: ts) → ∀ d, Sealed d (t :: ts) →
      (∃ u ∈ t :: ts, u.isStop ['{'] = true) →
      (∀ u ∈ (t :: ts).takeWhile fun u => !u.isStop ['{'], u.depthAfter d = d) →
      Sealed d (styleRule t ts).1.rest ∧
        ∀ us, (styleRule t (ts ++ us)).1 = (styleRule t ts).1.followed us := by
  apply routines_induction
  case nil =>
    intro _ d h
    exact absurd rfl h.ne_nil
  case blank =>
    intro t ts hk ih hl d h
    obtain ⟨hrest, hblock⟩ := ih hl.tail d (h.tail_of_kind (by simp [hk]))
    rw [block_blank hk]
    refine ⟨hrest, fun us => ?_⟩
    rw [List.cons_append, block_blank hk, hblock]
  case comment =>
    intro t ts hk ih hl d h
    obtain ⟨hrest, hblock⟩ := ih hl.tail d (h.tail_of_kind (by simp [hk]))
    rw [block_comment hk]
    refine ⟨hrest, fun us => ?_⟩
    rw [List.cons_append, block_comment hk, hblock]
    rfl
  case close =>
    intro t ts hc hl d h
    have htail := h.tail
    rw [block_close hc]
    rw [hl.head.isAmong_eq] at hc
    rw [Token.depthAfter_close hc] at htail
    refine ⟨htail, fun us => ?_⟩
    rw [List.cons_append, block_close (by rwa [hl.head.isAmong_eq])]
    rfl
  case semicolon =>
    intro t ts hc hs ih hl d h
    have htail := h.tail
    have hdepth : t.depthAfter (d + 1) = d + 1 :=
      Token.depthAfter_of_isStop (by rwa [← hl.head.isAmong_eq]) (by decide) (by decide)
    rw [hdepth] at htail
    obtain ⟨hrest, hblock⟩ := ih hl.tail d htail
    rw [block_semicolon hc hs]
    refine ⟨hrest, fun us => ?_⟩
    rw [List.cons_append, block_semicolon hc hs, hblock]
  case keyword =>
    intro t ts hk ihA ih hl d h
    obtain ⟨hsealed, hrule⟩ := ihA hl hk (d + 1) h
    obtain ⟨hrest, hblock⟩ := ih (hl.tail.of_suffix (routines_suffix.2.1 t ts)) d hsealed
    rw [block_atRule hk]
    refine ⟨hrest, fun us => ?_⟩
    rw [List.cons_append, block_atRule hk, hrule, Outcome.followed, hblock]
    rfl
  case nested =>
    intro t ts hs ho ihS ih hl d h
    obtain ⟨hsealed, hrule⟩ :=
      ihS hl (d + 1) h (exists_open_of_opensBlock hl ho) (hl.level_of_opensBlock ho _)
    obtain ⟨hrest, hblock⟩ := ih (hl.tail.of_suffix (routines_suffix.2.2 t ts)) d hsealed
    rw [block_styleRule hs ho]
    refine ⟨hrest, fun us => ?_⟩
    have ho' := (opensBlock_append hl (h.exists_close h.ne_nil) us).trans ho
    rw [List.cons_append] at ho' ⊢
    rw [block_styleRule hs ho', hrule, Outcome.followed, hblock]
    rfl
  case item =>
    intro t ts hs ho ih hl d h
    obtain ⟨hrest, hblock⟩ :=
      ih (hl.of_suffix (declaration_suffix _)) d (h.skims (Skims.declaration hl ho))
    rw [block_declaration hs ho]
    refine ⟨hrest, fun us => ?_⟩
    have ho' := (opensBlock_append hl (h.exists_close h.ne_nil) us).trans ho
    have hdecl := h.declaration hl ho us
    rw [List.cons_append] at ho' hdecl ⊢
    rw [block_declaration hs ho', hdecl, Outcome.followed, hblock]
    rfl
  case statement =>
    intro t ts hs hl hk d h
    obtain ⟨hrest, hne, hprelude⟩ := h.prelude hk
    have hlrest : Lexed (preludePhrase ts).rest := hl.tail.of_suffix (Phrase.read_suffix _ _)
    rw [atRule_statement hs]
    refine ⟨hrest.skims (Skims.skipSemicolon hlrest (by simp)), fun us => ?_⟩
    have hs' : Token.headIsAmong ['{'] (preludePhrase (ts ++ us)).rest = false := by
      rw [hprelude]
      exact (headIsAmong_append hne us).trans hs
    rw [atRule_statement hs', hprelude]
    exact congrArg (Outcome.mk _ _ _) (skipSemicolon_append hne us)
  case group =>
    intro t ts u rest hr hu ih hl hk d h
    obtain ⟨hsealed, -, hprelude⟩ := h.prelude hk
    rw [hr] at hsealed
    have hlrest : Lexed (u :: rest) := hl.tail.of_suffix (hr ▸ Phrase.read_suffix _ _)
    have htail := hsealed.tail
    rw [Token.depthAfter_open (by rwa [← hlrest.head.isAmong_eq])] at htail
    obtain ⟨hrest, hblock⟩ := ih hlrest.tail d htail
    rw [atRule_group hr hu]
    refine ⟨hrest, fun us => ?_⟩
    have hr' : (preludePhrase (ts ++ us)).rest = u :: (rest ++ us) := by
      rw [hprelude, Phrase.followed, hr, List.cons_append]
    rw [atRule_group hr' hu, hprelude, hblock]
    rfl
  case unopened =>
    intro t ts hr hl d h hopen hlevel
    exact absurd hr (Phrase.rest_read_ne_nil hopen)
  case opened =>
    intro t ts u rest hr ih hl d h hopen hlevel
    have hlrest : Lexed (u :: rest) := hl.of_suffix (hr ▸ Phrase.read_suffix _ _)
    obtain ⟨hrest, hblock⟩ := ih hlrest.tail d (h.selector hlevel hr)
    have hselector : ∀ us, selectorPhrase (t :: (ts ++ us)) =
        (selectorPhrase (t :: ts)).followed us := Phrase.read_followed hopen
    have hr' : ∀ us, (selectorPhrase (t :: (ts ++ us))).rest = u :: (rest ++ us) := by
      intro us
      rw [hselector, Phrase.followed, hr, List.cons_append]
    have hshell : ∀ us, isShell (selectorPhrase (t :: (ts ++ us))).text
        (block (rest ++ us)).1.value =
        isShell (selectorPhrase (t :: ts)).text (block rest).1.value := by
      intro us
      rw [hselector, hblock]
      rfl
    cases hs : isShell (selectorPhrase (t :: ts)).text (block rest).1.value with
    | true =>
      rw [styleRule_shell hr hs]
      refine ⟨hrest, fun us => ?_⟩
      rw [styleRule_shell (hr' us) ((hshell us).trans hs), hselector, hblock]
      rfl
    | false =>
      rw [styleRule_kept hr hs]
      refine ⟨hrest, fun us => ?_⟩
      rw [styleRule_kept (hr' us) ((hshell us).trans hs), hselector, hblock]
      rfl

/-! ### Sheets -/

/-- **The rules of sealed tokens** are followed by those of the tokens behind them. -/
theorem parse_append_of_sealed (hl : Lexed ts) (h : Sealed 0 ts) (us : List Token) :
    parse (ts ++ us) = parse ts ++ parse us := by
  induction ts using parse_induction with
  | nil => rw [parse_nil, List.nil_append, List.nil_append]
  | blank t ts hk ih =>
    rw [List.cons_append, parse_blank hk, parse_blank hk,
      ih hl.tail (h.tail_of_kind (by simp [hk]))]
  | comment t ts hk ih =>
    rw [List.cons_append, parse_comment hk, parse_comment hk,
      ih hl.tail (h.tail_of_kind (by simp [hk])), List.cons_append]
  | stray t ts hs ih =>
    have htail := h.tail
    have hopen : t.isStop ['{'] = false := by
      rw [hl.head.isAmong_eq] at hs
      exact Token.not_isStop_of_isStop hs (by simp)
    rw [Token.depthAfter_zero hopen] at htail
    rw [List.cons_append, parse_stray hs, parse_stray hs, ih hl.tail htail]
  | keyword t ts hk ih =>
    obtain ⟨hsealed, hrule⟩ := routines_sealed.2.1 t ts hl hk 0 h
    have hrest := ih (hl.tail.of_suffix (routines_suffix.2.1 t ts)) hsealed
    rw [List.cons_append, parse_atRule hk, parse_atRule hk, hrule, Outcome.followed, hrest,
      List.append_assoc, List.cons_append]
  | rule t ts hs ih =>
    obtain ⟨hsealed, hrule⟩ := routines_sealed.2.2 t ts hl 0 h
      (h.exists_open (List.cons_ne_nil t ts)) fun _ => Token.depthAfter_zero_of_mem
    have hrest := ih (hl.tail.of_suffix (routines_suffix.2.2 t ts)) hsealed
    rw [List.cons_append, parse_styleRule hs, parse_styleRule hs, hrule, Outcome.followed, hrest]
    exact (List.append_assoc ..).symm

/-! ### The tokens up to a brace -/

/-- A comment that does not end does not end earlier with more text behind it. -/
theorem length_snd_cutComment_append {b : Text} (h : (cutComment b).2 = []) (next : Text) :
    (cutComment (b ++ next)).2.length ≤ next.length := by
  fun_induction cutComment b with
  | case1 =>
    have hlength := congrArg List.length (cutComment_append next)
    rw [List.length_append] at hlength
    rw [List.nil_append]
    omega
  | case2 cs =>
    obtain rfl : cs = [] := h
    exact le_rfl
  | case3 c cs hne ih =>
    by_cases hmark : ∃ ds, c = '*' ∧ cs ++ next = '/' :: ds
    · -- the end mark would lie across the seam
      obtain ⟨ds, rfl, hds⟩ := hmark
      rw [List.cons_append, hds, cutComment]
      cases cs with
      | nil => simp [show next = '/' :: ds from hds]
      | cons e es => exact absurd (by rw [(List.cons.inj hds).1]) (hne es rfl)
    · rw [List.cons_append, cutComment_cons fun ds hc hds => hmark ⟨ds, hc, hds⟩]
      exact ih h

/-- A lexeme that does not reach the end of a text does not reach a mark before that text. -/
theorem snd_cutLexeme_ne_nil {c m : Char} {cs front next : Text}
    (h : (cutLexeme c (cs ++ next)).2.2 = front ++ next) (hfront : front ≠ [])
    (hm : m ∈ (c :: cs).getLast?) (hmark : isPunctuation m = true) :
    (cutLexeme c cs).2.2 ≠ [] := by
  intro hnil
  have hmem : m ∈ c :: cs := List.mem_of_getLast? hm
  rcases lexeme_cases c cs with ⟨b, rfl, rfl⟩ | hc | hc | hc
  · -- a comment with the mark in it goes on behind the mark
    rw [cutLexeme_comment] at hnil
    rw [List.cons_append, cutLexeme_comment] at h
    have hlength := length_snd_cutComment_append hnil next
    have hpos : 0 < front.length := List.length_pos_iff.2 hfront
    rw [show (cutComment (b ++ next)).2 = front ++ next from h, List.length_append] at hlength
    omega
  · rw [cutLexeme_blank hc, List.dropWhile_eq_nil_iff] at hnil
    have hblank : Text.isBlank m = true := by
      rcases List.mem_cons.1 hmem with rfl | hmem
      · exact hc
      · exact hnil m hmem
    simp [isBlank_of_isPunctuation hmark] at hblank
  · rw [cutLexeme_punctuation hc] at h hnil
    obtain rfl : cs = [] := hnil
    exact hfront (List.self_eq_append_left.1 (show next = front ++ next from h))
  · rw [cutLexeme_word hc] at hnil
    have hcs := cutWord_append cs
    rw [show (cutWord cs).2 = [] from hnil, List.append_nil] at hcs
    have hword : cutWord (c :: cs) = (c :: cs, []) := by
      rw [cutWord_cons, if_neg (by simp [hc]), hcs, show (cutWord cs).2 = [] from hnil]
    simp [(not_isPunctuation_of_mem_word hword hmem).1] at hmark

/-- **A lexeme is cut alike without the text behind a mark.** -/
theorem cutLexeme_of_append {c m : Char} {cs front next : Text}
    (h : (cutLexeme c (cs ++ next)).2.2 = front ++ next) (hfront : front ≠ [])
    (hm : m ∈ (c :: cs).getLast?) (hmark : isPunctuation m = true) :
    cutLexeme c cs = ((cutLexeme c (cs ++ next)).1, (cutLexeme c (cs ++ next)).2.1, front) := by
  have hcut : cutLexeme c (cs ++ next) = _ :=
    cutLexeme_append_text (Or.inl (snd_cutLexeme_ne_nil h hfront hm hmark))
  rw [hcut] at h ⊢
  rw [← List.append_cancel_right h]

/-- A lexeme is the first character and what follows it up to the rest. -/
theorem exists_cutLexeme_eq (c : Char) (cs : Text) :
    ∃ w, (cutLexeme c cs).2.1 = c :: w ∧ cs = w ++ (cutLexeme c cs).2.2 := by
  obtain ⟨e, w, hw⟩ := List.exists_cons_of_ne_nil (cutLexeme_ne_nil c cs)
  have happend := cutLexeme_append c cs
  rw [hw, List.cons_append] at happend
  obtain ⟨rfl, hcs⟩ := List.cons.inj happend
  exact ⟨w, hw, hcs.symm⟩

/-- The first token of a text is its first lexeme, and the others are those of the rest. -/
theorem Token.exists_of_scanFrom_eq_cons {p : Position} {source : Text}
    (h : scanFrom p source = t :: ts) :
    ∃ c cs, source = c :: cs ∧ t = ⟨(cutLexeme c cs).1, (cutLexeme c cs).2.1, p⟩ ∧
      scanFrom (p.advance t.text) (cutLexeme c cs).2.2 = ts := by
  cases source with
  | nil => simp at h
  | cons c cs =>
    rw [scanFrom_cons] at h
    obtain ⟨rfl, hts⟩ := List.cons.inj h
    exact ⟨c, cs, rfl, rfl, hts⟩

/-- **Cutting up to a mark.**  From the texts of some tokens that end with punctuation the same
tokens are cut as from the whole text. -/
theorem Token.scanFrom_flatMap_text {p : Position} {source : Text} {before after : List Token}
    (hscan : scanFrom p source = before ++ t :: after) (hk : t.kind = .punctuation) :
    scanFrom p ((before ++ [t]).flatMap text) = before ++ [t] := by
  have hproper : t.Proper := (Lexed.scanFrom p source).proper t (by simp [hscan])
  obtain ⟨m, hm, hmark⟩ : ∃ m, t.text = [m] ∧ isPunctuation m = true := by
    rwa [Proper, hk] at hproper
  induction before generalizing p source with
  | nil =>
    obtain ⟨c, cs, -, ht, -⟩ := exists_of_scanFrom_eq_cons hscan
    have hp : t.position = p := by rw [ht]
    rw [List.nil_append, List.flatMap_singleton, hm, scanFrom_cons, cutLexeme_punctuation hmark,
      scanFrom_nil, ← hp, ← hk, ← hm]
  | cons u before ih =>
    obtain ⟨c, cs, -, hu, hrest⟩ := exists_of_scanFrom_eq_cons hscan
    have hfront := ih hrest
    have hne : (before ++ [t]).flatMap text ≠ [] := by simp [hm]
    have hsplit : (cutLexeme c cs).2.2 = (before ++ [t]).flatMap text ++ after.flatMap text := by
      rw [← flatMap_text_scanFrom _ (cutLexeme c cs).2.2, hrest, ← List.flatMap_append,
        List.append_assoc]
      rfl
    obtain ⟨w, hw, hcs⟩ := exists_cutLexeme_eq c cs
    have htext : u.text = c :: w := by rw [hu, hw]
    rw [hsplit, ← List.append_assoc] at hcs
    have hlast : m ∈ (c :: (w ++ (before ++ [t]).flatMap text)).getLast? := by
      rw [← List.cons_append, List.getLast?_append_of_ne_nil _ hne]
      simp [hm]
    -- without the text behind the mark the first lexeme is the same
    have hcut := cutLexeme_of_append (hcs ▸ hsplit) hne hlast hmark
    rw [← hcs] at hcut
    rw [List.cons_append, List.flatMap_cons, htext, List.cons_append, scanFrom_cons, hcut, hw,
      ← htext, hfront, hu]

/-! ### Behind a block -/

/-- Tokens of a text up to one of them are like tokens of a text. -/
theorem Lexed.of_append (h : Lexed (ts ++ us)) : Lexed ts :=
  ⟨fun t ht => h.proper t (List.mem_append_left us ht), h.apart.left_of_append⟩

/-- **A closed block shuts off what stands before it.**  Where a closing brace leaves no block open,
a text has the rules of the tokens up to the brace and then those of the tokens behind it, in the
same places; and the former are there whatever text stands behind the brace. -/
theorem parse_split_at_close {source : Text} {before after : List Token}
    (hscan : Token.scan source = before ++ t :: after) (hclose : t.isStop ['}'] = true)
    (hdepth : braceDepth 0 before = 1) :
    parse (Token.scan source) = parse (before ++ [t]) ++ parse after ∧
      ∀ text, parse (before ++ [t]) <+:
        parse (Token.scan ((before ++ [t]).flatMap Token.text ++ text)) := by
  have hsealed : Sealed 0 (before ++ [t]) := .of_close hclose hdepth
  have hl : Lexed (before ++ [t]) := by
    have hall : Lexed (Token.scan source) := Lexed.scanFrom .start source
    rw [hscan, List.append_cons] at hall
    exact hall.of_append
  have hk : t.kind = .punctuation := (Token.isStop_iff.1 hclose).1
  have hfront : Token.scanFrom .start ((before ++ [t]).flatMap Token.text) = before ++ [t] :=
    Token.scanFrom_flatMap_text hscan hk
  refine ⟨?_, fun text => ?_⟩
  · rw [hscan, List.append_cons]
    exact parse_append_of_sealed hl hsealed after
  · have hseam : ∀ u ∈ (Token.scanFrom .start ((before ++ [t]).flatMap Token.text)).getLast?,
        u.Seam text := by
      intro u hu
      rw [hfront, List.getLast?_concat, Option.mem_some_iff] at hu
      rw [← hu, Token.Seam, hk]
      trivial
    rw [Token.scan, Token.scanFrom_append _ _ text hseam, hfront, parse_append_of_sealed hl hsealed]
    exact List.prefix_append _ _

/-- A group with a rule in it, and behind it a selector with a semicolon and a stray brace. -/
theorem parse_split_at_close_stray :
    let source : Text := "@m\x7ba\x7bb:c\x7d\x7dd;\x7de\x7bf".toList
    let before : List Token :=
      [⟨.atKeyword, ['@', 'm'], ⟨1, 1⟩⟩, ⟨.punctuation, ['{'], ⟨1, 3⟩⟩, ⟨.text, ['a'], ⟨1, 4⟩⟩,
        ⟨.punctuation, ['{'], ⟨1, 5⟩⟩, ⟨.text, ['b'], ⟨1, 6⟩⟩, ⟨.punctuation, [':'], ⟨1, 7⟩⟩,
        ⟨.text, ['c'], ⟨1, 8⟩⟩, ⟨.punctuation, ['}'], ⟨1, 9⟩⟩]
    let t : Token := ⟨.punctuation, ['}'], ⟨1, 10⟩⟩
    let after : List Token :=
      [⟨.text, ['d'], ⟨1, 11⟩⟩, ⟨.punctuation, [';'], ⟨1, 12⟩⟩, ⟨.punctuation, ['}'], ⟨1, 13⟩⟩,
        ⟨.text, ['e'], ⟨1, 14⟩⟩, ⟨.punctuation, ['{'], ⟨1, 15⟩⟩, ⟨.text, ['f'], ⟨1, 16⟩⟩]
    Token.scan source = before ++ t :: after ∧ t.isStop ['}'] = true ∧ braceDepth 0 before = 1 ∧
      parse (Token.scan source) = parse (before ++ [t]) ++ parse after ∧
      ∀ text, parse (before ++ [t]) <+:
        parse (Token.scan ((before ++ [t]).flatMap Token.text ++ text)) := by
  intro source before t after
  have hscan : Token.scan source = before ++ t :: after := by decide +kernel
  have hclose : t.isStop ['}'] = true := rfl
  have hdepth : braceDepth 0 before = 1 := rfl
  exact ⟨hscan, hclose, hdepth, parse_split_at_close hscan hclose hdepth⟩

end Stylesheet
end Galley
