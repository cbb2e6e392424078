/-
# Input that ends too early

The end of the input closes whatever is open: the parser returns the same rules, in the same places,
if closing braces are put behind the tokens (`parse_append_closing`), as many as are missing or more.
Braces that close nothing are skipped by the sheet.

Two kinds of phrases meet the end in different ways.  A prelude, a property and a value stop at a
closing brace and leave it unread, as they leave nothing unread at the end.  A selector reads the
braces as well; but one that reaches no opening brace is dropped, and the braces with it.
-/

import Galley.Proofs.Stylesheet.Routines

namespace Galley
namespace Stylesheet

/-- A closing brace. -/
def Token.closing (p : Position) : Token := ⟨.punctuation, ['}'], p⟩

/-- Whether tokens are others with closing braces behind them. -/
def Closed (ts ts' : List Token) : Prop := ∃ ps : List Position, ts' = ts ++ ps.map Token.closing

/-- Whether a routine returns the same, and leaves the same unread but for closing braces. -/
structure Outcome.Closed {α : Type} (o o' : Outcome α) : Prop where
  value : o'.value = o.value
  siblings : o'.siblings = o.siblings
  rest : Stylesheet.Closed o.rest o'.rest

variable {t : Token} {ts us : List Token} {stops chars : Text} {ps : List Position}

/-! ### Phrases -/

namespace Phrase

/-- A phrase that stops in its tokens, or that stops at once in those behind them, leaves these
unread. -/
theorem readFrom_append_unread (started gap : Bool)
    (h : (readFrom stops started gap ts).rest ≠ [] ∨
      ∀ started gap, readFrom stops started gap us = ⟨[], [], [], us⟩) :
    readFrom stops started gap (ts ++ us) =
      ⟨(readFrom stops started gap ts).text, (readFrom stops started gap ts).comments,
        (readFrom stops started gap ts).notes, (readFrom stops started gap ts).rest ++ us⟩ := by
  induction ts generalizing started gap with
  | nil => exact h.resolve_left (by simp [readFrom_nil]) started gap
  | cons t ts ih =>
    rcases token_cases stops t with hs | hc | hw | ⟨hs, hc, hw⟩
    · rw [List.cons_append, readFrom_stop hs, readFrom_stop hs]
      rfl
    · rw [readFrom_comment hc] at h ⊢
      rw [List.cons_append, readFrom_comment hc, ih started started h]
    · rw [readFrom_blank hw] at h ⊢
      rw [List.cons_append, readFrom_blank hw, ih started started h]
    · rw [readFrom_piece hs hc hw] at h ⊢
      rw [List.cons_append, readFrom_piece hs hc hw, ih true false h]

/-- A phrase that a closing brace stops leaves the closing braces. -/
theorem read_append_closing (h : '}' ∈ stops) (ts : List Token) (ps : List Position) :
    read stops (ts ++ ps.map Token.closing) =
      ⟨(read stops ts).text, (read stops ts).comments, (read stops ts).notes,
        (read stops ts).rest ++ ps.map Token.closing⟩ := by
  refine readFrom_append_unread false false (Or.inr fun started gap => ?_)
  cases ps with
  | nil => rfl
  | cons p ps => exact readFrom_stop (by simp [Token.isStop, Token.closing, h])

end Phrase

/-- A selector that reaches an opening brace is read up to it, whatever comes after. -/
theorem selectorPhrase_append (h : (selectorPhrase ts).rest ≠ []) (us : List Token) :
    selectorPhrase (ts ++ us) =
      ⟨(selectorPhrase ts).text, (selectorPhrase ts).comments, (selectorPhrase ts).notes,
        (selectorPhrase ts).rest ++ us⟩ :=
  Phrase.readFrom_append_unread false false (Or.inl h)

/-- **A selector that reaches no opening brace** does not reach one with closing braces behind it,
and its comments are the same. -/
theorem selectorPhrase_append_closing (h : (selectorPhrase ts).rest = []) (ps : List Position) :
    (selectorPhrase (ts ++ ps.map Token.closing)).rest = [] ∧
      (selectorPhrase (ts ++ ps.map Token.closing)).comments = (selectorPhrase ts).comments := by
  have hts : ∀ u ∈ ts, (!u.isStop ['{']) = true := by
    rwa [selectorPhrase, Phrase.read, Phrase.rest_readFrom, List.dropWhile_eq_nil_iff] at h
  have hps : ∀ u ∈ ps.map Token.closing, (!u.isStop ['{']) = true ∧ u.kind = .punctuation := by
    intro u hu
    obtain ⟨p, -, rfl⟩ := List.mem_map.1 hu
    exact ⟨rfl, rfl⟩
  have hall : ∀ u ∈ ts ++ ps.map Token.closing, (!u.isStop ['{']) = true :=
    List.forall_mem_append.2 ⟨hts, fun u hu => (hps u hu).1⟩
  have hnone : (ps.map Token.closing).filter (fun u => u.kind = .comment) = [] := by
    rw [List.filter_eq_nil_iff]
    intro u hu
    simp [(hps u hu).2]
  constructor
  · rw [selectorPhrase, Phrase.read, Phrase.rest_readFrom, List.dropWhile_eq_nil_iff]
    exact hall
  · rw [selectorPhrase, Phrase.read, selectorPhrase, Phrase.read, Phrase.comments_readFrom,
      Phrase.comments_readFrom, List.takeWhile_eq_self_iff.2 hall,
      List.takeWhile_eq_self_iff.2 hts, List.filter_append, hnone, List.append_nil]

/-! ### Declarations -/

theorem headIsAmong_append_closing (h : ∀ p, (Token.closing p).isAmong chars = false)
    (ts : List Token) (ps : List Position) :
    Token.headIsAmong chars (ts ++ ps.map Token.closing) = Token.headIsAmong chars ts := by
  cases ts with
  | nil =>
    cases ps with
    | nil => rfl
    | cons p ps => exact h p
  | cons t ts => rfl

theorem tail_append_of_headIsAmong (h : Token.headIsAmong chars ts = true) :
    (ts ++ us).tail = ts.tail ++ us := by
  cases ts with
  | nil => simp [Token.headIsAmong] at h
  | cons t ts => rfl

theorem skipSemicolon_append_closing (ts : List Token) (ps : List Position) :
    skipSemicolon (ts ++ ps.map Token.closing) = skipSemicolon ts ++ ps.map Token.closing := by
  unfold skipSemicolon
  rw [headIsAmong_append_closing fun _ => rfl]
  split
  · rename_i h
    exact tail_append_of_headIsAmong h
  · rfl

/-- No closing brace opens a block. -/
theorem opensBlock_append_closing (ts : List Token) (ps : List Position) :
    opensBlock (ts ++ ps.map Token.closing) = opensBlock ts := by
  induction ts with
  | nil =>
    cases ps with
    | nil => rfl
    | cons p ps => rfl
  | cons t ts ih => rw [List.cons_append, opensBlock, opensBlock, ih]

/-- **A declaration leaves the closing braces.** -/
theorem declaration_append_closing (ts : List Token) (ps : List Position) :
    declaration (ts ++ ps.map Token.closing) =
      ⟨(declaration ts).value, (declaration ts).siblings, (declaration ts).notes,
        (declaration ts).rest ++ ps.map Token.closing⟩ := by
  have hname : propertyPhrase (ts ++ ps.map Token.closing) = _ :=
    Phrase.read_append_closing (by simp) ts ps
  have hcolon : Token.headIsAmong [':'] (propertyPhrase (ts ++ ps.map Token.closing)).rest =
      Token.headIsAmong [':'] (propertyPhrase ts).rest := by
    rw [hname, headIsAmong_append_closing fun _ => rfl]
  cases hc : Token.headIsAmong [':'] (propertyPhrase ts).rest with
  | true =>
    have hvalue : valuePhrase ((propertyPhrase ts).rest.tail ++ ps.map Token.closing) = _ :=
      Phrase.read_append_closing (by simp) _ ps
    rw [declaration_colon hc, declaration_colon (hcolon.trans hc), hname,
      tail_append_of_headIsAmong hc, hvalue, skipSemicolon_append_closing]
  | false =>
    rw [declaration_bare hc, declaration_bare (hcolon.trans hc), hname,
      skipSemicolon_append_closing]

/-! ### Routines -/

/-- **The routines return the same** with closing braces behind their tokens. -/
theorem routines_closed :
    (∀ ts us, Closed ts us → (block ts).1.Closed (block us).1) ∧
      (∀ t ts us, Closed ts us → (atRule t ts).1.Closed (atRule t us).1) ∧
      ∀ t ts us, Closed ts us → (styleRule t ts).1.Closed (styleRule t us).1 := by
  apply routines_induction
  case nil =>
    rintro _ ⟨ps, rfl⟩
    cases ps with
    | nil => exact ⟨rfl, rfl, [], (List.append_nil _).symm⟩
    | cons p ps =>
      have hclose : (block (Token.closing p :: ps.map Token.closing)).1 =
          ⟨.empty, [], [], ps.map Token.closing⟩ := block_close rfl
      rw [block_nil, List.nil_append, List.map_cons, hclose]
      exact ⟨rfl, rfl, ps, rfl⟩
  case blank =>
    rintro t ts hk ih _ ⟨ps, rfl⟩
    rw [List.cons_append, block_blank hk, block_blank hk]
    exact ih _ ⟨ps, rfl⟩
  case comment =>
    rintro t ts hk ih _ ⟨ps, rfl⟩
    have hblock := ih _ ⟨ps, rfl⟩
    rw [List.cons_append, block_comment hk, block_comment hk, hblock.value]
    exact ⟨rfl, rfl, hblock.rest⟩
  case close =>
    rintro t ts hc _ ⟨ps, rfl⟩
    rw [List.cons_append, block_close hc, block_close hc]
    exact ⟨rfl, rfl, ps, rfl⟩
  case semicolon =>
    rintro t ts hc hs ih _ ⟨ps, rfl⟩
    rw [List.cons_append, block_semicolon hc hs, block_semicolon hc hs]
    exact ih _ ⟨ps, rfl⟩
  case keyword =>
    rintro t ts hk ihA ih _ ⟨ps, rfl⟩
    have hrule := ihA _ ⟨ps, rfl⟩
    have hblock := ih _ hrule.rest
    rw [List.cons_append, block_atRule hk, block_atRule hk, hrule.value, hrule.siblings,
      hblock.value]
    exact ⟨rfl, rfl, hblock.rest⟩
  case nested =>
    rintro t ts hs ho ihS ih _ ⟨ps, rfl⟩
    have hrule := ihS _ ⟨ps, rfl⟩
    have hblock := ih _ hrule.rest
    have ho' := (opensBlock_append_closing (t :: ts) ps).trans ho
    rw [List.cons_append] at ho' ⊢
    rw [block_styleRule hs ho, block_styleRule hs ho', hrule.value, hrule.siblings, hblock.value]
    exact ⟨rfl, rfl, hblock.rest⟩
  case item =>
    rintro t ts hs ho ih _ ⟨ps, rfl⟩
    have hdecl := declaration_append_closing (t :: ts) ps
    have hblock := ih _ ⟨ps, rfl⟩
    have ho' := (opensBlock_append_closing (t :: ts) ps).trans ho
    rw [List.cons_append] at ho' hdecl ⊢
    rw [block_declaration hs ho, block_declaration hs ho', hdecl, hblock.value]
    exact ⟨rfl, rfl, hblock.rest⟩
  case statement =>
    rintro t ts hs _ ⟨ps, rfl⟩
    have hprelude : preludePhrase (ts ++ ps.map Token.closing) = _ :=
      Phrase.read_append_closing (by simp) ts ps
    have hs' : Token.headIsAmong ['{'] (preludePhrase (ts ++ ps.map Token.closing)).rest =
        false := by
      rwa [hprelude, headIsAmong_append_closing fun _ => rfl]
    rw [atRule_statement hs, atRule_statement hs', hprelude, skipSemicolon_append_closing]
    exact ⟨rfl, rfl, ps, rfl⟩
  case group =>
    rintro t ts u rest hr hu ih _ ⟨ps, rfl⟩
    have hprelude : preludePhrase (ts ++ ps.map Token.closing) = _ :=
      Phrase.read_append_closing (by simp) ts ps
    have hr' : (preludePhrase (ts ++ ps.map Token.closing)).rest =
        u :: (rest ++ ps.map Token.closing) := by
      rw [hprelude, hr, List.cons_append]
    have hblock := ih _ ⟨ps, rfl⟩
    rw [atRule_group hr hu, atRule_group hr' hu, hprelude, hblock.value]
    exact ⟨rfl, rfl, hblock.rest⟩
  case unopened =>
    rintro t ts hr _ ⟨ps, rfl⟩
    obtain ⟨hr', hcomments⟩ := selectorPhrase_append_closing hr ps
    rw [List.cons_append] at hr' hcomments
    rw [styleRule_unopened hr, styleRule_unopened hr', hcomments]
    exact ⟨rfl, rfl, [], rfl⟩
  case opened =>
    rintro t ts u rest hr ih _ ⟨ps, rfl⟩
    have hopened : (selectorPhrase (t :: ts)).rest ≠ [] := by simp [hr]
    have hselector := selectorPhrase_append hopened (ps.map Token.closing)
    have hblock := ih _ ⟨ps, rfl⟩
    rw [List.cons_append] at hselector
    have hr' : (selectorPhrase (t :: (ts ++ ps.map Token.closing))).rest =
        u :: (rest ++ ps.map Token.closing) := by
      rw [hselector, hr, List.cons_append]
    have hshell : isShell (selectorPhrase (t :: (ts ++ ps.map Token.closing))).text
        (block (rest ++ ps.map Token.closing)).1.value =
        isShell (selectorPhrase (t :: ts)).text (block rest).1.value := by
      rw [hselector, hblock.value]
    cases hs : isShell (selectorPhrase (t :: ts)).text (block rest).1.value with
    | true =>
      rw [styleRule_shell hr hs, styleRule_shell hr' (hshell.trans hs), hselector]
      exact ⟨rfl, rfl, hblock.rest⟩
    | false =>
      rw [styleRule_kept hr hs, styleRule_kept hr' (hshell.trans hs), hselector, hblock.value]
      exact ⟨rfl, rfl, hblock.rest⟩

/-! ### Sheets -/

/-- **The end of the input closes what is open.**  With any number of closing braces behind its
tokens, at any places, a stylesheet has the same rules in the same places. -/
theorem parse_append_closing (ts : List Token) (ps : List Position) :
    parse (ts ++ ps.map Token.closing) = parse ts := by
  induction ts using parse_induction generalizing ps with
  | nil =>
    -- braces that close nothing are skipped
    induction ps with
    | nil => rfl
    | cons p ps ih => rw [List.map_cons, List.nil_append, parse_stray rfl]; exact ih
  | blank t ts hk ih => rw [List.cons_append, parse_blank hk, parse_blank hk, ih]
  | comment t ts hk ih => rw [List.cons_append, parse_comment hk, parse_comment hk, ih]
  | stray t ts hs ih => rw [List.cons_append, parse_stray hs, parse_stray hs, ih]
  | keyword t ts hk ih =>
    have hrule := routines_closed.2.1 t ts _ ⟨ps, rfl⟩
    obtain ⟨ps', hrest⟩ := hrule.rest
    rw [List.cons_append, parse_atRule hk, parse_atRule hk, hrule.value, hrule.siblings, hrest, ih]
  | rule t ts hs ih =>
    have hrule := routines_closed.2.2 t ts _ ⟨ps, rfl⟩
    obtain ⟨ps', hrest⟩ := hrule.rest
    rw [List.cons_append, parse_styleRule hs, parse_styleRule hs, hrule.value, hrule.siblings,
      hrest, ih]

end Stylesheet
end Galley
