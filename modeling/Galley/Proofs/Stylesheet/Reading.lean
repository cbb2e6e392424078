/-
# Reading pieces

The parser, given the tokens of a text that consists of some pieces (`Scans`), reads the pieces from
the front and leaves the tokens of the others.  Each statement here is about one construct and any
pieces behind it.

| construct | statement |
| --- | --- |
| a phrase and its stop | `Scans.read` |
| a declaration | `Scans.declaration` |
| the keyword of an at-rule | `Scans.keyword` |
| the first token of a selector or a property | `Scans.item` |

A sheet and the inside of a block read rules alike; `Begins` covers both, so what holds of an
at-rule or of a style rule is said once.
-/

import Galley.Proofs.Stylesheet.Spelling

namespace Galley
namespace Stylesheet

variable {inner : Bool} {c : Char} {w k pre : Text} {ps qs stops : List Text}
variable {t : Token} {ts ts' ts'' us : List Token} {rs rs' : List Rule}

/-! ### Tokens of pieces -/

/-- Whether tokens are those of a text that consists of some pieces with blanks around them. -/
def Scans (ps : List Text) (ts : List Token) : Prop :=
  ∃ p t, Spaced ps t ∧ ts = Token.scanFrom p t

theorem Scans.lexed (h : Scans ps ts) : Lexed ts := by
  obtain ⟨p, t, -, rfl⟩ := h
  exact Lexed.scanFrom p t

/-- **A phrase is read up to its stop.** -/
theorem Scans.read {stops : Text} (h : Scans (w :: [c] :: qs) ts) (hw : IsPhrase stops w)
    (hc : isPunctuation c = true) (hcs : c ∈ stops) :
    ∃ q rest, Phrase.read stops ts = ⟨w, [], [], ⟨.punctuation, [c], q⟩ :: rest⟩ ∧
      Scans qs rest := by
  obtain ⟨p, t, hsp, rfl⟩ := h
  obtain ⟨ws, u, hws, hu, rfl⟩ := hsp.exists_of_cons
  obtain ⟨ws', v, hws', hv, rfl⟩ := hu.exists_of_cons
  have hread := Phrase.read_scanFrom hw.tidy hw.free hws hws' hc hcs p v
  rw [Token.scanFrom_cons, cutLexeme_punctuation hc] at hread
  exact ⟨_, _, hread, _, v, hv, rfl⟩

theorem Token.proper_punctuation (hc : isPunctuation c = true) (q : Position) :
    Token.Proper ⟨.punctuation, [c], q⟩ :=
  ⟨c, rfl, hc⟩

/-- A keyword before the end of words is a token. -/
theorem Token.scanFrom_keyword (hk : IsKeyword k) {next : Text} (hn : endsWord next = true)
    (p : Position) :
    Token.scanFrom p (k ++ next) =
      ⟨.atKeyword, k, p⟩ :: Token.scanFrom (p.advance k) next := by
  obtain ⟨⟨-, hw⟩, hat⟩ := hk
  obtain ⟨cs, rfl⟩ := List.head?_eq_some_iff.1 hat
  have hends : ¬ endsWord ('@' :: cs) = true := by
    intro he
    rw [cutWord_cons, if_pos he] at hw
    simp at hw
  have hcs : cutWord cs = (cs, []) := by
    rw [cutWord_cons, if_neg hends] at hw
    simp only [Prod.mk.injEq, List.cons.injEq, true_and] at hw
    exact Prod.ext hw.1 hw.2
  have hcut : cutLexeme '@' cs = (.atKeyword, '@' :: cs, []) := by
    rw [cutLexeme_word (by simpa using hends), hcs]
    rfl
  have happ : cutLexeme '@' (cs ++ next) = (.atKeyword, '@' :: cs, next) := by
    rw [cutLexeme_append_text (Or.inr (by rw [hcut]; exact hn)), hcut, List.nil_append]
  rw [List.cons_append, Token.scanFrom_cons, happ]

/-- A comment before any text is a token. -/
theorem Token.scanFrom_comment {t : Text} (ht : IsComment t) (next : Text) (p : Position) :
    Token.scanFrom p (t ++ next) = ⟨.comment, t, p⟩ :: Token.scanFrom (p.advance t) next := by
  obtain ⟨b, rfl, hb, hend⟩ := ht
  have hcut : cutComment (b ++ next) = (b, next) := by
    rw [cutComment_append_text (Or.inr (by rw [hb]; exact hend)), hb, List.nil_append]
  rw [List.cons_append, List.cons_append, Token.scanFrom_cons, cutLexeme_comment, hcut]

/-! ### The way of a block and of a sheet -/

/-- Whether a block begins with some declarations and rules and goes on with other tokens. -/
structure BlockBegins (ts : List Token) (b : Block) (ts' : List Token) : Prop where
  declarations : (block ts).1.value.declarations =
    b.declarations ++ (block ts').1.value.declarations
  rules : (block ts).1.value.rules = b.rules ++ (block ts').1.value.rules
  rest : (block ts).1.rest = (block ts').1.rest

/-- Whether a block, or a sheet, begins with some rules and goes on with other tokens. -/
def Begins (inner : Bool) (ts : List Token) (rs : List Rule) (ts' : List Token) : Prop :=
  match inner with
  | true => BlockBegins ts ⟨[], rs⟩ ts'
  | false => parse ts = rs ++ parse ts'

theorem BlockBegins.of_eq (h : (block ts).1 = (block ts').1) : BlockBegins ts .empty ts' := by
  refine ⟨?_, ?_, ?_⟩ <;> rw [h] <;> rfl

theorem BlockBegins.trans {b b' : Block} (h : BlockBegins ts b ts')
    (h' : BlockBegins ts' b' ts'') :
    BlockBegins ts ⟨b.declarations ++ b'.declarations, b.rules ++ b'.rules⟩ ts'' := by
  refine ⟨?_, ?_, h.rest.trans h'.rest⟩
  · rw [h.declarations, h'.declarations, List.append_assoc]
  · rw [h.rules, h'.rules, List.append_assoc]

namespace Begins

theorem trans (h : Begins inner ts rs ts') (h' : Begins inner ts' rs' ts'') :
    Begins inner ts (rs ++ rs') ts'' := by
  cases inner with
  | true => exact BlockBegins.trans h h'
  | false => exact h.trans ((congrArg (rs ++ ·) h').trans (List.append_assoc rs rs' _).symm)

theorem refl : Begins inner ts [] ts := by
  cases inner with
  | true => exact BlockBegins.of_eq rfl
  | false => rfl

/-- Blanks are skipped. -/
theorem blanks {ws : Text} (hws : ws.allBlank = true) (p : Position) (t : Text) :
    Begins inner (Token.scanFrom p (ws ++ t)) [] (Token.scanFrom (p.advance ws) t) := by
  cases inner with
  | true =>
    exact BlockBegins.of_eq
      (Token.scanFrom_blanks (fun ts => (block ts).1) (fun _ _ h => block_blank h) p hws t)
  | false => exact Token.scanFrom_blanks parse (fun _ _ h => parse_blank h) p hws t

/-- A comment is a rule. -/
theorem comment (h : t.kind = .comment) : Begins inner (t :: ts) [t.toComment] ts := by
  cases inner with
  | true => refine ⟨?_, ?_, ?_⟩ <;> rw [block_comment h] <;> rfl
  | false => exact parse_comment h

/-- An at-rule is a rule. -/
theorem atRule (h : t.kind = .atKeyword) (hs : (atRule t ts).1.siblings = []) :
    Begins inner (t :: ts) [(atRule t ts).1.value] (atRule t ts).1.rest := by
  cases inner with
  | true => refine ⟨?_, ?_, ?_⟩ <;> rw [block_atRule h, hs] <;> rfl
  | false => rw [Begins, parse_atRule h, hs]; rfl

/-- A style rule is a rule. -/
theorem styleRule {r : Rule} (h : t.StartsItem) (h' : t.StartsRule)
    (ho : inner = true → opensBlock (t :: ts) = true)
    (hv : (styleRule t ts).1.value = some r) (hs : (styleRule t ts).1.siblings = []) :
    Begins inner (t :: ts) [r] (styleRule t ts).1.rest := by
  cases inner with
  | true => refine ⟨?_, ?_, ?_⟩ <;> rw [block_styleRule h (ho rfl), hv, hs] <;> rfl
  | false => rw [Begins, parse_styleRule h', hv, hs]; rfl

end Begins

/-! ### The first token of a construct -/

/-- The keyword of an at-rule is a token, and its prelude follows. -/
theorem Scans.keyword (inner : Bool) (h : Scans (Rule.heading k pre :: [c] :: qs) ts)
    (hk : IsKeyword k) (hc : isPunctuation c = true) :
    ∃ q us, Begins inner ts [] (⟨.atKeyword, k, q⟩ :: us) ∧ Scans (pre :: [c] :: qs) us := by
  obtain ⟨p, t, hsp, rfl⟩ := h
  obtain ⟨ws, u, hws, hu, rfl⟩ := hsp.exists_of_cons
  obtain ⟨ws', v, hws', hv, rfl⟩ := hu.exists_of_cons
  have hend : endsWord (ws' ++ ([c] ++ v)) = true := endsWord_blanks_append hws' hc v
  by_cases hpre : pre = []
  · subst hpre
    have hbegins : Begins inner (Token.scanFrom p (ws ++ (k ++ (ws' ++ ([c] ++ v))))) [] _ :=
      Begins.blanks hws p _
    rw [Token.scanFrom_keyword hk hend] at hbegins
    exact ⟨_, _, hbegins, _, _, Spaced.piece [] hu, rfl⟩
  · have hspace : endsWord ([' '] ++ (pre ++ (ws' ++ ([c] ++ v)))) = true :=
      endsWord_cons_of_isBlank (by decide) _
    have hheading : Rule.heading k pre = k ++ [' '] ++ pre := if_neg (by simpa using hpre)
    have hbegins : Begins inner
        (Token.scanFrom p (ws ++ (k ++ ([' '] ++ (pre ++ (ws' ++ ([c] ++ v))))))) [] _ :=
      Begins.blanks hws p _
    rw [Token.scanFrom_keyword hk hspace] at hbegins
    rw [hheading, List.append_assoc, List.append_assoc]
    exact ⟨_, _, hbegins, _, _, Spaced.blanks (by decide) (Spaced.piece pre hu), rfl⟩

/-- A text of pieces goes on, behind blanks, with the first character of its first two pieces; where
the first piece is tidy this is no comment. -/
theorem Spaced.exists_head {t : Text} (h : Spaced (w :: [c] :: qs) t) (hw : IsTidy w)
    (hc : isPunctuation c = true) :
    ∃ (ws : Text) (d : Char) (u : Text), ws.allBlank = true ∧ t = ws ++ d :: u ∧
      Spaced (w :: [c] :: qs) (d :: u) ∧ (w ++ [c]).head? = some d ∧ Text.isBlank d = false ∧
      opensComment d u = false := by
  obtain ⟨ws, u, hws, hu, rfl⟩ := h.exists_of_cons
  obtain ⟨ws', v, hws', hv, rfl⟩ := hu.exists_of_cons
  cases w with
  | nil =>
    refine ⟨ws ++ ws', c, v, ?_, ?_, ?_, rfl, isBlank_of_isPunctuation hc, ?_⟩
    · rw [allBlank_append, hws, hws', Bool.and_self]
    · rw [List.append_assoc]
      rfl
    · exact Spaced.piece [] (Spaced.piece [c] hv)
    · have hslash : c ≠ '/' := by rintro rfl; exact absurd hc (by decide)
      simp [opensComment, hslash]
  | cons d ds =>
    refine ⟨ws, d, ds ++ (ws' ++ ([c] ++ v)), hws, rfl, ?_, rfl, hw.head_solid, ?_⟩
    · exact Spaced.piece (d :: ds) hu
    · have hend : endsWord (ws' ++ ([c] ++ v)) = true := endsWord_blanks_append hws' hc v
      rw [opensComment_append (Or.inr hend)]
      have ht : tidyFrom true (d :: ds) = true := hw.resolve_left (by simp)
      rw [tidyFrom_of_solid hw.head_solid, Bool.and_eq_true, Bool.not_eq_true'] at ht
      exact ht.1

/-- **A selector or a property begins with a token that may begin one**, also where it is empty
and the stop behind it is that token. -/
theorem Scans.item (inner : Bool) (h : Scans (w :: [c] :: qs) ts) (hw : IsTidy w)
    (hc : isPunctuation c = true)
    (hat : w.head? ≠ some '@') (hmark : ∀ m ∈ [';', '}'], w.head? ≠ some m ∧ c ≠ m) :
    ∃ t us, Begins inner ts [] (t :: us) ∧ Scans (w :: [c] :: qs) (t :: us) ∧ t.StartsItem ∧
      t.StartsRule := by
  obtain ⟨p, t, hsp, rfl⟩ := h
  obtain ⟨ws, d, u, hws, rfl, hu, hhead, hsolid, hcomment⟩ := hsp.exists_head hw hc
  have hne : ∀ m, w.head? ≠ some m → c ≠ m → d ≠ m := by
    rintro m hw hc rfl
    cases w with
    | nil => exact hc (by simpa using hhead)
    | cons e es => exact hw hhead
  have hat : d ≠ '@' := hne '@' hat (by rintro rfl; exact absurd hc (by decide))
  have hsemicolon : d ≠ ';' := hne ';' (hmark ';' (by simp)).1 (hmark ';' (by simp)).2
  have hclose : d ≠ '}' := hne '}' (hmark '}' (by simp)).1 (hmark '}' (by simp)).2
  have hbegins : Begins inner (Token.scanFrom p (ws ++ d :: u)) [] _ :=
    Begins.blanks hws p (d :: u)
  have hscans : Scans (w :: [c] :: qs) (Token.scanFrom (p.advance ws) (d :: u)) :=
    ⟨_, _, hu, rfl⟩
  rcases lexeme_cases d u with ⟨b, rfl, rfl⟩ | hblank | hp | hword
  · simp [opensComment] at hcomment
  · simp [hsolid] at hblank
  · rw [Token.scanFrom_cons, cutLexeme_punctuation hp] at hbegins hscans
    refine ⟨_, _, hbegins, hscans, ⟨by simp, by simp, by simp, ?_, ?_⟩, by simp, by simp,
      by simp, ?_⟩
    all_goals simp [Token.isAmong, occursIn_singleton, hsemicolon, hclose]
  · rw [Token.scanFrom_cons, cutLexeme_word hword, if_neg hat] at hbegins hscans
    refine ⟨_, _, hbegins, hscans, ⟨by simp, by simp, by simp, ?_, ?_⟩, by simp, by simp,
      by simp, ?_⟩
    all_goals exact Token.isAmong_of_kind (by simp)

/-- The end of a block is read. -/
theorem Scans.close (h : Scans (['}'] :: qs) ts) :
    (block ts).1.value = .empty ∧ Scans qs (block ts).1.rest := by
  obtain ⟨p, t, hsp, rfl⟩ := h
  obtain ⟨ws, u, hws, hu, rfl⟩ := hsp.exists_of_cons
  have hblock : (block (Token.scanFrom p (ws ++ ('}' :: u)))).1 = _ :=
    Token.scanFrom_blanks (fun ts => (block ts).1) (fun _ _ h => block_blank h) p hws _
  rw [Token.scanFrom_cons, cutLexeme_punctuation (by decide),
    block_close (by simp [Token.isAmong, Text.occursIn])] at hblock
  rw [List.singleton_append, hblock]
  exact ⟨rfl, _, u, hu, rfl⟩

/-! ### Declarations -/

/-- The search for an opening brace may start at the stop of a phrase. -/
theorem opensBlock_rest_read {stops : Text} (h : Lexed ts)
    (hs : ∀ c ∈ ['{', ';', '}'], c ∈ stops) :
    opensBlock ts = opensBlock (Phrase.read stops ts).rest := by
  rw [Phrase.read, Phrase.rest_readFrom]
  induction ts with
  | nil => rfl
  | cons t ts ih =>
    cases hst : t.isStop stops with
    | true => rw [List.dropWhile_cons_of_neg (by simp [hst])]
    | false =>
      have hsub : ∀ stops' : Text, (∀ c ∈ stops', c ∈ ['{', ';', '}']) →
          t.isStop stops' = false := by
        intro stops' hsub
        rw [← Bool.not_eq_true]
        exact fun hst' => ne_true_of_eq_false hst
          (Token.isStop_mono (fun c hc => hs c (hsub c hc)) hst')
      rw [List.dropWhile_cons_of_pos (by simp [hst]),
        opensBlock_skip h.head (hsub ['{'] (by simp)) (hsub [';', '}'] (by simp)), ih h.tail]

variable {body : Declaration → Text} {d : Declaration} {ds : List Declaration}

/-- No brace opens a block in a declaration. -/
theorem Scans.not_opensBlock (h : Scans (d.pieces body ++ qs) ts) (hbody : IsBody body)
    (hd : d.WellFormed) : opensBlock ts = false := by
  have stops : ∀ c ∈ ['{', ';', '}'], c ∈ [';', '{', '}'] := by simp
  obtain ⟨q, us, hread, hus⟩ := h.read hd.property (by decide) (by simp)
  obtain ⟨q', us', hread', -⟩ := hus.read (hbody d hd).1 (by decide) (by simp)
  rw [opensBlock_rest_read h.lexed fun c hc => List.mem_cons_of_mem ':' (stops c hc), hread,
    opensBlock_skip (Token.proper_punctuation (by decide) q) rfl rfl,
    opensBlock_rest_read hus.lexed stops, hread']
  exact opensBlock_end (Token.proper_punctuation (by decide) q') rfl

/-- **A declaration is read back.** -/
theorem Scans.declaration (h : Scans (d.pieces body ++ qs) ts) (hbody : IsBody body)
    (hd : d.WellFormed) :
    ∃ rest, declaration ts = ⟨some d, [], [], rest⟩ ∧ Scans qs rest := by
  have hproperty : IsPhrase [':', ';', '}'] d.property := hd.property.mono (by simp)
  have hvalue : IsPhrase [';', '}'] (body d) := (hbody d hd).1.mono (by simp)
  obtain ⟨q, us, hread, hus⟩ := h.read hproperty (by decide) (by simp)
  obtain ⟨q', rest, hread', hrest⟩ := hus.read hvalue (by decide) (by simp)
  refine ⟨rest, ?_, hrest⟩
  rw [declaration_colon (by rw [propertyPhrase, hread]; rfl), propertyPhrase, hread, valuePhrase,
    List.tail_cons, hread', (hbody d hd).2]
  rfl

/-- The declarations in front of a block are read back. -/
theorem BlockBegins.of_scans (hbody : IsBody body) (hds : ∀ d ∈ ds, d.WellFormed)
    (h : Scans (ds.flatMap (Declaration.pieces body) ++ qs) ts) :
    ∃ ts', BlockBegins ts ⟨ds, []⟩ ts' ∧ Scans qs ts' := by
  induction ds generalizing ts with
  | nil => exact ⟨ts, BlockBegins.of_eq rfl, h⟩
  | cons d ds ih =>
    obtain ⟨hd, hds⟩ := List.forall_mem_cons.1 hds
    rw [List.flatMap_cons, List.append_assoc] at h
    have hmark : ∀ m ∈ [';', '}'], d.property.head? ≠ some m ∧ ':' ≠ m := by
      intro m hm
      have hproperty : IsPhrase [';', '}'] d.property := hd.property.mono (by simp)
      refine ⟨fun hp => hproperty.free m (List.mem_of_mem_head? hp) hm, ?_⟩
      rintro rfl
      exact absurd hm (by decide)
    obtain ⟨t, us, hbegins, hus, hitem, -⟩ :=
      h.item true hd.property.tidy (by decide) hd.not_keyword hmark
    obtain ⟨rest, hdecl, hrest⟩ := hus.declaration hbody hd
    obtain ⟨ts', hts', hqs⟩ := ih hds hrest
    have hone : BlockBegins (t :: us) ⟨[d], []⟩ rest := by
      refine ⟨?_, ?_, ?_⟩ <;>
        rw [block_declaration hitem (hus.not_opensBlock hbody hd), hdecl] <;> rfl
    exact ⟨ts', (BlockBegins.trans hbegins hone).trans hts', hqs⟩

end Stylesheet
end Galley
