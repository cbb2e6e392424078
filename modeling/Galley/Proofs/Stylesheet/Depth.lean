/-
# Depth in the tree and depth of braces

The parser does not count braces.  Still the rules stand in the tree as deep as they stand between
braces: before the first token of a rule at depth `d` the braces are open `d` times, where a
closing brace that closes nothing does not count (`braceDepth`).

| construct | braces it reads |
| --- | --- |
| prelude, property, value | none |
| selector inside a block | none |
| selector outside of blocks | closing ones, at depth zero |
| block | its closing one, unless the input ends |

The proof walks through the tokens with the tree at its side.  `Trail d ts hs e us` says of a walk
from tokens `ts` at depth `d` to their ending `us` at depth `e` that it meets the first tokens of
the rules `hs`, in this order and each at its depth.  Trails are put together one after the other,
as the parser calls its routines one after the other; where the input ends inside a block nothing
is left for a later routine, so it does not matter that the depth is wrong there (`Passes`).
-/

import Galley.Proofs.Stylesheet.Skim
import Galley.Proofs.Text.Position
import Galley.Stylesheet.Format

namespace Galley
namespace Stylesheet

/-! ### Depth of braces -/

/-- The depth after a token. -/
def Token.depthAfter (d : Nat) (t : Token) : Nat :=
  if t.isStop ['{'] then d + 1 else if t.isStop ['}'] then d - 1 else d

/-- The depth after some tokens: an opening brace adds one, a closing brace takes one away unless
there is none. -/
def braceDepth (d : Nat) (ts : List Token) : Nat := ts.foldl Token.depthAfter d

variable {d e f : Nat} {t t' : Token} {ts us vs rest : List Token} {stops : Text}

namespace Token

theorem depthAfter_open (h : t.isStop ['{'] = true) : t.depthAfter d = d + 1 := if_pos h

theorem depthAfter_close (h : t.isStop ['}'] = true) : t.depthAfter d = d - 1 := by
  have hopen : t.isStop ['{'] = false := not_isStop_of_isStop h (by simp)
  simp [depthAfter, hopen, h]

theorem depthAfter_other (ho : t.isStop ['{'] = false) (hc : t.isStop ['}'] = false) :
    t.depthAfter d = d := by
  simp [depthAfter, ho, hc]

theorem depthAfter_of_kind (h : t.kind ≠ .punctuation) : t.depthAfter d = d :=
  depthAfter_other (Phrase.isStop_of_kind h) (Phrase.isStop_of_kind h)

/-- At depth zero a closing brace changes nothing. -/
theorem depthAfter_zero (h : t.isStop ['{'] = false) : t.depthAfter 0 = 0 := by
  simp [depthAfter, h]

/-- Outside all blocks the depth stays as it is up to the next opening brace. -/
theorem depthAfter_zero_of_mem {u : Token} (h : u ∈ ts.takeWhile fun u => !u.isStop ['{']) :
    u.depthAfter 0 = 0 :=
  depthAfter_zero (not_isStop_of_mem_takeWhile h)

/-- What is neither brace does not change the depth. -/
theorem depthAfter_of_not_isStop (h : t.isStop ['{', '}'] = false) : t.depthAfter d = d :=
  depthAfter_other (not_isStop_mono (by simp) h) (not_isStop_mono (by simp) h)

/-- A semicolon and a colon do not change the depth. -/
theorem depthAfter_of_isStop {c : Char} (h : t.isStop [c] = true) (ho : c ≠ '{') (hc : c ≠ '}') :
    t.depthAfter d = d :=
  depthAfter_other (not_isStop_of_isStop h (by simpa using ho))
    (not_isStop_of_isStop h (by simpa using hc))

end Token

/-! ### Trails -/

/-- Whether a rule begins with a token in front of others: an at-rule with its keyword, a style
rule with the first token of its selector, or with its brace if the selector is empty. -/
structure Rule.HeadedBy (r : Rule) (t : Token) (ts : List Token) : Prop where
  position : r.position = t.position
  head :
    match r with
    | .comment _ _ => False
    | .statement k _ _ => t.kind = .atKeyword ∧ t.text = k
    | .group k _ _ _ _ => t.kind = .atKeyword ∧ t.text = k
    | .style s _ _ _ =>
      t.kind ≠ .whitespace ∧ t.kind ≠ .comment ∧ (selectorPhrase (t :: ts)).text = s ∧
        (s ≠ [] → t.text <+: s)

/-- A walk from tokens at a depth to an ending of them at a depth, and the rules whose first tokens
it meets, each with the depth there. -/
inductive Trail : Nat → List Token → List (Nat × Rule) → Nat → List Token → Prop
  | here (d : Nat) (ts : List Token) : Trail d ts [] d ts
  | pass {d e : Nat} {t : Token} {ts us : List Token} {hs : List (Nat × Rule)} :
    Trail (t.depthAfter d) ts hs e us → Trail d (t :: ts) hs e us
  | meet {d e : Nat} {t : Token} {ts us : List Token} {hs : List (Nat × Rule)} {r : Rule} :
    r.HeadedBy t ts → Trail (t.depthAfter d) ts hs e us → Trail d (t :: ts) ((d, r) :: hs) e us

variable {hs hs' : List (Nat × Rule)}

namespace Trail

theorem trans (h : Trail d ts hs e us) (h' : Trail e us hs' f vs) :
    Trail d ts (hs ++ hs') f vs := by
  induction h with
  | here d ts => exact h'
  | pass _ ih => exact .pass (ih h')
  | meet hr _ ih => exact .meet hr (ih h')

/-- A walk may leave the rules unnoticed. -/
theorem forget (h : Trail d ts hs e us) : Trail d ts [] e us := by
  induction h with
  | here d ts => exact .here d ts
  | pass _ ih => exact .pass ih
  | meet _ _ ih => exact .pass ih

/-- A walk over tokens that do not change the depth. -/
theorem level (h : ∀ t ∈ us, t.depthAfter d = d) (ts : List Token) :
    Trail d (us ++ ts) [] d ts := by
  induction us with
  | nil => exact .here d ts
  | cons t us ih =>
    obtain ⟨ht, hus⟩ := List.forall_mem_cons.1 h
    exact .pass (by rw [ht]; exact ih hus)

/-- A walk to the end. -/
theorem toEnd (d : Nat) (ts : List Token) : ∃ e, Trail d ts [] e [] := by
  induction ts generalizing d with
  | nil => exact ⟨d, .here d []⟩
  | cons t ts ih =>
    obtain ⟨e, h⟩ := ih (t.depthAfter d)
    exact ⟨e, .pass h⟩

/-- At the end there is nothing to meet. -/
theorem eq_nil (h : Trail d [] hs e us) : hs = [] ∧ us = [] := by
  cases h
  exact ⟨rfl, rfl⟩

/-- **A rule that a walk meets** begins with a token of the walk, and its depth is that of the braces
before it. -/
theorem exists_of_mem (h : Trail d ts hs e us) {x : Nat × Rule} (hx : x ∈ hs) :
    ∃ before t after, ts = before ++ t :: after ∧ x.2.HeadedBy t after ∧
      x.1 = braceDepth d before := by
  induction h with
  | here d ts => simp at hx
  | @pass d e t ts us hs _ ih =>
    obtain ⟨before, u, after, hts, hu, hd⟩ := ih hx
    exact ⟨t :: before, u, after, by rw [hts]; rfl, hu, hd⟩
  | @meet d e t ts us hs r hr _ ih =>
    rcases List.mem_cons.1 hx with rfl | hx
    · exact ⟨[], t, ts, rfl, hr, rfl⟩
    · obtain ⟨before, u, after, hts, hu, hd⟩ := ih hx
      exact ⟨t :: before, u, after, by rw [hts]; rfl, hu, hd⟩

/-- The places of the rules are among those of the tokens, in the same order. -/
theorem positions_sublist (h : Trail d ts hs e us) :
    (hs.map fun x => x.2.position).Sublist (ts.map Token.position) := by
  induction h with
  | here d ts => exact List.nil_sublist _
  | pass _ ih => exact ih.cons _
  | meet hr _ ih =>
    rw [List.map_cons, List.map_cons, hr.position]
    exact ih.cons_cons _

end Trail

/-- Whether there is a walk that ends at a depth, unless nothing is left at its end. -/
def Passes (d e : Nat) (ts : List Token) (hs : List (Nat × Rule)) (us : List Token) : Prop :=
  ∃ f, Trail d ts hs f us ∧ (us ≠ [] → f = e)

theorem Trail.passes (h : Trail d ts hs e us) : Passes d e ts hs us := ⟨e, h, fun _ => rfl⟩

namespace Passes

theorem trans (h : Passes d e ts hs us) (h' : Passes e f us hs' vs) :
    Passes d f ts (hs ++ hs') vs := by
  obtain ⟨e', h, he⟩ := h
  obtain ⟨f', h', hf⟩ := h'
  cases us with
  | nil =>
    obtain ⟨rfl, rfl⟩ := h'.eq_nil
    exact ⟨e', by rwa [List.append_nil], by simp⟩
  | cons u us =>
    obtain rfl := he (List.cons_ne_nil u us)
    exact ⟨f', h.trans h', hf⟩

theorem pass (ht : t.depthAfter d = d) (h : Passes d e ts hs us) : Passes d e (t :: ts) hs us := by
  obtain ⟨f, h, hf⟩ := h
  exact ⟨f, .pass (by rwa [ht]), hf⟩

end Passes

/-! ### Phrases -/

/-- **What is read over without braces** is passed at the same depth. -/
theorem Skims.trail {cs : List Rule} (h : Skims ['{', '}'] ts us cs) (d : Nat) :
    Trail d ts [] d us := by
  obtain ⟨read, rfl, -, hread⟩ := h
  exact Trail.level (fun t ht => Token.depthAfter_of_not_isStop (hread t ht)) us

/-- A brace opens a block. -/
theorem Trail.brace (ho : t.isStop ['{'] = true) (ts : List Token) :
    Trail d (t :: ts) [] (d + 1) ts :=
  .pass (by rw [Token.depthAfter_open ho]; exact .here (d + 1) ts)

/-- In front of the brace of a nested rule the depth does not change. -/
theorem Lexed.level_of_opensBlock (h : Lexed ts) (ho : opensBlock ts = true) (d : Nat) :
    ∀ u ∈ ts.takeWhile fun u => !u.isStop ['{'], u.depthAfter d = d := by
  intro u hu
  have hopen : u.isStop ['{'] = false := Token.not_isStop_of_mem_takeWhile hu
  have hclose : u.isStop ['}'] = false :=
    Token.not_isStop_mono (by simp) (not_end_of_opensBlock h ho u hu)
  exact Token.depthAfter_other hopen hclose

/-- **A selector is passed** behind its first token, and its brace with it. -/
theorem Trail.selector
    (h : ∀ u ∈ (t :: ts).takeWhile fun u => !u.isStop ['{'], u.depthAfter d = d)
    (hr : (selectorPhrase (t :: ts)).rest = t' :: rest) :
    Trail (t.depthAfter d) ts [] (d + 1) rest := by
  have hopen : t'.isStop ['{'] = true := Phrase.isStop_head_rest t' (by rw [hr]; rfl)
  rw [selectorPhrase, Phrase.read, Phrase.rest_readFrom] at hr
  have hsplit := List.takeWhile_append_dropWhile (p := fun u : Token => !u.isStop ['{'])
    (l := t :: ts)
  rw [hr] at hsplit
  cases hus : (t :: ts).takeWhile fun u => !u.isStop ['{'] with
  | nil =>
    -- the selector is empty, and the first token is the brace
    rw [hus, List.nil_append] at hsplit
    obtain ⟨rfl, rfl⟩ := List.cons.inj hsplit
    rw [Token.depthAfter_open hopen]
    exact .here (d + 1) rest
  | cons u us =>
    rw [hus] at h hsplit
    obtain ⟨rfl, rfl⟩ := List.cons.inj hsplit
    obtain ⟨hu, hus⟩ := List.forall_mem_cons.1 h
    rw [hu]
    exact (Trail.level hus _).trans (Trail.brace hopen rest)

/-- A selector begins with its first token, unless that is the brace. -/
theorem text_isPrefix_selectorPhrase (hw : t.kind ≠ .whitespace) (hc : t.kind ≠ .comment)
    (hne : (selectorPhrase (t :: ts)).text ≠ []) : t.text <+: (selectorPhrase (t :: ts)).text := by
  rw [selectorPhrase, Phrase.read] at hne ⊢
  cases hs : t.isStop ['{'] with
  | true => exact absurd (by rw [Phrase.readFrom_stop hs]) hne
  | false =>
    rw [Phrase.readFrom_piece hs hc hw]
    exact List.prefix_append _ _

/-! ### Routines -/

/-- **The routines meet the rules that they return**, at the depth at which they return them. -/
theorem routines_passes :
    (∀ ts, Lexed ts → ∀ d, Passes (d + 1) d ts
        (Rule.headings (d + 1) (block ts).1.value.rules) (block ts).1.rest) ∧
      (∀ t ts, Lexed (t :: ts) → t.kind = .atKeyword → ∀ d, Passes d d (t :: ts)
        (Rule.headings d ((atRule t ts).1.siblings ++ [(atRule t ts).1.value]))
        (atRule t ts).1.rest) ∧
      ∀ t ts, Lexed (t :: ts) → t.kind ≠ .whitespace → t.kind ≠ .comment → ∀ d,
        (∀ u ∈ (t :: ts).takeWhile fun u => !u.isStop ['{'], u.depthAfter d = d) →
        Passes d d (t :: ts)
          (Rule.headings d ((styleRule t ts).1.siblings ++ (styleRule t ts).1.value.toList))
          (styleRule t ts).1.rest := by
  apply routines_induction
  case nil =>
    intro _ d
    rw [block_nil]
    exact ⟨d + 1, .here (d + 1) [], by simp⟩
  case blank =>
    intro t ts hk ih h d
    rw [block_blank hk]
    exact (ih h.tail d).pass (Token.depthAfter_of_kind (by simp [hk]))
  case comment =>
    intro t ts hk ih h d
    rw [block_comment hk]
    exact (ih h.tail d).pass (Token.depthAfter_of_kind (by simp [hk]))
  case close =>
    intro t ts hc h d
    rw [h.head.isAmong_eq] at hc
    rw [block_close (by rwa [h.head.isAmong_eq])]
    have hdepth : t.depthAfter (d + 1) = d := Token.depthAfter_close hc
    exact Trail.passes (.pass (by rw [hdepth]; exact .here d ts))
  case semicolon =>
    intro t ts hc hs ih h d
    rw [block_semicolon hc hs]
    rw [h.head.isAmong_eq] at hs
    exact (ih h.tail d).pass (Token.depthAfter_of_isStop hs (by decide) (by decide))
  case keyword =>
    intro t ts hk ihA ih h d
    have hrest : Lexed (atRule t ts).1.rest := h.tail.of_suffix (routines_suffix.2.1 t ts)
    rw [block_atRule hk]
    have hpasses := (ihA h hk (d + 1)).trans (ih hrest d)
    rwa [← Rule.headings_append] at hpasses
  case nested =>
    intro t ts hs ho ihS ih h d
    have hrest : Lexed (styleRule t ts).1.rest := h.tail.of_suffix (routines_suffix.2.2 t ts)
    rw [block_styleRule hs ho]
    have hpasses := (ihS h hs.not_blank hs.not_comment (d + 1) (h.level_of_opensBlock ho _)).trans
      (ih hrest d)
    rwa [← Rule.headings_append] at hpasses
  case item =>
    intro t ts hs ho ih h d
    have hrest : Lexed (declaration (t :: ts)).rest := h.of_suffix (declaration_suffix _)
    have hdecl := Skims.declaration h ho
    rw [block_declaration hs ho]
    have hpasses := (hdecl.trail (d + 1)).passes.trans (ih hrest d)
    simpa [Block.withDeclaration, Block.withRules, hdecl.headings_eq_nil] using hpasses
  case statement =>
    intro t ts hs h hk d
    have hprelude := Skims.prelude ts
    have hrest : Lexed (preludePhrase ts).rest := h.tail.of_suffix hprelude.suffix
    have hbehind : Trail (t.depthAfter d) ts [] d (skipSemicolon (preludePhrase ts).rest) := by
      rw [Token.depthAfter_of_kind (by simp [hk])]
      exact (hprelude.trans (Skims.skipSemicolon hrest (by simp))).trail d
    rw [atRule_statement hs]
    have hrule : Trail d (t :: ts)
        [(d, .statement t.text (preludePhrase ts).text t.position)] d _ :=
      .meet ⟨rfl, hk, rfl⟩ hbehind
    simpa [hprelude.headings_eq_nil] using hrule.passes
  case group =>
    intro t ts u rest hr hu ih h hk d
    have hprelude := Skims.prelude ts
    rw [hr] at hprelude
    have hl : Lexed (u :: rest) := h.tail.of_suffix hprelude.suffix
    have hopen : u.isStop ['{'] = true := by rwa [← hl.head.isAmong_eq]
    have hbehind : Trail (t.depthAfter d) ts [] (d + 1) rest := by
      rw [Token.depthAfter_of_kind (by simp [hk])]
      exact (hprelude.trail d).trans (Trail.brace hopen rest)
    rw [atRule_group hr hu]
    have hrule : Trail d (t :: ts)
        [(d, .group t.text (preludePhrase ts).text (block rest).1.value.declarations
          ((preludePhrase ts).comments ++ (block rest).1.value.rules) t.position)] (d + 1) rest :=
      .meet ⟨rfl, hk, rfl⟩ hbehind
    simpa [hprelude.headings_eq_nil] using hrule.passes.trans (ih hl.tail d)
  case unopened =>
    intro t ts hr h hw hc d hlevel
    obtain ⟨e, htrail⟩ := Trail.toEnd d (t :: ts)
    have hselector := Skims.selector (t :: ts)
    rw [styleRule_unopened hr]
    exact ⟨e, by simpa [hselector.headings_eq_nil] using htrail, by simp⟩
  case opened =>
    intro t ts u rest hr ih h hw hc d hlevel
    have hrest : Lexed rest := h.of_suffix ((List.suffix_cons u rest).trans
      (hr ▸ Phrase.read_suffix _ _))
    have hselector := Skims.selector (t :: ts)
    have hbehind := Trail.selector hlevel hr
    have hblock := ih hrest d
    cases hs : isShell (selectorPhrase (t :: ts)).text (block rest).1.value with
    | true =>
      obtain ⟨e, htrail, he⟩ := hblock
      rw [styleRule_shell hr hs]
      exact ⟨e, by simpa [hselector.headings_eq_nil] using (hbehind.trans htrail.forget).pass, he⟩
    | false =>
      rw [styleRule_kept hr hs]
      have hrule : Trail d (t :: ts)
          [(d, .style (selectorPhrase (t :: ts)).text (block rest).1.value.declarations
            (block rest).1.value.rules t.position)] (d + 1) rest :=
        .meet ⟨rfl, hw, hc, rfl, text_isPrefix_selectorPhrase hw hc⟩ hbehind
      simpa [hselector.headings_eq_nil] using hrule.passes.trans hblock

/-! ### Sheets -/

/-- **The parser meets the rules that it returns**, each at its depth. -/
theorem parse_passes (h : Lexed ts) : Passes 0 0 ts (Rule.headings 0 (parse ts)) [] := by
  induction ts using parse_induction with
  | nil =>
    rw [parse_nil]
    exact (Trail.here 0 []).passes
  | blank t ts hk ih =>
    rw [parse_blank hk]
    exact (ih h.tail).pass (Token.depthAfter_of_kind (by simp [hk]))
  | comment t ts hk ih =>
    rw [parse_comment hk]
    exact (ih h.tail).pass (Token.depthAfter_of_kind (by simp [hk]))
  | stray t ts hs ih =>
    have hopen : t.isStop ['{'] = false := by
      rw [h.head.isAmong_eq] at hs
      exact Token.not_isStop_of_isStop hs (by simp)
    rw [parse_stray hs]
    exact (ih h.tail).pass (Token.depthAfter_zero hopen)
  | keyword t ts hk ih =>
    have hrest : Lexed (atRule t ts).1.rest := h.tail.of_suffix (routines_suffix.2.1 t ts)
    have hpasses := (routines_passes.2.1 t ts h hk 0).trans (ih hrest)
    rw [parse_atRule hk, List.append_cons, Rule.headings_append]
    exact hpasses
  | rule t ts hs ih =>
    have hrest : Lexed (styleRule t ts).1.rest := h.tail.of_suffix (routines_suffix.2.2 t ts)
    have hpasses := (routines_passes.2.2 t ts h hs.not_blank hs.not_comment 0
      fun _ => Token.depthAfter_zero_of_mem).trans (ih hrest)
    rw [parse_styleRule hs, Rule.headings_append]
    exact hpasses

/-- Tokens of a text stand at later and later places. -/
theorem pairwise_position_scanFrom (p : Position) (t : Text) :
    ((Token.scanFrom p t).map Token.position).Pairwise Position.Before := by
  refine List.isChain_iff_pairwise.1 ?_
  induction hn : t.length using Nat.strongRecOn generalizing p t with
  | ind n ih =>
    cases t with
    | nil => simp
    | cons c cs =>
      subst hn
      have hrest := ih _ (Nat.lt_succ_of_le (length_cutLexeme_le c cs))
        (p.advance (cutLexeme c cs).2.1) (cutLexeme c cs).2.2 rfl
      rw [Token.scanFrom_cons, List.map_cons]
      cases hr : (cutLexeme c cs).2.2 with
      | nil => simp
      | cons d ds =>
        rw [hr, Token.scanFrom_cons, List.map_cons] at hrest
        rw [Token.scanFrom_cons, List.map_cons]
        exact .cons_cons (p.before_advance (cutLexeme_ne_nil c cs)) hrest

/-- **Depth in the tree is depth of braces.**  Every style rule and every at-rule of a text begins
with a token of the text and has its place; as many blocks are around the rule in the tree as braces
are open before the token; and in the order of the walk the places are later and later. -/
theorem headings_rulesOf (source : Text) :
    (∀ x ∈ Rule.headings 0 (rulesOf source), ∃ before t after,
        Token.scan source = before ++ t :: after ∧ x.2.HeadedBy t after ∧
          x.1 = braceDepth 0 before) ∧
      ((Rule.headings 0 (rulesOf source)).map fun x => x.2.position).Pairwise
        Position.Before := by
  obtain ⟨e, htrail, -⟩ := parse_passes (Lexed.scanFrom .start source)
  exact ⟨fun x hx => htrail.exists_of_mem hx,
    (pairwise_position_scanFrom .start source).sublist htrail.positions_sublist⟩

end Stylesheet
end Galley
