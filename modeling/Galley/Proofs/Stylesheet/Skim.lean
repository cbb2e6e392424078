/-
# What is read over

Outside of the routines that call each other the parser only reads phrases: preludes, selectors,
properties and values, with a colon or a semicolon behind them.  It returns the comments that it
reads over, and it reads over no mark that stops it.

`Skims marks ts us cs` says so of the way from tokens `ts` to their ending `us`: none of the `marks`
is read over, and `cs` are the comments.  Ways are put together one after the other
(`Skims.trans`).  A declaration in which no brace opens a block reads over no brace at all
(`Skims.declaration`).
-/

import Galley.Proofs.Stylesheet.Preorder

namespace Galley
namespace Stylesheet

/-- Whether the way from tokens to an ending of them reads over none of some marks and over the
given comments. -/
def Skims (marks : Text) (ts us : List Token) (cs : List Rule) : Prop :=
  ∃ read, ts = read ++ us ∧ Token.comments read = cs ∧ ∀ t ∈ read, t.isStop marks = false

namespace Skims

variable {marks marks' stops : Text} {t : Token} {ts us vs : List Token} {cs cs' : List Rule}

theorem refl (marks : Text) (ts : List Token) : Skims marks ts ts [] := ⟨[], rfl, rfl, by simp⟩

/-- **Ways are put together.** -/
theorem trans (h : Skims marks ts us cs) (h' : Skims marks us vs cs') :
    Skims marks ts vs (cs ++ cs') := by
  obtain ⟨read, rfl, rfl, hread⟩ := h
  obtain ⟨read', rfl, rfl, hread'⟩ := h'
  refine ⟨read ++ read', (List.append_assoc ..).symm, Token.comments_append, fun t ht => ?_⟩
  exact (List.mem_append.1 ht).elim (hread t) (hread' t)

theorem mono (h : Skims marks ts us cs) (hs : ∀ c ∈ marks', c ∈ marks) :
    Skims marks' ts us cs := by
  obtain ⟨read, hts, hcs, hread⟩ := h
  exact ⟨read, hts, hcs, fun t ht => Token.not_isStop_mono hs (hread t ht)⟩

/-- A token that is neither a comment nor one of the marks is read over. -/
theorem single (hk : t.kind ≠ .comment) (hs : t.isStop marks = false) (ts : List Token) :
    Skims marks (t :: ts) ts [] :=
  ⟨[t], rfl, by simp [Token.comments, hk], by simpa using hs⟩

/-! ### What the way tells -/

theorem suffix (h : Skims marks ts us cs) : us <:+ ts := by
  obtain ⟨read, rfl, -⟩ := h
  exact List.suffix_append read us

/-- The comments are those read over and those that are left. -/
theorem comments (h : Skims marks ts us cs) : Token.comments ts = cs ++ Token.comments us := by
  obtain ⟨read, rfl, rfl, -⟩ := h
  exact Token.comments_append

/-- A mark that is not read over is left. -/
theorem count (h : Skims marks ts us cs) :
    ts.countP (Token.isStop marks) = us.countP (Token.isStop marks) := by
  obtain ⟨read, rfl, -, hread⟩ := h
  have hnone : read.countP (Token.isStop marks) = 0 :=
    List.countP_eq_zero.2 fun t ht => by simp [hread t ht]
  rw [List.countP_append, hnone, Nat.zero_add]

/-- Comments that are read over have nothing in them. -/
theorem headings_eq_nil (h : Skims marks ts us cs) (depth : Nat) :
    Rule.headings depth cs = [] := by
  obtain ⟨read, -, rfl, -⟩ := h
  exact Token.headings_comments depth

theorem comments_eq (h : Skims marks ts us cs) : Rule.comments cs = cs := by
  obtain ⟨read, -, rfl, -⟩ := h
  exact Token.comments_comments

theorem blockCount_eq_zero (h : Skims marks ts us cs) : Rule.blockCount cs = 0 := by
  obtain ⟨read, -, rfl, -⟩ := h
  exact Token.blockCount_comments

/-! ### Phrases -/

/-- **A phrase** is read over if the marks are not among its tokens. -/
theorem read (h : ∀ t ∈ ts.takeWhile fun t => !t.isStop stops, t.isStop marks = false) :
    Skims marks ts (Phrase.read stops ts).rest (Phrase.read stops ts).comments := by
  refine ⟨_, ?_, (Phrase.comments_read stops ts).symm, h⟩
  rw [Phrase.read, Phrase.rest_readFrom, List.takeWhile_append_dropWhile]

/-- A phrase that the marks stop is read over. -/
theorem read_of_stops (h : ∀ c ∈ marks, c ∈ stops) (ts : List Token) :
    Skims marks ts (Phrase.read stops ts).rest (Phrase.read stops ts).comments := by
  refine read fun t ht => ?_
  have hstop : t.isStop stops = false := Token.not_isStop_of_mem_takeWhile ht
  exact Token.not_isStop_mono h hstop

theorem prelude (ts : List Token) :
    Skims ['{', '}'] ts (preludePhrase ts).rest (preludePhrase ts).comments :=
  read_of_stops (by simp) ts

/-- A selector may have closing braces in it. -/
theorem selector (ts : List Token) :
    Skims ['{'] ts (selectorPhrase ts).rest (selectorPhrase ts).comments :=
  read_of_stops (by simp) ts

/-- A phrase of an item in which no brace opens a block is read over. -/
theorem read_item (h : Lexed ts) (ho : opensBlock ts = false) (hs : ∀ c ∈ [';', '}'], c ∈ stops) :
    Skims ['{', '}'] ts (Phrase.read stops ts).rest (Phrase.read stops ts).comments := by
  refine read fun t ht => ?_
  have hstop : t.isStop stops = false := Token.not_isStop_of_mem_takeWhile ht
  have hopen : t.isStop ['{'] = false := (not_open_of_opensBlock h ho hs).1 t ht
  have hclose : t.isStop ['}'] = false := Token.not_isStop_mono (by simpa using hs '}') hstop
  rw [Token.isStop_cons, hopen, hclose]
  rfl

/-! ### Declarations -/

/-- A mark in front is read over if it is not one of those that must not be. -/
theorem tail {c : Char} (h : Lexed ts) (hc : Token.headIsAmong [c] ts = true) (hm : c ∉ marks) :
    Skims marks ts ts.tail [] := by
  cases ts with
  | nil => exact refl marks []
  | cons t ts =>
    rw [Token.headIsAmong, h.head.isAmong_eq] at hc
    exact single (by simp [(Token.isStop_iff.1 hc).1])
      (Token.not_isStop_of_isStop hc (by simpa using hm)) ts

theorem skipSemicolon (h : Lexed ts) (hm : ';' ∉ marks) :
    Skims marks ts (skipSemicolon ts) [] := by
  unfold Stylesheet.skipSemicolon
  split
  · rename_i hc
    exact tail h hc hm
  · exact refl marks ts

/-- **A declaration is read over** where no brace opens a block. -/
theorem declaration (h : Lexed ts) (ho : opensBlock ts = false) :
    Skims ['{', '}'] ts (declaration ts).rest (declaration ts).siblings := by
  have hname : Skims ['{', '}'] ts (propertyPhrase ts).rest (propertyPhrase ts).comments :=
    read_item h ho (by simp)
  have hrest : Lexed (propertyPhrase ts).rest := h.of_suffix hname.suffix
  cases hc : Token.headIsAmong [':'] (propertyPhrase ts).rest with
  | true =>
    have hcolon : Skims ['{', '}'] (propertyPhrase ts).rest (propertyPhrase ts).rest.tail [] :=
      tail hrest hc (by simp)
    have htail : Lexed (propertyPhrase ts).rest.tail := hrest.of_suffix hcolon.suffix
    have hvalue : Skims ['{', '}'] (propertyPhrase ts).rest.tail
        (valuePhrase (propertyPhrase ts).rest.tail).rest
        (valuePhrase (propertyPhrase ts).rest.tail).comments :=
      read_item htail (not_opensBlock_value h ho hc) (by simp)
    have hall := ((hname.trans hcolon).trans hvalue).trans
      (skipSemicolon (htail.of_suffix hvalue.suffix) (by simp))
    rw [declaration_colon hc]
    rwa [List.append_nil, List.append_nil] at hall
  | false =>
    have hall := hname.trans (skipSemicolon hrest (by simp))
    rw [declaration_bare hc]
    rwa [List.append_nil] at hall

end Skims

end Stylesheet
end Galley
