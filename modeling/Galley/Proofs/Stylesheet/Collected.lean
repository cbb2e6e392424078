/-
# What a phrase is made of

A phrase goes from a place among the tokens to the first punctuation token whose text is one of some
marks, or to the end.  White space and comments between these two places are gaps, and what stands
between the gaps are runs of tokens.

| part of the phrase | what it is |
| --- | --- |
| text | the texts of the runs, with single spaces between them |
| comments | those of the comment tokens, in order |
| next token | the first mark |

The reader goes token by token and keeps in mind whether it has met a run and whether it has passed
a gap since (`collectFrom`).  Its text is told by cutting the tokens at their gaps instead
(`text_collectFrom`).  Nothing is asked of the tokens: their texts may be empty or hold blanks, and
their kinds need not fit their texts.
-/

import Galley.Proofs.Stylesheet.Cursor
import Galley.Proofs.Text.Words

namespace Galley
namespace Stylesheet

variable {marks : List Text} {t : Token} {ts rest : List Token}

namespace Token

/-- Whether the first of some marks from a place on stands at another place, or there is none and
that place is the end. -/
structure FirstMark (marks : List Text) (tokens : List Token) (pos stop : Nat) : Prop where
  le : pos ≤ stop
  le_length : stop ≤ tokens.length
  before : ∀ i, pos ≤ i → i < stop → ∀ t ∈ tokens[i]?, t.isMark marks = false
  at_stop : ∀ t ∈ tokens[stop]?, t.isMark marks = true

/-- The texts of tokens, put together. -/
def texts (ts : List Token) : Text := ts.flatMap text

/-- The first mark stands behind tokens that are none, if one stands there or nothing does. -/
theorem FirstMark.of_drop_eq {tokens : List Token} {pos : Nat} (h : pos ≤ tokens.length)
    (hdrop : tokens.drop pos = ts ++ rest) (hts : ∀ t ∈ ts, t.isMark marks = false)
    (hrest : ∀ t ∈ rest.head?, t.isMark marks = true) :
    FirstMark marks tokens pos (pos + ts.length) := by
  have hlength := congrArg List.length hdrop
  rw [List.length_append, List.length_drop] at hlength
  refine ⟨Nat.le_add_right .., by omega, fun i hi hstop t ht => ?_, fun t ht => ?_⟩
  · obtain ⟨j, rfl⟩ := Nat.exists_eq_add_of_le hi
    rw [← List.getElem?_drop, hdrop, List.getElem?_append_left (by omega)] at ht
    exact hts t (List.mem_of_getElem? ht)
  · rw [← List.getElem?_drop, hdrop, List.getElem?_append_right (Nat.le_refl _), Nat.sub_self,
      ← List.head?_eq_getElem?] at ht
    exact hrest t ht

/-- Among any tokens the first mark can be found, or there is none. -/
theorem exists_firstMark (marks : List Text) (us : List Token) :
    ∃ ts rest, us = ts ++ rest ∧ (∀ t ∈ ts, t.isMark marks = false) ∧
      ∀ t ∈ rest.head?, t.isMark marks = true := by
  obtain ⟨heq, hts, hrest⟩ := (run_iff (p := fun t : Token => !t.isMark marks)).1 ⟨rfl, rfl⟩
  exact ⟨_, _, heq, by simpa using hts, by simpa using hrest⟩

end Token

open Token (isGap texts)

namespace Phrase

/-! ### The text -/

theorem text_collectFrom_gap (h : t.isGap = true) (started gap : Bool) (ts : List Token) :
    (collectFrom marks started gap (t :: ts)).text =
      (collectFrom marks started started ts).text := by
  have hkind : t.kind = .whitespace ∨ t.kind = .comment := by simpa [isGap] using h
  rcases hkind with hw | hc
  · rw [collectFrom_blank hw]
  · rw [collectFrom_comment hc]

theorem text_collectFrom_piece (hm : t.isMark marks = false) (hg : t.isGap = false)
    (started gap : Bool) (ts : List Token) :
    (collectFrom marks started gap (t :: ts)).text =
      (if gap then [' '] else []) ++ t.text ++ (collectFrom marks true false ts).text := by
  have hkind : t.kind ≠ .whitespace ∧ t.kind ≠ .comment := by simpa [isGap] using hg
  rw [collectFrom_piece hm hkind.2 hkind.1]

/-- Inside a run the texts are put together as they are. -/
theorem text_collectFrom_run {run : List Token} (hm : ∀ t ∈ run, t.isMark marks = false)
    (hg : ∀ t ∈ run, t.isGap = false) (rest : List Token) :
    (collectFrom marks true false (run ++ rest)).text =
      texts run ++ (collectFrom marks true false rest).text := by
  induction run with
  | nil => rfl
  | cons t run ih =>
    obtain ⟨htm, hm⟩ := List.forall_mem_cons.1 hm
    obtain ⟨htg, hg⟩ := List.forall_mem_cons.1 hg
    rw [List.cons_append, text_collectFrom_piece htm htg, ih hm hg]
    simp [texts]

/-- A run that begins behind a gap has a space before it. -/
theorem text_collectFrom_new_run {run : List Token} (hne : run ≠ [])
    (hm : ∀ t ∈ run, t.isMark marks = false) (hg : ∀ t ∈ run, t.isGap = false)
    (started gap : Bool) (rest : List Token) :
    (collectFrom marks started gap (run ++ rest)).text =
      (if gap then [' '] else []) ++ texts run ++ (collectFrom marks true false rest).text := by
  obtain ⟨t, run, rfl⟩ := List.exists_cons_of_ne_nil hne
  obtain ⟨htm, hm⟩ := List.forall_mem_cons.1 hm
  obtain ⟨htg, hg⟩ := List.forall_mem_cons.1 hg
  rw [List.cons_append, text_collectFrom_piece htm htg, text_collectFrom_run hm hg]
  simp [texts]

/-- **The text of a phrase is that of its runs with single spaces between them**; where a run has
been met before, a space comes before every run. -/
theorem text_collectFrom (hts : ∀ t ∈ ts, t.isMark marks = false)
    (hrest : ∀ t ∈ rest.head?, t.isMark marks = true) :
    (collectFrom marks false false (ts ++ rest)).text =
        Text.join [' '] ((runs isGap ts).map texts) ∧
      (collectFrom marks true true (ts ++ rest)).text =
        Text.spaced ((runs isGap ts).map texts) := by
  have hstop : ∀ started gap, (collectFrom marks started gap rest).text = [] := by
    intro started gap
    cases rest with
    | nil => rfl
    | cons t us => rw [collectFrom_mark (hrest t rfl)]
  induction ts using @runs_induction _ isGap with
  | run run hrun =>
    rw [runs_of_forall hrun]
    by_cases hne : run = []
    · subst hne
      exact ⟨hstop false false, hstop true true⟩
    · rw [if_neg hne, text_collectFrom_new_run hne hts hrun, text_collectFrom_new_run hne hts hrun,
        hstop]
      simp [Text.join, Text.spaced]
  | cut run g ts hrun hg ih =>
    obtain ⟨hm, hgts⟩ := List.forall_mem_append.1 hts
    obtain ⟨ihjoin, ihspaced⟩ := ih (List.forall_mem_cons.1 hgts).2
    rw [runs_append_gap hg, runs_of_forall hrun, List.append_assoc, List.cons_append]
    by_cases hne : run = []
    · subst hne
      rw [if_pos rfl, List.nil_append, List.nil_append, text_collectFrom_gap hg,
        text_collectFrom_gap hg]
      exact ⟨ihjoin, ihspaced⟩
    · rw [if_neg hne, text_collectFrom_new_run hne hm hrun, text_collectFrom_new_run hne hm hrun,
        text_collectFrom_gap hg, ihspaced, List.singleton_append, List.map_cons, Text.join_cons]
      simp [Text.spaced]

/-! ### The phrase at a place -/

/-- What is read from tokens before the first mark. -/
theorem collect_append (hts : ∀ t ∈ ts, t.isMark marks = false)
    (hrest : ∀ t ∈ rest.head?, t.isMark marks = true) :
    collect marks (ts ++ rest) =
      ⟨Text.join [' '] ((runs isGap ts).map texts),
        (ts.filter fun t => t.kind = .comment).map Token.toComment,
        (ts.filter fun t => t.kind = .comment).flatMap Token.commentNotes, rest⟩ := by
  obtain ⟨htaken, hleft⟩ := (run_iff (p := fun t : Token => !t.isMark marks)).2
    ⟨rfl, by simpa using hts, by simpa using hrest⟩
  have hcomments := @comments_collectFrom marks false false (ts ++ rest)
  rw [htaken] at hcomments
  calc collect marks (ts ++ rest)
      = ⟨(collectFrom marks false false (ts ++ rest)).text,
          (collectFrom marks false false (ts ++ rest)).comments,
          (collectFrom marks false false (ts ++ rest)).notes,
          (collectFrom marks false false (ts ++ rest)).rest⟩ := rfl
    _ = _ := by
      rw [(text_collectFrom hts hrest).1, hcomments.1, hcomments.2, rest_collectFrom, hleft]

/-- **What a phrase is made of.**  From any place among any tokens, and whatever the marks, it goes
to the first mark or to the end; its text is that of the runs of tokens that are neither white space
nor comments, with single spaces between them, and its comments are those of the comment tokens. -/
theorem collect_landing (marks : List Text) (tokens : List Token) {pos : Nat}
    (h : pos ≤ tokens.length) :
    ∃ stop, Token.FirstMark marks tokens pos stop ∧
      (collect marks (tokens.drop pos)).landing tokens =
        ⟨Text.join [' '] ((runs isGap (tokens.extract pos stop)).map texts),
          ((tokens.extract pos stop).filter fun t => t.kind = .comment).map Token.toComment,
          ((tokens.extract pos stop).filter fun t => t.kind = .comment).flatMap
            Token.commentNotes,
          stop⟩ := by
  obtain ⟨ts, rest, hdrop, hts, hrest⟩ := Token.exists_firstMark marks (tokens.drop pos)
  have hextract : tokens.extract pos (pos + ts.length) = ts := by
    rw [List.extract, Nat.add_sub_cancel_left, hdrop, List.take_left]
  have hnext : tokens.length - rest.length = pos + ts.length := by
    have hlength := congrArg List.length hdrop
    rw [List.length_append, List.length_drop] at hlength
    omega
  refine ⟨pos + ts.length, .of_drop_eq h hdrop hts hrest, ?_⟩
  rw [hextract, hdrop, collect_append hts hrest, landing, hnext]

/-- Marks of two characters, an empty token between gaps, comments with and without an end mark, and
a text that looks like a mark. -/
theorem collect_landing_odd :
    let tokens : List Token :=
      [⟨.text, "x".toList, ⟨1, 1⟩⟩, ⟨.whitespace, " ".toList, ⟨1, 2⟩⟩, ⟨.text, "a".toList, ⟨1, 3⟩⟩,
        ⟨.punctuation, ":".toList, ⟨1, 4⟩⟩, ⟨.comment, "/*c".toList, ⟨1, 5⟩⟩,
        ⟨.comment, "/**/".toList, ⟨1, 8⟩⟩, ⟨.text, [], ⟨1, 12⟩⟩, ⟨.whitespace, [], ⟨1, 12⟩⟩,
        ⟨.atKeyword, "@b".toList, ⟨1, 12⟩⟩, ⟨.text, "\x7b;".toList, ⟨1, 14⟩⟩,
        ⟨.punctuation, "\x7b".toList, ⟨1, 16⟩⟩, ⟨.punctuation, "\x7b;".toList, ⟨1, 17⟩⟩,
        ⟨.text, "y".toList, ⟨1, 19⟩⟩]
    let marks := ["\x7d".toList, "\x7b;".toList]
    1 ≤ tokens.length ∧ Token.FirstMark marks tokens 1 11 ∧
      ((collect marks (tokens.drop 1)).landing tokens).value = "a:  @b\x7b;\x7b".toList ∧
      ((collect marks (tokens.drop 1)).landing tokens).siblings =
        [.comment "/*c*/".toList ⟨1, 5⟩, .comment "/**/".toList ⟨1, 8⟩] ∧
      ((collect marks (tokens.drop 1)).landing tokens).next = 11 := by
  intro tokens marks
  have hpos : 1 ≤ tokens.length := by decide
  obtain ⟨stop, hfirst, hlanding⟩ := collect_landing marks tokens hpos
  have hstop : 11 = stop := congrArg Landing.next hlanding
  subst hstop
  refine ⟨hpos, hfirst, ?_, ?_, congrArg Landing.next hlanding⟩
  · rw [hlanding]
    decide
  · rw [hlanding]
    rfl

end Phrase
end Stylesheet
end Galley
