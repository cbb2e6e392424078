/-
# The tokens of two texts put together

The scanner reads on as long as it can, so it may read across the seam between two texts.  It does
not if the last token of the first text ends there whatever comes, or if the second text begins with
something that is not part of it.

| last token | the second text |
| --- | --- |
| punctuation | any |
| comment with its end mark | any |
| white space | does not begin with a blank |
| word | begins with a blank, punctuation or a comment |

In these cases, and if the second text is empty, the tokens of both texts are those of the first and
then those of the second, moved to the place where the first ends.  In all others they are not:
`Token.scan_append_iff`.
-/

import Galley.Proofs.Stylesheet.Lexical

namespace Galley
namespace Stylesheet

/-- The rest of a comment ends with an end mark if there is one anywhere in it: a comment does not
go on behind the first. -/
theorem IsCommentBody.suffix_iff {body : Text} (h : IsCommentBody body) :
    commentEnd <:+ body ↔ ∃ i, commentEnd <+: body.drop i := by
  have hends : EndsAtMark 0 body [] := by
    have hcut := endsAtMark_cutComment body
    rwa [h] at hcut
  constructor
  · rintro ⟨before, rfl⟩
    exact ⟨before.length, by simp⟩
  · rintro ⟨j, hmark⟩
    rcases hends with ⟨i, -, hi, -, hlength⟩ | ⟨hnone, -⟩
    · rw [List.append_nil] at hi
      have heq : commentEnd = body.drop i := hi.eq_of_length (by simp [commentEnd, hlength])
      exact heq ▸ List.drop_suffix i body
    · exact absurd hmark (by simpa using hnone j (Nat.zero_le j))

namespace Token

/-! ### Tokens moved -/

/-- A token of a text that does not stand at the start but at `p`. -/
def shift (p : Position) (t : Token) : Token := { t with position := p.shift t.position }

theorem scanFrom_advance (p : Position) (s t : Text) :
    scanFrom (p.advance s) t = (scanFrom (Position.start.advance s) t).map (shift p) := by
  induction hn : t.length using Nat.strongRecOn generalizing s t with
  | ind n ih =>
    cases t with
    | nil => simp
    | cons c cs =>
      subst hn
      have hrest := ih _ (Nat.lt_succ_of_le (length_cutLexeme_le c cs))
        (s ++ (cutLexeme c cs).2.1) (cutLexeme c cs).2.2 rfl
      rw [Position.advance_append, Position.advance_append] at hrest
      rw [scanFrom_cons, scanFrom_cons, List.map_cons, hrest, p.advance_shift s]
      rfl

/-- **The tokens of a text move with the text.** -/
theorem scanFrom_eq_map_shift (p : Position) (t : Text) :
    scanFrom p t = (scan t).map (shift p) := scanFrom_advance p [] t

theorem flatMap_text_map_shift (p : Position) (ts : List Token) :
    (ts.map (shift p)).flatMap text = ts.flatMap text := List.flatMap_map ..

end Token

/-! ### Seams -/

/-- Whether a text that follows a lexeme is not drawn into it. -/
def Lexeme.Apart (kind : Lexeme) (text next : Text) : Prop :=
  match kind with
  | .comment => ∃ i, 2 ≤ i ∧ commentEnd <+: text.drop i
  | .whitespace => ∀ c ∈ next.head?, Text.isBlank c = false
  | .punctuation => True
  | .atKeyword | .text => BeginsOther next

/-- **What stands behind a lexeme in place stays apart from it**, if there is anything. -/
theorem Lexeme.Covers.apart {kind : Lexeme} {before text next : Text}
    (h : kind.Covers before text next) (hne : next ≠ []) : kind.Apart text next := by
  have hextent := h.extent
  cases kind with
  | comment =>
    rcases hextent with ⟨i, hi, hmark, -, hlength⟩ | ⟨-, hnext⟩
    · -- the mark is within the lexeme, for the lexeme ends with it
      refine ⟨i, hi, List.prefix_of_prefix_length_le hmark ?_ (by simp [commentEnd, hlength])⟩
      rw [List.drop_append_of_le_length (by omega)]
      exact List.prefix_append _ _
    · exact absurd hnext hne
  | whitespace => exact hextent.ends
  | punctuation => trivial
  | atKeyword => exact hextent.1.ends.resolve_left hne
  | text => exact hextent.1.ends.resolve_left hne

namespace Token

/-- Whether a text that follows a token is not drawn into it. -/
def Apart (t : Token) (next : Text) : Prop := t.kind.Apart t.text next

/-- **A text that stays apart may follow** a token that has the shape of its class. -/
theorem Apart.seam {t : Token} {next : Text} (h : t.Apart next) (ht : t.Proper) :
    t.Seam next := by
  rcases t with ⟨kind, text, position⟩
  cases kind with
  | comment =>
    obtain ⟨body, rfl, hbody⟩ := ht
    obtain ⟨i, hi, hmark⟩ := h
    obtain ⟨j, rfl⟩ := Nat.exists_eq_add_of_le' hi
    exact (isClosedComment_cons body).2 (hbody.suffix_iff.2 ⟨j, hmark⟩)
  | whitespace => exact (startsSolid_iff next).2 h
  | punctuation => trivial
  | atKeyword => exact (endsWord_iff next).2 (Or.inr h)
  | text => exact (endsWord_iff next).2 (Or.inr h)

/-- **Two texts have the tokens of both**, those of the second moved to the end of the first, if the
second is empty or stays apart from the last token of the first, and only then. -/
theorem scan_append_iff (a b : Text) :
    scan (a ++ b) = scan a ++ (scan b).map (shift (Position.start.advance a)) ↔
      b = [] ∨ ∀ t ∈ (scan a).getLast?, t.Apart b := by
  constructor
  · intro h
    by_cases hb : b = []
    · exact Or.inl hb
    · refine Or.inr fun t ht => ?_
      obtain ⟨ts, hts⟩ := List.getLast?_eq_some_iff.1 ht
      have hsplit : scan (a ++ b) =
          ts ++ t :: (scan b).map (shift (Position.start.advance a)) := by
        rw [h, hts, List.append_assoc, List.singleton_append]
      have hfits := fits_scanFrom [] (a ++ b) (by simp) ts t _ hsplit
      rw [flatMap_text_map_shift, scan, flatMap_text_scanFrom] at hfits
      exact hfits.covers.apart hb
  · rintro (rfl | h)
    · simp [scan]
    · rw [← scanFrom_eq_map_shift]
      refine scanFrom_append .start a b fun t ht => (h t ht).seam ?_
      exact (Lexed.scanFrom .start a).proper t (List.mem_of_mem_getLast? ht)

end Token

end Stylesheet
end Galley
