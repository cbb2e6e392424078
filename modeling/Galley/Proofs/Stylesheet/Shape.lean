/-
# The texts of a parsed tree

`Galley.Proofs.Stylesheet.WellFormed` says what the parser guarantees in the words of the parser and
the scanner.  Here the same is said of the characters of each text, rule by rule in the order of a
walk through the tree (`shaped_rulesOf`):

| text | begins with | ends with | does not contain |
| --- | --- | --- | --- |
| selector outside of blocks | no blank, `@`, `;` or `}` | no blank | `{` |
| selector inside a block | no blank and no `@` | no blank | `;` `{` `}` |
| keyword | `@` | | |
| prelude | no blank | no blank | `;` `{` `}` |
| property | no blank and no `@` | no blank | `:` `;` `{` `}` |
| value | no blank | no blank; the mark of importance only if important | `;` `{` `}` |
| comment | `/*` | the first `*/` behind that | |

But for keywords and comments the blanks of a text are single spaces, and no comment begins in it
(`IsTidy.isNeat`).
-/

import Galley.Proofs.Stylesheet.Lexical
import Galley.Proofs.Stylesheet.Preorder
import Galley.Stylesheet.Format

namespace Galley
namespace Stylesheet

/-! ### Neat texts -/

/-- Whether the blanks of a text are single spaces inside it and no comment begins in it. -/
structure IsNeat (t : Text) : Prop where
  starts : ∀ c ∈ t.head?, Text.isBlank c = false
  ends : ∀ c ∈ t.getLast?, Text.isBlank c = false
  spaces : ∀ c ∈ t, Text.isBlank c = true → c = ' '
  single : ¬ [' ', ' '] <:+: t
  no_comment : ¬ commentStart <:+: t

/-- The blanks of a tidy rest are spaces. -/
theorem eq_space_of_tidyFrom {t : Text} {spaced : Bool} (h : tidyFrom spaced t = true) :
    ∀ c ∈ t, Text.isBlank c = true → c = ' ' := by
  induction t generalizing spaced with
  | nil => simp
  | cons d ds ih =>
    intro c hc hblank
    cases hd : Text.isBlank d with
    | true =>
      obtain ⟨rfl, -, hds⟩ := tidyFrom_of_blank hd h
      rcases List.mem_cons.1 hc with rfl | hc
      · rfl
      · exact ih hds c hc hblank
    | false =>
      rw [tidyFrom_of_solid hd, Bool.and_eq_true] at h
      rcases List.mem_cons.1 hc with rfl | hc
      · simp [hd] at hblank
      · exact ih h.2 c hc hblank

/-- In a tidy rest no space follows a space. -/
theorem not_infix_spaces_of_tidyFrom {t : Text} {spaced : Bool} (h : tidyFrom spaced t = true) :
    ¬ [' ', ' '] <:+: t := by
  have hspace : Text.isBlank ' ' = true := by decide
  induction t generalizing spaced with
  | nil => simp
  | cons d ds ih =>
    rw [List.infix_cons_iff, not_or]
    cases hd : Text.isBlank d with
    | true =>
      obtain ⟨-, -, hds⟩ := tidyFrom_of_blank hd h
      refine ⟨fun hp => ?_, ih hds⟩
      obtain ⟨es, rfl⟩ := (List.cons_prefix_cons.1 hp).2
      exact absurd (tidyFrom_of_blank hspace hds).2.1 (by simp)
    | false =>
      rw [tidyFrom_of_solid hd, Bool.and_eq_true] at h
      refine ⟨fun hp => ?_, ih h.2⟩
      rw [← (List.cons_prefix_cons.1 hp).1, hspace] at hd
      simp at hd

/-- No comment begins in a tidy rest. -/
theorem not_infix_commentStart_of_tidyFrom {t : Text} {spaced : Bool}
    (h : tidyFrom spaced t = true) : ¬ commentStart <:+: t := by
  induction t generalizing spaced with
  | nil => simp [commentStart]
  | cons d ds ih =>
    rw [List.infix_cons_iff, not_or, commentStart_isPrefix_iff]
    cases hd : Text.isBlank d with
    | true =>
      obtain ⟨rfl, -, hds⟩ := tidyFrom_of_blank hd h
      exact ⟨by simp [opensComment], ih hds⟩
    | false =>
      rw [tidyFrom_of_solid hd, Bool.and_eq_true, Bool.not_eq_true'] at h
      exact ⟨by simp [h.1], ih h.2⟩

/-- **A tidy text is neat.** -/
theorem IsTidy.isNeat {t : Text} (h : IsTidy t) : IsNeat t where
  starts := by
    cases t with
    | nil => simp
    | cons c cs =>
      rintro d ⟨⟩
      exact h.head_solid
  ends := getLast_solid_of_tidyFrom h.tidyFrom_false
  spaces := eq_space_of_tidyFrom h.tidyFrom_false
  single := not_infix_spaces_of_tidyFrom h.tidyFrom_false
  no_comment := not_infix_commentStart_of_tidyFrom h.tidyFrom_false

/-! ### Comments -/

/-- Whether a text begins with the start mark of a comment and ends with the first end mark behind
it. -/
def EndsAtFirstMark (t : Text) : Prop :=
  commentStart <+: t ∧ ∃ i, 2 ≤ i ∧ commentEnd <+: t.drop i ∧ t.length = i + 2 ∧
    ∀ j, 2 ≤ j → commentEnd <+: t.drop j → i ≤ j

/-- A comment ends with its first end mark. -/
theorem IsComment.endsAtFirstMark {t : Text} (h : IsComment t) : EndsAtFirstMark t := by
  obtain ⟨b, rfl, hb, u, rfl⟩ := h
  have hdrop : (['/', '*'] ++ u ++ commentEnd).drop (u.length + 2) = commentEnd :=
    List.drop_left' (by simp)
  have hmark : commentEnd <+: (['/', '*'] ++ u ++ commentEnd).drop (u.length + 2) :=
    hdrop.symm ▸ List.prefix_rfl
  refine ⟨⟨u ++ commentEnd, rfl⟩, ?_⟩
  have hends := endsAtMark_cutComment (u ++ commentEnd)
  rw [hb] at hends
  rcases (hends.cons '*').cons '/' with ⟨i, hi, hmark, hfirst, hlength⟩ | ⟨hnone, -⟩
  · rw [List.append_nil] at hmark hfirst
    exact ⟨i, hi, hmark, hlength, hfirst⟩
  · exact absurd (by rwa [List.append_nil]) (hnone (u.length + 2) (by omega))

/-! ### Declarations and rules -/

/-- The declarations directly in a rule. -/
def Rule.declarations : Rule → List Declaration
  | .comment _ _ => []
  | .style _ ds _ _ => ds
  | .statement _ _ _ => []
  | .group _ _ ds _ _ => ds

/-- Whether the texts of a declaration are as the parser leaves them. -/
structure Declaration.Shaped (d : Declaration) : Prop where
  property : IsNeat d.property
  property_free : ∀ c ∈ [':', ';', '{', '}'], c ∉ d.property
  not_keyword : d.property.head? ≠ some '@'
  value : IsNeat d.value
  value_free : ∀ c ∈ [';', '{', '}'], c ∉ d.value
  plain : d.important = false → ¬ importantMark <:+ d.value

/-- Whether a text is a selector as the parser leaves it, of a rule that stands inside so many
blocks. -/
structure IsSelectorAt (depth : Nat) (s : Text) : Prop where
  neat : IsNeat s
  not_keyword : s.head? ≠ some '@'
  outer : depth = 0 → '{' ∉ s ∧ s.head? ≠ some ';' ∧ s.head? ≠ some '}'
  nested : 0 < depth → ∀ c ∈ [';', '{', '}'], c ∉ s

/-- Whether the texts of a rule that stands inside so many blocks are as the parser leaves them. -/
structure Rule.Shaped (depth : Nat) (r : Rule) : Prop where
  declarations : ∀ d ∈ r.declarations, d.Shaped
  texts :
    match r with
    | .comment t _ => EndsAtFirstMark t
    | .style s ds _ _ => IsSelectorAt depth s ∧ (s = [] → ds ≠ [])
    | .statement k pre _ =>
      k.head? = some '@' ∧ IsNeat pre ∧ (∀ c ∈ [';', '{', '}'], c ∉ pre) ∧ r.declarations = []
    | .group k pre _ _ _ => k.head? = some '@' ∧ IsNeat pre ∧ ∀ c ∈ [';', '{', '}'], c ∉ pre

theorem IsPhrase.free_of_mem {stops t : Text} (h : IsPhrase stops t) : ∀ c ∈ stops, c ∉ t :=
  fun c hs hc => h.free c hc hs

theorem Declaration.WellFormed.shaped {d : Declaration} (h : d.WellFormed) : d.Shaped where
  property := h.property.tidy.isNeat
  property_free := h.property.free_of_mem
  not_keyword := h.not_keyword
  value := h.value.tidy.isNeat
  value_free := h.value.free_of_mem
  plain := h.plain

theorem IsSelector.isSelectorAt {depth : Nat} {s : Text}
    (h : IsSelector (decide (0 < depth)) s) : IsSelectorAt depth s where
  neat := h.phrase.tidy.isNeat
  not_keyword := h.not_keyword
  outer := fun _ => ⟨h.phrase.free_of_mem '{' (by simp), h.not_stray⟩
  nested := by
    intro hd c hc hs
    have hend : c ∉ [';', '}'] := h.inside (by simpa using hd) c hs
    have hopen : c ∉ ['{'] := h.phrase.free c hs
    simp only [List.mem_cons, List.not_mem_nil, or_false] at hc hend hopen
    rcases hc with rfl | rfl | rfl <;> simp at hend hopen

/-- **The texts of a well-formed tree**, at every depth. -/
theorem Rule.shaped_of_mem_preorderAll {depth : Nat} {rs : List Rule}
    (h : AllWellFormed (decide (0 < depth)) rs) :
    ∀ x ∈ preorderAll depth rs, x.2.Shaped x.1 := by
  have inside : ∀ (depth : Nat) {children : List Rule}, AllWellFormed true children →
      AllWellFormed (decide (0 < depth + 1)) children := by
    intro depth children hc
    simpa using hc
  induction rs using forest_induction generalizing depth with
  | nil => simp [preorderAll]
  | comment t p rs ih =>
    refine List.forall_mem_append.2 ⟨?_, ih h.2⟩
    exact List.forall_mem_singleton.2 ⟨by simp [Rule.declarations], h.1.endsAtFirstMark⟩
  | statement k pre p rs ih =>
    obtain ⟨⟨hk, hpre⟩, hrs⟩ := h
    refine List.forall_mem_append.2 ⟨?_, ih hrs⟩
    exact List.forall_mem_singleton.2 ⟨by simp [Rule.declarations], hk.2, hpre.tidy.isNeat,
      hpre.free_of_mem, rfl⟩
  | group k pre ds children p rs ihc ih =>
    obtain ⟨⟨hk, hpre, hds, hc⟩, hrs⟩ := h
    refine List.forall_mem_append.2 ⟨List.forall_mem_cons.2 ⟨?_, ?_⟩, ih hrs⟩
    · exact ⟨fun d hd => (hds d hd).shaped, hk.2, hpre.tidy.isNeat, hpre.free_of_mem⟩
    · exact ihc (inside depth hc)
  | style s ds children p rs ihc ih =>
    obtain ⟨⟨hs, hne, hds, hc⟩, hrs⟩ := h
    refine List.forall_mem_append.2 ⟨List.forall_mem_cons.2 ⟨?_, ?_⟩, ih hrs⟩
    · exact ⟨fun d hd => (hds d hd).shaped, hs.isSelectorAt, hne⟩
    · exact ihc (inside depth hc)

/-- **The texts of a parsed tree.**  Every rule that a walk through the tree of a text meets, at
whatever depth, has texts of the shape of their roles. -/
theorem shaped_rulesOf (source : Text) :
    ∀ x ∈ Rule.preorderAll 0 (rulesOf source), x.2.Shaped x.1 :=
  Rule.shaped_of_mem_preorderAll (wellFormed_parse (Lexed.scanFrom .start source))

/-- A rule inside another one, with an important declaration. -/
theorem shaped_rulesOf_nested :
    let source := "a\x7bb\x7bc: d !important\x7d\x7d".toList
    ∃ r, (1, r) ∈ Rule.preorderAll 0 (rulesOf source) ∧
      r.declarations = [⟨['c'], ['d'], true⟩] ∧ r.Shaped 1 := by
  intro source
  have hwalk : (Rule.preorderAll 0 (rulesOf source)).map (fun x => (x.1, x.2.declarations)) =
      [(0, []), (1, [⟨['c'], ['d'], true⟩])] := by
    decide +kernel
  have hmem : (1, [⟨['c'], ['d'], true⟩]) ∈
      (Rule.preorderAll 0 (rulesOf source)).map fun x => (x.1, x.2.declarations) := by
    rw [hwalk]
    exact List.mem_cons_of_mem _ List.mem_cons_self
  obtain ⟨⟨depth, r⟩, hr, heq⟩ := List.mem_map.1 hmem
  obtain ⟨rfl, hdeclarations⟩ := Prod.mk.inj heq
  exact ⟨r, hr, hdeclarations, shaped_rulesOf source _ hr⟩

end Stylesheet
end Galley
