/-
# Spellings of a rule tree

What the printers write differs in blanks and in nothing else.  The pieces of a tree are its texts
and the marks between them, in the order in which they are printed; a text spells a tree if it
consists of the pieces with blanks around them (`Spaced`).

| rule | pieces |
| --- | --- |
| comment | the comment |
| statement | heading `;` |
| block | head `{`, its declarations, the pieces of its children, `}` |
| declaration | property `:` body `;` |

The printers also differ in the body of a declaration, the text after its colon: a space may stand
before the mark of importance.  Both ways of writing it spell the declaration
(`isBody_compact`, `isBody_spaced`).
-/

import Galley.Proofs.Stylesheet.Normal

namespace Galley
namespace Stylesheet

/-! ### Pieces with blanks around them -/

/-- Whether a text consists of some pieces with blanks around them. -/
inductive Spaced : List Text → Text → Prop where
  | nil {ws : Text} (hws : ws.allBlank = true) : Spaced [] ws
  | cons {ws t : Text} {ps : List Text} (hws : ws.allBlank = true) (p : Text) (h : Spaced ps t) :
    Spaced (p :: ps) (ws ++ (p ++ t))

/-- A text that neither begins nor ends with a blank. -/
structure IsTrimmed (t : Text) : Prop where
  head : ∀ c ∈ t.head?, Text.isBlank c = false
  last : ∀ c ∈ t.getLast?, Text.isBlank c = false

variable {ps qs : List Text} {s t ws : Text}

theorem allBlank_append : (s ++ t).allBlank = (s.allBlank && t.allBlank) := List.all_append

theorem IsTrimmed.reverse (h : IsTrimmed t) : IsTrimmed t.reverse := by
  refine ⟨?_, ?_⟩
  · rw [List.head?_reverse]
    exact h.last
  · rw [List.getLast?_reverse]
    exact h.head

/-- A trimmed text that is not empty is not blank. -/
theorem IsTrimmed.not_allBlank (h : IsTrimmed t) (hne : t ≠ []) : t.allBlank = false := by
  obtain ⟨c, cs, rfl⟩ := List.exists_cons_of_ne_nil hne
  rw [Text.allBlank, List.all_cons, h.head c rfl, Bool.false_and]

theorem IsTidy.isTrimmed (h : IsTidy t) : IsTrimmed t := by
  rcases h with rfl | h
  · exact ⟨by simp, by simp⟩
  · refine ⟨?_, getLast_solid_of_tidyFrom h⟩
    cases t with
    | nil => simp
    | cons c cs =>
      rintro d hd
      obtain rfl : c = d := by simpa using hd
      exact IsTidy.head_solid (Or.inr h)

namespace Spaced

/-- The empty text has no pieces. -/
theorem empty : Spaced [] [] := nil rfl

/-- A piece in front of a text. -/
theorem piece (p : Text) (h : Spaced ps t) : Spaced (p :: ps) (p ++ t) :=
  @cons [] t ps rfl p h

/-- A text is one piece. -/
theorem single (p : Text) : Spaced [p] p := by
  simpa using piece p empty

/-- Blanks in front change nothing. -/
theorem blanks (hws : ws.allBlank = true) (h : Spaced ps t) : Spaced ps (ws ++ t) := by
  cases h with
  | nil hws' => exact nil (by rw [allBlank_append, hws, hws', Bool.and_self])
  | cons hws' p h =>
    rw [← List.append_assoc]
    exact cons (by rw [allBlank_append, hws, hws', Bool.and_self]) p h

theorem append (h : Spaced ps s) (h' : Spaced qs t) : Spaced (ps ++ qs) (s ++ t) := by
  induction h with
  | nil hws => exact blanks hws h'
  | cons hws p h ih =>
    rw [List.append_assoc, List.append_assoc]
    exact cons hws p ih

/-- The pieces one after the other. -/
theorem flatten (ps : List Text) : Spaced ps ps.flatten := by
  induction ps with
  | nil => exact empty
  | cons p ps ih => exact piece p ih

/-- Read from the end, a text consists of its pieces read from the end. -/
theorem reverse (h : Spaced ps t) : Spaced (ps.map List.reverse).reverse t.reverse := by
  induction h with
  | nil hws => exact nil (by simpa [Text.allBlank] using hws)
  | @cons ws t ps hws p h ih =>
    rw [List.map_cons, List.reverse_cons, List.reverse_append, List.reverse_append,
      List.append_assoc]
    have hws' : Text.allBlank ws.reverse = true := by simpa [Text.allBlank] using hws
    exact ih.append (piece p.reverse (nil hws'))

theorem trimLeft (hps : ∀ p ∈ ps, IsTrimmed p) (h : Spaced ps t) :
    Spaced ps (Text.trimLeft t) := by
  induction h with
  | @nil ws hws =>
    rw [Text.trimLeft, List.dropWhile_eq_nil_iff.2 (List.all_eq_true.1 hws)]
    exact empty
  | @cons ws t ps hws p h ih =>
    rw [Text.trimLeft, List.dropWhile_append_of_pos (List.all_eq_true.1 hws)]
    cases p with
    | nil => exact piece [] (ih fun p hp => hps p (List.mem_cons_of_mem _ hp))
    | cons c cs =>
      have hc := (hps (c :: cs) List.mem_cons_self).head c rfl
      rw [List.cons_append, List.dropWhile_cons_of_neg (by simp [hc])]
      exact piece (c :: cs) h

/-- Trimming a text leaves its pieces. -/
theorem trim (hps : ∀ p ∈ ps, IsTrimmed p) (h : Spaced ps t) : Spaced ps (Text.trim t) := by
  have hrev : ∀ p ∈ (ps.map List.reverse).reverse, IsTrimmed p := by
    intro p hp
    obtain ⟨q, hq, rfl⟩ := List.mem_map.1 (List.mem_reverse.1 hp)
    exact (hps q hq).reverse
  have h' := ((h.trimLeft hps).reverse.trimLeft hrev).reverse
  rw [List.map_reverse, List.reverse_reverse, List.map_map] at h'
  simpa [Text.trim, Text.trimRight, Function.comp_def] using h'

/-- The first piece of a text. -/
theorem exists_of_cons {p : Text} (h : Spaced (p :: ps) t) :
    ∃ ws u, ws.allBlank = true ∧ Spaced ps u ∧ t = ws ++ (p ++ u) := by
  cases h with
  | cons hws p h => exact ⟨_, _, hws, h, rfl⟩

theorem allBlank_of_nil (h : Spaced [] t) : t.allBlank = true := by
  cases h with
  | nil hws => exact hws

end Spaced

/-! ### The pieces of a tree -/

/-- The pieces of a declaration with a way to write what stands after its colon. -/
def Declaration.pieces (body : Declaration → Text) (d : Declaration) : List Text :=
  [d.property, [':'], body d, [';']]

namespace Rule

mutual
/-- The pieces of a rule. -/
def pieces (body : Declaration → Text) : Rule → List Text
  | .comment t _ => [t]
  | .statement k pre _ => [heading k pre, [';']]
  | .group k pre ds children _ =>
    heading k pre :: ['{'] ::
      (ds.flatMap (Declaration.pieces body) ++ (piecesAll body children ++ [['}']]))
  | .style s ds children _ =>
    s :: ['{'] :: (ds.flatMap (Declaration.pieces body) ++ (piecesAll body children ++ [['}']]))

/-- The pieces of several rules. -/
def piecesAll (body : Declaration → Text) : List Rule → List Text
  | [] => []
  | r :: rs => pieces body r ++ piecesAll body rs
end

end Rule

/-! ### What stands after a colon -/

/-- Whether a way to write what stands after a colon is one that is read back. -/
def IsBody (body : Declaration → Text) : Prop :=
  ∀ d : Declaration, d.WellFormed →
    IsPhrase [';', '{', '}'] (body d) ∧ Declaration.ofPhrases d.property (body d) = d

/-- **A value with the mark of importance behind it is read back**, with or without a space
between them. -/
theorem ofPhrases_important {v gap : Text} (hv : IsPhrase [';', '{', '}'] v)
    (hgap : gap = [] ∨ gap = [' '] ∧ v ≠ []) :
    IsPhrase [';', '{', '}'] (v ++ (gap ++ importantMark)) ∧
      ∀ p, Declaration.ofPhrases p (v ++ (gap ++ importantMark)) = ⟨p, v, true⟩ := by
  refine ⟨⟨?_, ?_⟩, fun p => ?_⟩
  · rcases hgap with rfl | ⟨rfl, hne⟩
    · rcases hv.tidy with rfl | ht
      · exact Or.inr (by decide)
      · exact Or.inr (tidyFrom_append ht (by decide) (by decide))
    · exact Or.inr (tidyFrom_append (hv.tidy.resolve_left hne) (by decide) (by decide))
  · intro c hc
    rcases List.mem_append.1 hc with hc | hc
    · exact hv.free c hc
    · have hmark : ∀ c ∈ ' ' :: importantMark, c ∉ [';', '{', '}'] := by simp [importantMark]
      refine hmark c ?_
      rcases hgap with rfl | ⟨rfl, -⟩
      · exact List.mem_cons_of_mem _ hc
      · exact hc
  · have hs : importantMark.isSuffixOf (v ++ (gap ++ importantMark)) = true := by
      rw [List.isSuffixOf_iff_suffix, ← List.append_assoc]
      exact List.suffix_append _ _
    rw [Declaration.ofPhrases, if_pos hs, ← List.append_assoc, Text.dropEnd_append]
    rcases hgap with rfl | ⟨rfl, -⟩
    · rw [List.append_nil, hv.tidy.trim_eq.1]
    · rw [hv.tidy.trim_eq.2]

/-- The value of a declaration that is not important is read back. -/
theorem Declaration.WellFormed.ofPhrases_plain {d : Declaration} (h : d.WellFormed)
    (hd : d.important = false) : Declaration.ofPhrases d.property d.value = d := by
  rw [Declaration.ofPhrases, if_neg (by rw [List.isSuffixOf_iff_suffix]; exact h.plain hd), ← hd]

namespace Declaration

/-- The value and the mark without a space between them. -/
def compactBody (d : Declaration) : Text := d.value ++ d.mark

/-- The value and the mark with a space between them. -/
def spacedBody (d : Declaration) : Text :=
  Text.join [' '] ([d.value, d.mark].filter fun part => !part.isEmpty)

end Declaration

theorem isBody_compact : IsBody Declaration.compactBody := by
  intro d h
  rw [Declaration.compactBody, Declaration.mark]
  cases hd : d.important with
  | false =>
    rw [if_neg (by simp), List.append_nil]
    exact ⟨h.value, h.ofPhrases_plain hd⟩
  | true =>
    obtain ⟨hp, he⟩ := ofPhrases_important h.value (Or.inl rfl)
    exact ⟨hp, (he d.property).trans (by rw [← hd])⟩

theorem isBody_spaced : IsBody Declaration.spacedBody := by
  intro d h
  rw [Declaration.spacedBody, Declaration.mark]
  cases hd : d.important with
  | false =>
    have hbody : Text.join [' '] ([d.value, []].filter fun part => !part.isEmpty) = d.value := by
      cases d.value <;> simp [Text.join, List.intercalate]
    rw [if_neg (by simp), hbody]
    exact ⟨h.value, h.ofPhrases_plain hd⟩
  | true =>
    -- without a value the mark stands alone
    by_cases hv : d.value = []
    · obtain ⟨hp, he⟩ := ofPhrases_important h.value (Or.inl rfl)
      rw [hv] at hp he ⊢
      exact ⟨hp, (he d.property).trans (by rw [← hd, ← hv])⟩
    · obtain ⟨hp, he⟩ := ofPhrases_important h.value (Or.inr ⟨rfl, hv⟩)
      have hbody : Text.join [' '] ([d.value, importantMark].filter fun part => !part.isEmpty) =
          d.value ++ ([' '] ++ importantMark) := by
        simp [Text.join, List.intercalate, hv, importantMark]
      refine ⟨hbody ▸ hp, ?_⟩
      exact (congrArg _ hbody).trans ((he d.property).trans (by rw [← hd]))

/-! ### Compact text -/

/-- **Compact text is the pieces of the tree one after the other.** -/
theorem minifyRules_eq_flatten (o : Options) (rs : List Rule) :
    minifyRules o.unfiltered rs = (Rule.piecesAll Declaration.compactBody rs).flatten := by
  have declarations : ∀ ds : List Declaration,
      (ds.map Declaration.compact).flatten =
        (ds.flatMap (Declaration.pieces Declaration.compactBody)).flatten := by
    intro ds
    induction ds with
    | nil => rfl
    | cons d ds ih =>
      rw [List.map_cons, List.flatten_cons, List.flatMap_cons, List.flatten_append, ih]
      simp [Declaration.compact, Declaration.pieces, Declaration.compactBody]
  induction rs using Rule.forest_induction with
  | nil => rfl
  | comment t p rs ih =>
    rw [minifyRules, ih, minifyRule, Rule.piecesAll, Rule.pieces]
    rfl
  | statement k pre p rs ih =>
    rw [minifyRules, ih, minifyRule, Rule.piecesAll, Rule.pieces]
    simp
  | group k pre ds children p rs ihc ih =>
    rw [minifyRules, ih, minifyRule, ihc, Rule.piecesAll, Rule.pieces,
      Declaration.inOrder_unfiltered, declarations]
    simp
  | style s ds children p rs ihc ih =>
    rw [minifyRules, ih, minifyRule, ihc, Rule.piecesAll, Rule.pieces,
      Declaration.inOrder_unfiltered, declarations]
    simp [Options.unfiltered]

/-- Compact text spells the tree. -/
theorem spaced_minifyRules (o : Options) (rs : List Rule) :
    Spaced (Rule.piecesAll Declaration.compactBody rs) (minifyRules o.unfiltered rs) := by
  rw [minifyRules_eq_flatten]
  exact Spaced.flatten _

end Stylesheet
end Galley
