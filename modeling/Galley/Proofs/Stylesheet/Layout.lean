/-
# Text on lines

The beautifier writes a tree on lines, adds blank lines and takes some back, indents what it
writes, and trims the whole.  All of this only moves blanks: every line that is not blank consists
of pieces of the tree, and the lines in their order have the pieces in theirs (`Spells`).

Blank lines may come and go anywhere, for they have no pieces (`Spells.of_solid`).  This settles the
blank lines that are taken back before a closing brace and the runs of them that are shortened.
-/

import Galley.Proofs.Stylesheet.Spelling

namespace Galley
namespace Stylesheet

/-! ### Lines with their pieces -/

/-- Whether the lines of a page, the last line first, consist of some pieces with blanks around
them.  A blank line has no pieces. -/
inductive Spells : List Text → Page → Prop where
  | nil : Spells [] []
  | blank {line : Text} {ps : List Text} {page : Page} (hl : line.allBlank = true)
      (h : Spells ps page) : Spells ps (line :: page)
  | line {line : Text} {ps qs : List Text} {page : Page} (hl : line.allBlank = false)
      (hq : Spaced qs line) (h : Spells ps page) : Spells (ps ++ qs) (line :: page)

/-- The lines that are not blank. -/
def solidLines (lines : List Text) : List Text := lines.filter fun line => !line.allBlank

variable {o : Options} {level : Nat} {ps qs : List Text} {page : Page}

theorem solidLines_cons_blank {line : Text} (h : line.allBlank = true) (lines : List Text) :
    solidLines (line :: lines) = solidLines lines := by
  simp [solidLines, h]

theorem solidLines_cons_solid {line : Text} (h : line.allBlank = false) (lines : List Text) :
    solidLines (line :: lines) = line :: solidLines lines := by
  simp [solidLines, h]

/-- **Blank lines have no pieces.** -/
theorem spells_solidLines : Spells ps (solidLines page) ↔ Spells ps page := by
  induction page generalizing ps with
  | nil => rfl
  | cons line page ih =>
    cases hl : line.allBlank with
    | true =>
      rw [solidLines_cons_blank hl, ih]
      refine ⟨Spells.blank hl, fun h => ?_⟩
      cases h with
      | blank _ h => exact h
      | line hl' _ _ => simp [hl] at hl'
    | false =>
      rw [solidLines_cons_solid hl]
      constructor
      · intro h
        cases h with
        | blank hl' _ => simp [hl] at hl'
        | line _ hq h => exact Spells.line hl hq (ih.1 h)
      · intro h
        cases h with
        | blank hl' _ => simp [hl] at hl'
        | line _ hq h => exact Spells.line hl hq (ih.2 h)

/-- Pages that differ in blank lines only consist of the same pieces. -/
theorem Spells.of_solid {page' : Page} (h : Spells ps page)
    (hp : solidLines page' = solidLines page) : Spells ps page' := by
  rw [← spells_solidLines, hp, spells_solidLines]
  exact h

theorem solidLines_trimBlanks (page : Page) :
    solidLines (Page.trimBlanks page) = solidLines page := by
  unfold Page.trimBlanks
  induction page with
  | nil => rfl
  | cons line page ih =>
    cases line with
    | nil => exact ih
    | cons c cs => rfl

theorem solidLines_collapseBlankLines (after : Bool) (lines : List Text) :
    solidLines (collapseBlankLines after lines) = solidLines lines := by
  induction lines generalizing after with
  | nil => rfl
  | cons line lines ih =>
    rw [collapseBlankLines]
    cases hl : line.allBlank with
    | true =>
      rw [solidLines_cons_blank hl, if_pos rfl]
      split
      · exact ih true
      · rw [solidLines_cons_blank hl, ih]
    | false => rw [solidLines_cons_solid hl, if_neg (by simp), solidLines_cons_solid hl, ih]

/-! ### Lines put together -/

theorem Spaced.join_cons {line : Text} {lines : List Text} (h : Spaced ps line)
    (h' : Spaced qs (Text.join ['\n'] lines)) :
    Spaced (ps ++ qs) (Text.join ['\n'] (line :: lines)) := by
  cases lines with
  | nil => simpa [Text.join] using h.append h'
  | cons line' lines =>
    rw [Text.join, List.intercalate_cons_cons, List.append_assoc]
    exact h.append (h'.blanks (by decide))

/-- **The lines of a page in their order, joined by line feeds, consist of its pieces.** -/
theorem Spells.join {lines : List Text} (h : Spells ps page)
    (h' : Spaced qs (Text.join ['\n'] lines)) :
    Spaced (ps ++ qs) (Text.join ['\n'] (page.reverse ++ lines)) := by
  induction h generalizing qs lines with
  | nil => exact h'
  | blank hl h ih =>
    rw [List.reverse_cons, List.append_assoc]
    exact ih ((Spaced.nil hl).join_cons h')
  | line hl hq h ih =>
    rw [List.reverse_cons, List.append_assoc, List.append_assoc]
    exact ih (hq.join_cons h')

/-! ### What is written on a page -/

theorem allBlank_margin (o : Options) (level : Nat) : (Page.margin o level).allBlank = true := by
  have hi : o.indent.allBlank = true := by
    unfold Options.indent Indentation.unit
    cases o.indentType with
    | spaces =>
      rw [Text.allBlank, List.all_replicate]
      simp [show Text.isBlank ' ' = true from by decide]
    | tabs => exact (by decide : Text.allBlank ['\t'] = true)
  rw [Page.margin, Text.allBlank, List.all_flatten, List.all_replicate]
  split
  · rfl
  · exact hi

/-- A line with a mark at its end is not blank. -/
theorem not_allBlank_append {c : Char} (hc : isPunctuation c = true) (line : Text) :
    (line ++ [c]).allBlank = false := by
  have hmark : Text.allBlank [c] = false := by
    simp [Text.allBlank, isBlank_of_isPunctuation hc]
  rw [allBlank_append, hmark, Bool.and_false]

/-- A line that is not blank adds its pieces. -/
theorem Spells.write {line : Text} (h : Spells ps page) (hq : Spaced qs line)
    (hl : line.allBlank = false) : Spells (ps ++ qs) (Page.write o level line page) := by
  refine Spells.line ?_ (hq.blanks (allBlank_margin o level)) h
  rw [allBlank_append, hl, Bool.and_false]

/-- An empty line adds no pieces. -/
theorem Spells.blankIf {wanted : Bool} (h : Spells ps page) :
    Spells ps (Page.blankIf wanted page) := by
  unfold Page.blankIf
  split
  · exact Spells.blank rfl h
  · exact h

/-- Empty lines at the end have no pieces. -/
theorem Spells.trimBlanks (h : Spells ps page) : Spells ps (Page.trimBlanks page) :=
  h.of_solid (solidLines_trimBlanks page)

/-- An opening brace adds its head and the brace, on one line or on two. -/
theorem Spells.openBrace {head : Text} (h : Spells ps page) (hh : IsTrimmed head) :
    Spells (ps ++ [head, ['{']]) (Page.openBrace o level head page) := by
  have solid : ∀ line : Text, (line ++ ['{']).allBlank = false := not_allBlank_append rfl
  unfold Page.openBrace
  split
  · split
    · rename_i he
      obtain rfl := List.isEmpty_iff.1 he
      exact h.write (Spaced.piece [] (Spaced.single _)) (by decide)
    · rename_i he
      have hne : head ≠ [] := by simpa using he
      have h₁ : Spells (ps ++ [head]) (Page.write o level head page) :=
        h.write (Spaced.single head) (hh.not_allBlank hne)
      have h₂ : Spells (ps ++ [head] ++ [['{']])
          (Page.write o level ['{'] (Page.write o level head page)) :=
        h₁.write (Spaced.single ['{']) (by decide)
      rwa [List.append_assoc] at h₂
  · split
    · have hsp : Spaced [['{']] ([' '] ++ ['{']) := Spaced.blanks (by decide) (Spaced.single ['{'])
      refine h.write (Spaced.piece head hsp) ?_
      rw [← solid (head ++ [' ']), List.append_assoc]
      rfl
    · exact h.write (Spaced.piece head (Spaced.single _)) (solid head)

/-- A declaration adds its pieces. -/
theorem Spells.writeDeclarations {ds : List Declaration} (h : Spells ps page) :
    Spells (ps ++ ds.flatMap (Declaration.pieces Declaration.spacedBody))
      (Page.writeDeclarations o.unfiltered level ds page) := by
  unfold Page.writeDeclarations
  rw [Declaration.inOrder_unfiltered]
  induction ds generalizing ps page with
  | nil => simpa using h
  | cons d ds ih =>
    have hcolon : Spaced [[':']] (if o.spaceAfterColon then ": ".toList else [':']) := by
      split
      · exact Spaced.piece [':'] (Spaced.nil (by decide))
      · exact Spaced.single [':']
    have hline : Spaced (d.pieces Declaration.spacedBody) (d.spaced o.unfiltered) :=
      (((Spaced.single d.property).append hcolon).append (Spaced.single d.spacedBody)).append
        (Spaced.single [';'])
    have hsolid : (d.spaced o.unfiltered).allBlank = false := not_allBlank_append rfl _
    rw [List.flatMap_cons, ← List.append_assoc, List.foldl_cons]
    exact ih (h.write hline hsolid)

/-- What comes before the children of a block adds its head, the brace and its declarations. -/
theorem Spells.openBlock {head : Text} {ds : List Declaration} {children : List Rule}
    (h : Spells ps page) (hh : IsTrimmed head) :
    Spells (ps ++ (head :: ['{'] :: ds.flatMap (Declaration.pieces Declaration.spacedBody)))
      (Page.openBlock o.unfiltered level head ds children page) := by
  have h₁ : Spells (ps ++ [head, ['{']]) (Page.openBrace o.unfiltered level head page) :=
    h.openBrace hh
  have h₂ : Spells (ps ++ [head, ['{']] ++
      ds.flatMap (Declaration.pieces Declaration.spacedBody))
      (Page.openBlock o.unfiltered level head ds children page) :=
    h₁.blankIf.writeDeclarations
  rwa [List.append_assoc] at h₂

/-- What comes after the children of a block adds the closing brace. -/
theorem Spells.closeBlock {ds : List Declaration} {children : List Rule} (h : Spells ps page) :
    Spells (ps ++ [['}']]) (Page.closeBlock o level ds children page) :=
  (h.trimBlanks.blankIf.write (Spaced.single ['}']) (by decide)).blankIf

/-- A block adds its head, the brace, its declarations, what its children add and the brace that
closes it. -/
theorem Spells.block {head : Text} {ds : List Declaration} {children : List Rule}
    {emit : Page → Page} (h : Spells ps page) (hh : IsTrimmed head)
    (hc : ∀ ps page, Spells ps page → Spells (ps ++ qs) (emit page)) :
    Spells (ps ++ (head :: ['{'] ::
        (ds.flatMap (Declaration.pieces Declaration.spacedBody) ++ (qs ++ [['}']]))))
      (Page.closeBlock o.unfiltered level ds children
        (emit (Page.openBlock o.unfiltered level head ds children page))) := by
  have h' : Spells (ps ++ (head :: ['{'] ::
      ds.flatMap (Declaration.pieces Declaration.spacedBody)) ++ qs ++ [['}']])
      (Page.closeBlock o.unfiltered level ds children
        (emit (Page.openBlock o.unfiltered level head ds children page))) :=
    (hc _ _ (h.openBlock hh)).closeBlock
  simpa only [List.append_assoc, List.cons_append] using h'

/-! ### Trees on lines -/

/-- A keyword and its prelude make up a tidy text. -/
theorem IsKeyword.isTidy_heading {k pre : Text} (hk : IsKeyword k)
    (hpre : IsPhrase [';', '{', '}'] pre) : IsTidy (Rule.heading k pre) := by
  have hword := hk.1.tidyFrom true
  unfold Rule.heading
  split
  · exact Or.inr hword
  · rename_i hne
    have ht := hpre.tidy.resolve_left (by simpa using hne)
    have hrest : tidyFrom false ([' '] ++ pre) = true := by
      simp [tidyFrom, ht, show Text.isBlank ' ' = true from by decide]
    rw [List.append_assoc]
    exact Or.inr (tidyFrom_append hword hrest (by simp))

/-- A comment is trimmed and not empty. -/
theorem IsComment.isTrimmed {t : Text} (h : IsComment t) : IsTrimmed t ∧ t ≠ [] := by
  obtain ⟨b, rfl, -, u, rfl⟩ := h
  have solid : ∀ c ∈ some '/', Text.isBlank c = false := by
    rintro c hc
    obtain rfl : '/' = c := by simpa using hc
    decide
  have hlast : (['/', '*'] ++ u ++ ['*'] ++ ['/']).getLast? = some '/' :=
    List.getLast?_concat
  refine ⟨⟨solid, ?_⟩, by simp⟩
  rwa [show '/' :: '*' :: (u ++ commentEnd) = ['/', '*'] ++ u ++ ['*'] ++ ['/'] by
    simp [commentEnd], hlast]

/-- **The lines of a tree consist of its pieces.** -/
theorem Spells.emitRules {inner : Bool} {rs : List Rule} (hrs : Rule.AllWellFormed inner rs)
    (h : Spells ps page) :
    Spells (ps ++ Rule.piecesAll Declaration.spacedBody rs)
      (Page.emitRules o.unfiltered level rs page) := by
  induction rs using Rule.forest_induction generalizing inner level ps page with
  | nil =>
    rw [Rule.piecesAll, List.append_nil]
    exact h
  | comment t p rs ih =>
    obtain ⟨ht, hne⟩ := IsComment.isTrimmed hrs.1
    rw [Rule.piecesAll, ← List.append_assoc, Page.emitRules]
    exact ih hrs.2 (h.write (Spaced.single t) (ht.not_allBlank hne))
  | statement k pre p rs ih =>
    obtain ⟨⟨hk, hpre⟩, hrs⟩ := hrs
    rw [Rule.piecesAll, ← List.append_assoc, Page.emitRules]
    have hline : Spaced [Rule.heading k pre, [';']] (Rule.heading k pre ++ [';']) :=
      Spaced.piece _ (Spaced.single [';'])
    exact ih hrs (h.write hline (not_allBlank_append rfl _)).blankIf
  | group k pre ds children p rs ihc ih =>
    obtain ⟨⟨hk, hpre, -, hc⟩, hrs⟩ := hrs
    rw [Rule.piecesAll, ← List.append_assoc, Page.emitRules]
    exact ih hrs (h.block (hk.isTidy_heading hpre).isTrimmed fun ps page h => ihc hc h)
  | style s ds children p rs ihc ih =>
    obtain ⟨⟨hs, -, -, hc⟩, hrs⟩ := hrs
    rw [Rule.piecesAll, ← List.append_assoc, Page.emitRules]
    exact ih hrs (h.block hs.phrase.tidy.isTrimmed fun ps page h => ihc hc h)

/-- The pieces of a tree are trimmed. -/
theorem isTrimmed_of_mem_piecesAll {body : Declaration → Text} (hbody : IsBody body)
    {inner : Bool} {rs : List Rule} (hrs : Rule.AllWellFormed inner rs) :
    ∀ p ∈ Rule.piecesAll body rs, IsTrimmed p := by
  have mark : ∀ c, isPunctuation c = true → IsTrimmed [c] := by
    intro c hc
    have solid : ∀ d ∈ some c, Text.isBlank d = false := by
      rintro d hd
      obtain rfl : c = d := by simpa using hd
      exact isBlank_of_isPunctuation hc
    exact ⟨solid, solid⟩
  have declarations : ∀ ds : List Declaration, (∀ d ∈ ds, d.WellFormed) →
      ∀ p ∈ ds.flatMap (Declaration.pieces body), IsTrimmed p := by
    intro ds hds p hp
    obtain ⟨d, hd, hp⟩ := List.mem_flatMap.1 hp
    simp only [Declaration.pieces, List.mem_cons, List.not_mem_nil, or_false] at hp
    rcases hp with rfl | rfl | rfl | rfl
    · exact (hds d hd).property.tidy.isTrimmed
    · exact mark ':' rfl
    · exact (hbody d (hds d hd)).1.tidy.isTrimmed
    · exact mark ';' rfl
  have block : ∀ (head : Text) (ds : List Declaration) (cs : List Text), IsTrimmed head →
      (∀ d ∈ ds, d.WellFormed) → (∀ p ∈ cs, IsTrimmed p) →
      ∀ p ∈ head :: ['{'] :: (ds.flatMap (Declaration.pieces body) ++ (cs ++ [['}']])),
        IsTrimmed p := by
    intro head ds cs hhead hds hcs
    refine List.forall_mem_cons.2 ⟨hhead, List.forall_mem_cons.2 ⟨mark '{' rfl, ?_⟩⟩
    refine List.forall_mem_append.2 ⟨declarations ds hds, List.forall_mem_append.2 ⟨hcs, ?_⟩⟩
    exact List.forall_mem_singleton.2 (mark '}' rfl)
  induction rs using Rule.forest_induction generalizing inner with
  | nil => exact fun p hp => absurd hp List.not_mem_nil
  | comment t p rs ih =>
    refine List.forall_mem_append.2 ⟨?_, ih hrs.2⟩
    exact List.forall_mem_singleton.2 (IsComment.isTrimmed hrs.1).1
  | statement k pre p rs ih =>
    obtain ⟨⟨hk, hpre⟩, hrs⟩ := hrs
    refine List.forall_mem_append.2 ⟨List.forall_mem_cons.2 ⟨?_, ?_⟩, ih hrs⟩
    · exact (hk.isTidy_heading hpre).isTrimmed
    · exact List.forall_mem_singleton.2 (mark ';' rfl)
  | group k pre ds children p rs ihc ih =>
    obtain ⟨⟨hk, hpre, hds, hc⟩, hrs⟩ := hrs
    exact List.forall_mem_append.2
      ⟨block _ ds _ (hk.isTidy_heading hpre).isTrimmed hds (ihc hc), ih hrs⟩
  | style s ds children p rs ihc ih =>
    obtain ⟨⟨hs, -, hds, hc⟩, hrs⟩ := hrs
    exact List.forall_mem_append.2
      ⟨block s ds _ hs.phrase.tidy.isTrimmed hds (ihc hc), ih hrs⟩

/-- **Text on lines spells the tree.** -/
theorem spaced_beautify {inner : Bool} (o : Options) {rs : List Rule}
    (hrs : Rule.AllWellFormed inner rs) :
    Spaced (Rule.piecesAll Declaration.spacedBody rs) (beautify rs o.unfiltered) := by
  have h : Spells ([] ++ Rule.piecesAll Declaration.spacedBody rs)
      (Page.emitRules o.unfiltered 0 rs []) := Spells.nil.emitRules hrs
  have hlines : solidLines (collapseBlankLines false (emittedLines rs o.unfiltered)).reverse =
      solidLines (Page.emitRules o.unfiltered 0 rs []) := by
    rw [solidLines, List.filter_reverse, ← solidLines, solidLines_collapseBlankLines,
      emittedLines, solidLines, List.filter_reverse, List.reverse_reverse]
    rfl
  have h' : Spaced ([] ++ Rule.piecesAll Declaration.spacedBody rs ++ [])
      (Text.join ['\n'] ((collapseBlankLines false
        (emittedLines rs o.unfiltered)).reverse.reverse ++ [])) :=
    (h.of_solid hlines).join Spaced.empty
  rw [List.reverse_reverse, List.append_nil, List.append_nil, List.nil_append] at h'
  exact h'.trim (isTrimmed_of_mem_piecesAll isBody_spaced hrs)

end Stylesheet
end Galley
