/-
# What the printers write besides blanks

The two printers walk over a tree each in its own way; what they write besides blanks is the same
text (`solid_beautify`), of every tree and under all options.  Nothing is asked of the tree: its
texts may hold blanks, marks and line feeds, and need not be read back.

The walk of the beautifier is followed line by line.  `Page.ink` is what stands on a page besides
blanks, in the order of the lines; every step of the beautifier adds to it what the compact text
has at that place, or nothing where the step is about blank lines and indentation only.
-/

import Galley.Proofs.Stylesheet.Layout

namespace Galley

namespace Text

/-- The characters of a text that are not blank. -/
def solid (t : Text) : Text := t.filter fun c => !isBlank c

theorem solid_append (s t : Text) : solid (s ++ t) = solid s ++ solid t := List.filter_append ..

theorem solid_of_allBlank {t : Text} (h : t.allBlank = true) : solid t = [] := by
  rw [solid, List.filter_eq_nil_iff]
  intro c hc
  simp [List.all_eq_true.1 h c hc]

theorem solid_reverse (t : Text) : solid t.reverse = (solid t).reverse := List.filter_reverse ..

theorem solid_trimLeft (t : Text) : solid (trimLeft t) = solid t := by
  have hblank : solid (t.takeWhile isBlank) = [] := by
    refine solid_of_allBlank (List.all_eq_true.2 fun c hc => ?_)
    exact List.mem_takeWhile_imp hc
  have hsplit : solid t = solid (t.takeWhile isBlank ++ t.dropWhile isBlank) := by
    rw [List.takeWhile_append_dropWhile]
  rw [hsplit, solid_append, hblank]
  rfl

/-- Trimming takes off blanks only. -/
theorem solid_trim (t : Text) : solid (trim t) = solid t := by
  rw [trim, trimRight, solid_reverse, solid_trimLeft, solid_reverse, List.reverse_reverse,
    solid_trimLeft]

/-- Texts joined by blanks have the characters of the texts. -/
theorem solid_join {separator : Text} (h : separator.allBlank = true) (parts : List Text) :
    solid (join separator parts) = solid parts.flatten := by
  induction parts with
  | nil => rfl
  | cons part parts ih =>
    cases parts with
    | nil => simp [join]
    | cons part' parts =>
      rw [join] at ih
      rw [join, List.intercalate_cons_cons, solid_append, solid_append, solid_of_allBlank h, ih,
        List.append_nil, ← solid_append]
      rfl

end Text

namespace Stylesheet

variable {o : Options} {level : Nat} {page page' : Page}

/-! ### Lines -/

/-- Blank lines have no characters but blanks. -/
theorem solid_flatten_solidLines (lines : List Text) :
    Text.solid (solidLines lines).flatten = Text.solid lines.flatten := by
  induction lines with
  | nil => rfl
  | cons line lines ih =>
    cases hl : line.allBlank with
    | true =>
      rw [solidLines_cons_blank hl, ih, List.flatten_cons, Text.solid_append,
        Text.solid_of_allBlank hl, List.nil_append]
    | false =>
      rw [solidLines_cons_solid hl, List.flatten_cons, List.flatten_cons, Text.solid_append,
        Text.solid_append, ih]

/-! ### Declarations -/

/-- A declaration with spaces has the characters of one without. -/
theorem Declaration.solid_spaced (o : Options) (d : Declaration) :
    Text.solid (d.spaced o) = Text.solid d.compact := by
  have hcolon : Text.solid (if o.spaceAfterColon then ": ".toList else [':']) = [':'] := by
    split <;> decide
  have hbody : Text.solid (Text.join [' '] ([d.value, d.mark].filter fun part => !part.isEmpty)) =
      Text.solid (d.value ++ d.mark) := by
    rw [Text.solid_join (by decide), List.flatten_filter_not_isEmpty]
    simp
  rw [Declaration.spaced, Declaration.compact, Text.solid_append, Text.solid_append,
    Text.solid_append, hcolon, hbody]
  simp only [Text.solid_append, List.append_assoc]
  rfl

/-! ### Pages -/

namespace Page

/-- What stands on a page besides blanks. -/
def ink (page : Page) : Text := Text.solid page.reverse.flatten

theorem ink_cons (line : Text) (page : Page) :
    ink (line :: page) = ink page ++ Text.solid line := by
  rw [ink, List.reverse_cons, List.flatten_append, List.flatten_singleton, Text.solid_append]
  rfl

/-- Pages that differ in blank lines only have the same characters. -/
theorem ink_eq_of_solidLines (h : solidLines page' = solidLines page) : ink page' = ink page := by
  have hreverse : ∀ p : Page, ink p = Text.solid (solidLines p).reverse.flatten := by
    intro p
    rw [ink, ← solid_flatten_solidLines, solidLines, List.filter_reverse]
    rfl
  rw [hreverse, hreverse, h]

/-! ### Steps of the beautifier -/

theorem ink_write (o : Options) (level : Nat) (line : Text) (page : Page) :
    ink (write o level line page) = ink page ++ Text.solid line := by
  rw [write, ink_cons, Text.solid_append, Text.solid_of_allBlank (allBlank_margin o level),
    List.nil_append]

theorem ink_blankIf (wanted : Bool) (page : Page) : ink (blankIf wanted page) = ink page := by
  unfold blankIf
  split
  · rw [ink_cons]
    exact List.append_nil _
  · rfl

theorem ink_trimBlanks (page : Page) : ink (trimBlanks page) = ink page :=
  ink_eq_of_solidLines (solidLines_trimBlanks page)

/-- However the brace is placed, its head and the brace are written. -/
theorem ink_openBrace (o : Options) (level : Nat) (head : Text) (page : Page) :
    ink (openBrace o level head page) = ink page ++ Text.solid (head ++ ['{']) := by
  unfold openBrace
  split
  · split
    · rename_i he
      rw [List.isEmpty_iff.1 he, ink_write, List.nil_append]
    · rw [ink_write, ink_write, Text.solid_append, List.append_assoc]
  · split
    · have hbrace : Text.solid [' ', '{'] = Text.solid ['{'] := by decide
      rw [ink_write, Text.solid_append, Text.solid_append, hbrace]
    · rw [ink_write]

theorem ink_writeDeclarations (o : Options) (level : Nat) (ds : List Declaration) (page : Page) :
    ink (writeDeclarations o level ds page) =
      ink page ++ Text.solid ((Declaration.inOrder o ds).map Declaration.compact).flatten := by
  unfold writeDeclarations
  generalize Declaration.inOrder o ds = ds
  induction ds generalizing page with
  | nil => exact (List.append_nil _).symm
  | cons d ds ih =>
    rw [List.foldl_cons, ih, ink_write, Declaration.solid_spaced, List.map_cons, List.flatten_cons,
      Text.solid_append, List.append_assoc]

/-- **A block is written** as its head, the brace, its declarations, what its children add, and the
brace that closes it. -/
theorem ink_block {head inner : Text} {ds : List Declaration} {children : List Rule}
    {emit : Page → Page} (hemit : ∀ page, ink (emit page) = ink page ++ Text.solid inner) :
    ink (closeBlock o level ds children (emit (openBlock o level head ds children page))) =
      ink page ++ Text.solid (head ++ ['{'] ++
        ((Declaration.inOrder o ds).map Declaration.compact).flatten ++ inner ++ ['}']) := by
  rw [closeBlock, ink_blankIf, ink_write, ink_blankIf, ink_trimBlanks, hemit, openBlock,
    ink_writeDeclarations, ink_blankIf, ink_openBrace]
  simp only [Text.solid_append, List.append_assoc]

/-! ### Trees -/

/-- **The lines of a tree have the characters of its compact text.** -/
theorem ink_emitRules (o : Options) (level : Nat) (rs : List Rule) (page : Page) :
    ink (emitRules o level rs page) = ink page ++ Text.solid (minifyRules o rs) := by
  -- the rules of the list, one after the other
  have cons : ∀ level page r rs,
      ink (emitRule o level r page) = ink page ++ Text.solid (minifyRule o r) →
      (∀ page, ink (emitRules o level rs page) = ink page ++ Text.solid (minifyRules o rs)) →
      ink (emitRules o level (r :: rs) page) = ink page ++ Text.solid (minifyRules o (r :: rs)) := by
    intro level page r rs hr hrs
    rw [emitRules, hrs, hr, minifyRules, Text.solid_append, List.append_assoc]
  induction rs using Rule.forest_induction generalizing level page with
  | nil => exact (List.append_nil _).symm
  | comment t p rs ih =>
    refine cons level page _ rs ?_ (ih level)
    rw [emitRule, minifyRule]
    split
    · exact ink_write o level t page
    · exact (List.append_nil _).symm
  | statement k pre p rs ih =>
    refine cons level page _ rs ?_ (ih level)
    rw [emitRule, ink_blankIf, ink_write, minifyRule]
  | group k pre ds children p rs ihc ih =>
    refine cons level page _ rs ?_ (ih level)
    rw [emitRule, minifyRule, ink_block (ihc (level + 1))]
  | style s ds children p rs ihc ih =>
    refine cons level page _ rs ?_ (ih level)
    rw [emitRule, minifyRule]
    split
    · exact (List.append_nil _).symm
    · exact ink_block (ihc (level + 1))

end Page

/-- **The printers differ in blanks only.**  Of every tree, under all options, the text on lines and
the compact text have the same characters besides blanks, in the same order. -/
theorem solid_beautify (rs : List Rule) (o : Options) :
    Text.solid (beautify rs o) = Text.solid (minify rs o) := by
  have hpage : Text.solid (emittedLines rs o).flatten = Page.ink (Page.emitRules o 0 rs []) := rfl
  rw [beautify, Text.solid_trim, Text.solid_join (by decide), ← solid_flatten_solidLines,
    solidLines_collapseBlankLines, solid_flatten_solidLines, hpage, Page.ink_emitRules]
  rfl

end Stylesheet
end Galley
