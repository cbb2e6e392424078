/-
# The lines of a tree

The beautifier emits lines, takes blank ones back at the end of a block, shortens the runs of blank
lines in what it has emitted and trims the text.  What comes of this is a list of lines by recursion
on the tree, in which nothing is emitted that does not stay:

| construct | lines |
| --- | --- |
| comment | its text |
| at-rule without a block | its heading with a semicolon |
| block | its head with the brace, its content if it has any, the closing brace |
| content | the declarations and the rules inside, with blank lines at both ends if wanted |
| rules | the lines of one after the other, with a blank line behind all but the last if wanted |

No two blank lines are adjacent there, so nothing is left to be shortened, and no line is blank at
either end of the text, so nothing is left to be trimmed but the line feed behind the last rule:
`beautify_eq_join`.
-/

import Galley.Proofs.Stylesheet.Layout
import Galley.Proofs.Text.Words

namespace Galley
namespace Stylesheet

/-! ### Lines by recursion -/

/-- A blank line if wanted. -/
def blankLine (wanted : Bool) : List Text := if wanted then [[]] else []

/-- What stands before an opening brace on its line. -/
def beforeBrace (o : Options) (head : Text) : Text :=
  if o.newlineBeforeBrace then []
  else if !head.isEmpty && o.spaceBeforeBrace then head ++ [' '] else head

/-- The line of a head before that of its opening brace, if there is one. -/
def ownLines (o : Options) (level : Nat) (head : Text) : List Text :=
  if o.newlineBeforeBrace && !head.isEmpty then [Page.margin o level ++ head] else []

/-- The lines of the head of a block; the opening brace is at the end of the last of them. -/
def headLines (o : Options) (level : Nat) (head : Text) : List Text :=
  ownLines o level head ++ [Page.margin o level ++ (beforeBrace o head ++ ['{'])]

/-- The lines of declarations. -/
def entryLines (o : Options) (level : Nat) (ds : List Declaration) : List Text :=
  ds.map fun d => Page.margin o level ++ d.spaced o

/-- What stands between two braces: blank lines only if there is something else. -/
def padded (o : Options) (content : List Text) : List Text :=
  if content.isEmpty then []
  else blankLine o.blankLineAfterBrace ++ content ++ blankLine o.blankLineBeforeCloseBrace

/-- The lines of a block with its head. -/
def blockLines (o : Options) (level : Nat) (head : Text) (content : List Text) : List Text :=
  headLines o level head ++ (padded o content ++ [Page.margin o level ++ ['}']])

namespace Rule

/-- Whether a blank line is wanted behind a rule; a comment belongs to what follows it. -/
def wantsGap (o : Options) : Rule → Bool
  | .comment _ _ => false
  | _ => o.blankLineAfterRule

mutual
/-- The lines of a rule. -/
def lines (o : Options) (level : Nat) : Rule → List Text
  | .comment t _ => [Page.margin o level ++ t]
  | .statement k pre _ => [Page.margin o level ++ (heading k pre ++ [';'])]
  | .group k pre ds children _ =>
    blockLines o level (heading k pre)
      (entryLines o (level + 1) ds ++ linesAll o (level + 1) children)
  | .style s ds children _ =>
    blockLines o level s (entryLines o (level + 1) ds ++ linesAll o (level + 1) children)

/-- The lines of several rules. -/
def linesAll (o : Options) (level : Nat) : List Rule → List Text
  | [] => []
  | r :: rs =>
    lines o level r ++
      (if rs.isEmpty then [] else blankLine (wantsGap o r) ++ linesAll o level rs)
end

/-- Whether a blank line is emitted behind several rules; it does not stay. -/
def wantsLastGap (o : Options) : List Rule → Bool
  | [] => false
  | r :: rs => if rs.isEmpty then wantsGap o r else wantsLastGap o rs

end Rule

variable {o : Options} {level : Nat} {r : Rule} {rs : List Rule} {a b lines : List Text}

theorem blankIf_eq (wanted : Bool) (page : Page) :
    Page.blankIf wanted page = blankLine wanted ++ page := by
  cases wanted <;> rfl

theorem reverse_blankLine (wanted : Bool) : (blankLine wanted).reverse = blankLine wanted := by
  cases wanted <;> rfl

theorem openBrace_eq (o : Options) (level : Nat) (head : Text) (page : Page) :
    Page.openBrace o level head page = (headLines o level head).reverse ++ page := by
  unfold Page.openBrace headLines ownLines beforeBrace
  cases o.newlineBeforeBrace with
  | true => cases head <;> rfl
  | false =>
    cases !head.isEmpty && o.spaceBeforeBrace with
    | true => simp [Page.write]
    | false => rfl

theorem writeDeclarations_eq (o : Options) (level : Nat) (ds : List Declaration) (page : Page) :
    Page.writeDeclarations o level ds page =
      (entryLines o level (Declaration.inOrder o ds)).reverse ++ page := by
  rw [Page.writeDeclarations]
  generalize Declaration.inOrder o ds = ds
  induction ds generalizing page with
  | nil => rfl
  | cons d ds ih =>
    rw [List.foldl_cons, ih, show entryLines o level (d :: ds) =
      (Page.margin o level ++ d.spaced o) :: entryLines o level ds from rfl, List.reverse_cons,
      List.append_assoc]
    rfl

/-! ### First and last lines -/

/-- Whether a line consists of the margin of a level and a trimmed text. -/
def Stands (o : Options) (level : Nat) (line : Text) : Prop :=
  ∃ t, line = Page.margin o level ++ t ∧ t ≠ [] ∧ IsTrimmed t

theorem Stands.not_allBlank {line : Text} (h : Stands o level line) : line.allBlank = false := by
  obtain ⟨t, rfl, hne, ht⟩ := h
  rw [allBlank_append, ht.not_allBlank hne, Bool.and_false]

/-- A text that begins with no blank and has a mark behind it. -/
theorem isTrimmed_append_mark {c : Char} (hc : isPunctuation c = true) {t : Text}
    (ht : ∀ c ∈ t.head?, Text.isBlank c = false) : IsTrimmed (t ++ [c]) where
  head := by
    cases t with
    | nil => simpa using isBlank_of_isPunctuation hc
    | cons d ds => simpa using ht
  last := by
    rw [List.getLast?_concat]
    rintro d ⟨⟩
    exact isBlank_of_isPunctuation hc

theorem stands_mark {c : Char} (hc : isPunctuation c = true) :
    Stands o level (Page.margin o level ++ [c]) :=
  ⟨[c], rfl, List.cons_ne_nil _ _, isTrimmed_append_mark (t := []) hc (by simp)⟩

/-- The text of the line of an opening brace is trimmed. -/
theorem isTrimmed_beforeBrace {head : Text} (hh : IsTrimmed head) :
    IsTrimmed (beforeBrace o head ++ ['{']) := by
  refine isTrimmed_append_mark rfl ?_
  unfold beforeBrace
  split
  · simp
  · split
    · rename_i hsp
      have hne : head ≠ [] := by
        rw [Bool.and_eq_true, Bool.not_eq_true', List.isEmpty_eq_false_iff] at hsp
        exact hsp.1
      rw [List.head?_append_of_ne_nil _ hne]
      exact hh.head
    · exact hh.head

theorem headLines_ne_nil (o : Options) (level : Nat) (head : Text) :
    headLines o level head ≠ [] := by
  simp [headLines]

/-- A head has a line of its own only if it has a text. -/
theorem of_mem_ownLines {head line : Text} (h : line ∈ ownLines o level head) :
    head ≠ [] ∧ line = Page.margin o level ++ head := by
  unfold ownLines at h
  split at h
  · rename_i hne
    rw [Bool.and_eq_true, Bool.not_eq_true', List.isEmpty_eq_false_iff] at hne
    exact ⟨hne.2, List.mem_singleton.1 h⟩
  · simp at h

/-- Every line of a head stands at its level. -/
theorem stands_headLines {head : Text} (hh : IsTrimmed head) :
    ∀ line ∈ headLines o level head, Stands o level line := by
  refine List.forall_mem_append.2 ⟨fun line hl => ?_, List.forall_mem_singleton.2 ?_⟩
  · obtain ⟨hne, rfl⟩ := of_mem_ownLines hl
    exact ⟨head, rfl, hne, hh⟩
  · exact ⟨_, rfl, by simp, isTrimmed_beforeBrace hh⟩

/-- The first and the last line of a rule stand at its level. -/
theorem stands_ends_lines {inner : Bool} (h : r.WellFormed inner) :
    (∀ line ∈ (r.lines o level).head?, Stands o level line) ∧
      ∀ line ∈ (r.lines o level).getLast?, Stands o level line := by
  have single : ∀ t : Text, t ≠ [] → IsTrimmed t →
      (∀ line ∈ [Page.margin o level ++ t].head?, Stands o level line) ∧
        ∀ line ∈ [Page.margin o level ++ t].getLast?, Stands o level line := by
    intro t hne ht
    have hs : Stands o level (Page.margin o level ++ t) := ⟨t, rfl, hne, ht⟩
    simpa using hs
  have block : ∀ (head : Text) (content : List Text), IsTrimmed head →
      (∀ line ∈ (blockLines o level head content).head?, Stands o level line) ∧
        ∀ line ∈ (blockLines o level head content).getLast?, Stands o level line := by
    intro head content hh
    refine ⟨fun line hl => stands_headLines hh line ?_, fun line hl => ?_⟩
    · rw [blockLines, List.head?_append_of_ne_nil _ (headLines_ne_nil o level head)] at hl
      exact List.mem_of_mem_head? hl
    · rw [blockLines, ← List.append_assoc, List.getLast?_concat, Option.mem_some_iff] at hl
      exact hl ▸ stands_mark rfl
  cases r with
  | comment t p =>
    obtain ⟨ht, hne⟩ := IsComment.isTrimmed h
    exact single t hne ht
  | statement k pre p =>
    obtain ⟨hk, hpre⟩ := h
    exact single _ (by simp)
      (isTrimmed_append_mark rfl (hk.isTidy_heading hpre).isTrimmed.head)
  | group k pre ds children p =>
    obtain ⟨hk, hpre, -, -⟩ := h
    exact block _ _ (hk.isTidy_heading hpre).isTrimmed
  | style s ds children p => exact block _ _ h.1.phrase.tidy.isTrimmed

theorem lines_ne_nil (o : Options) (level : Nat) (r : Rule) : r.lines o level ≠ [] := by
  cases r <;> simp [Rule.lines, blockLines, headLines_ne_nil]

theorem isEmpty_linesAll (o : Options) (level : Nat) (rs : List Rule) :
    (Rule.linesAll o level rs).isEmpty = rs.isEmpty := by
  cases rs with
  | nil => rfl
  | cons r rs => simp [Rule.linesAll, lines_ne_nil]

/-! ### Blank lines apart -/

/-- Lines that neither begin nor end with a blank one and of which no two adjacent ones are
blank. -/
structure Firm (lines : List Text) : Prop where
  head : ∀ line ∈ lines.head?, line.allBlank = false
  last : ∀ line ∈ lines.getLast?, line.allBlank = false
  apart : lines.IsChain fun a b => a.allBlank = false ∨ b.allBlank = false

namespace Firm

theorem nil : Firm [] := ⟨by simp, by simp, .nil⟩

theorem of_solid (h : ∀ line ∈ lines, line.allBlank = false) : Firm lines where
  head line hl := h line (List.mem_of_mem_head? hl)
  last line hl := h line (List.mem_of_getLast? hl)
  apart := by
    rw [List.isChain_iff_forall_rel_of_append_cons_cons]
    rintro a b before after rfl
    exact Or.inl (h a (by simp))

theorem append (ha : Firm a) (hb : Firm b) : Firm (a ++ b) where
  head line hl := by
    rw [List.head?_append, Option.mem_def, Option.or_eq_some_iff] at hl
    rcases hl with hl | ⟨-, hl⟩
    · exact ha.head line hl
    · exact hb.head line hl
  last line hl := by
    rw [List.getLast?_append, Option.mem_def, Option.or_eq_some_iff] at hl
    rcases hl with hl | ⟨-, hl⟩
    · exact hb.last line hl
    · exact ha.last line hl
  apart := List.isChain_append.2 ⟨ha.apart, hb.apart, fun line hl _ _ => Or.inl (ha.last line hl)⟩

/-- A blank line may stand between lines. -/
theorem beside (wanted : Bool) (ha : Firm a) (hb : Firm b) (hane : a ≠ []) (hbne : b ≠ []) :
    Firm (a ++ (blankLine wanted ++ b)) := by
  cases wanted with
  | false => exact ha.append hb
  | true =>
    refine ⟨?_, ?_, ?_⟩
    · rw [List.head?_append_of_ne_nil a hane]
      exact ha.head
    · rw [← List.append_assoc, List.getLast?_append_of_ne_nil _ hbne]
      exact hb.last
    · refine List.isChain_append.2 ⟨ha.apart, List.isChain_cons.2 ⟨?_, hb.apart⟩, ?_⟩
      · exact fun line hl => Or.inr (hb.head line hl)
      · exact fun line hl _ _ => Or.inl (ha.last line hl)

end Firm

/-- The lines of a block are firm if its content is. -/
theorem firm_blockLines {head : Text} {content : List Text} (hh : IsTrimmed head)
    (hc : Firm content) : Firm (blockLines o level head content) := by
  have hhead : Firm (headLines o level head) :=
    .of_solid fun line hl => (stands_headLines hh line hl).not_allBlank
  have hclose : Firm [Page.margin o level ++ ['}']] :=
    .of_solid (List.forall_mem_singleton.2 (stands_mark rfl).not_allBlank)
  rw [blockLines, padded]
  split
  · exact hhead.append hclose
  · rename_i hne
    have hne : content ≠ [] := by simpa using hne
    rw [List.append_assoc, List.append_assoc]
    refine hhead.beside _ (hc.beside _ hclose hne (by simp)) (headLines_ne_nil o level head) ?_
    simp

theorem firm_entryLines (o : Options) (level : Nat) (ds : List Declaration) :
    Firm (entryLines o level ds) := by
  refine .of_solid fun line hl => ?_
  obtain ⟨d, -, rfl⟩ := List.mem_map.1 hl
  rw [allBlank_append, Declaration.spaced, not_allBlank_append rfl, Bool.and_false]

/-- **No two blank lines of a tree are adjacent, and none is at either end.** -/
theorem firm_linesAll {inner : Bool} (h : Rule.AllWellFormed inner rs) :
    Firm (Rule.linesAll o level rs) := by
  -- the rules of the list, one before the others
  have cons : ∀ {level : Nat} {r : Rule} {rs : List Rule}, Firm (r.lines o level) →
      Firm (Rule.linesAll o level rs) → Firm (Rule.linesAll o level (r :: rs)) := by
    intro level r rs hr hrs
    rw [Rule.linesAll]
    split
    · rwa [List.append_nil]
    · rename_i hne
      refine hr.beside _ hrs (lines_ne_nil o level r) ?_
      rwa [Ne, ← List.isEmpty_iff, isEmpty_linesAll]
  induction rs using Rule.forest_induction generalizing inner level with
  | nil => exact .nil
  | comment t p rs ih =>
    refine cons (.of_solid (List.forall_mem_singleton.2 ?_)) (ih h.2)
    exact (stands_ends_lines h.1).1 _ rfl |>.not_allBlank
  | statement k pre p rs ih =>
    refine cons (.of_solid (List.forall_mem_singleton.2 ?_)) (ih h.2)
    exact (stands_ends_lines h.1).1 _ rfl |>.not_allBlank
  | group k pre ds children p rs ihc ih =>
    obtain ⟨⟨hk, hpre, -, hc⟩, hrs⟩ := h
    exact cons (firm_blockLines (hk.isTidy_heading hpre).isTrimmed
      ((firm_entryLines o _ ds).append (ihc hc))) (ih hrs)
  | style s ds children p rs ihc ih =>
    obtain ⟨⟨hs, -, -, hc⟩, hrs⟩ := h
    exact cons (firm_blockLines hs.phrase.tidy.isTrimmed
      ((firm_entryLines o _ ds).append (ihc hc))) (ih hrs)

/-! ### What is emitted -/

/-- **Blank lines are taken back up to a line that is not empty**: what stands behind such a line is
shortened as if it stood alone. -/
theorem trimBlanks_append {page : Page} (h : ∀ line ∈ page.head?, line ≠ []) (lines : Page) :
    Page.trimBlanks (lines ++ page) = Page.trimBlanks lines ++ page := by
  have hpage : Page.trimBlanks page = page := by
    cases page with
    | nil => rfl
    | cons line page => exact List.dropWhile_cons_of_neg (by simpa using h line rfl)
  unfold Page.trimBlanks at hpage ⊢
  rw [List.dropWhile_append]
  split
  · rename_i hlines
    rw [List.isEmpty_iff.1 hlines, hpage]
    rfl
  · rfl

theorem trimBlanks_blankLine_append {page : Page} (wanted : Bool)
    (h : ∀ line ∈ page.head?, line.allBlank = false) :
    Page.trimBlanks (blankLine wanted ++ page) = page := by
  have hblank : Page.trimBlanks (blankLine wanted) = [] := by cases wanted <;> rfl
  rw [trimBlanks_append, hblank, List.nil_append]
  rintro line hl rfl
  exact absurd (h [] hl) (by decide)

/-- What comes before the rules inside a block. -/
theorem openBlock_eq (o : Options) (level : Nat) (head : Text) (ds : List Declaration)
    (children : List Rule) (page : Page) :
    Page.openBlock o level head ds children page =
      (entryLines o (level + 1) (Declaration.inOrder o ds)).reverse ++
        (blankLine (o.blankLineAfterBrace && Page.hasContent o ds children) ++
          Page.openBrace o level head page) := by
  rw [Page.openBlock, writeDeclarations_eq, blankIf_eq]

/-- What comes after the rules inside a block. -/
theorem closeBlock_eq (o : Options) (level : Nat) (ds : List Declaration) (children : List Rule)
    (page : Page) :
    Page.closeBlock o level ds children page =
      blankLine o.blankLineAfterRule ++ ((Page.margin o level ++ ['}']) ::
        (blankLine (o.blankLineBeforeCloseBrace && Page.hasContent o ds children) ++
          Page.trimBlanks page)) := by
  rw [Page.closeBlock, blankIf_eq, blankIf_eq]
  rfl

/-- Options that filter nothing print the declarations of a block as they stand. -/
theorem openBlock_unfiltered (o : Options) (level : Nat) (head : Text) (ds : List Declaration)
    (children : List Rule) (page : Page) :
    Page.openBlock o.unfiltered level head ds children page =
      (entryLines o (level + 1) ds).reverse ++
        (blankLine (o.blankLineAfterBrace && Page.hasContent o.unfiltered ds children) ++
          ((headLines o level head).reverse ++ page)) := by
  rw [openBlock_eq, openBrace_eq, Declaration.inOrder_unfiltered]
  rfl

theorem closeBlock_unfiltered (o : Options) (level : Nat) (ds : List Declaration)
    (children : List Rule) (page : Page) :
    Page.closeBlock o.unfiltered level ds children page =
      blankLine o.blankLineAfterRule ++ ((Page.margin o level ++ ['}']) ::
        (blankLine (o.blankLineBeforeCloseBrace && Page.hasContent o.unfiltered ds children) ++
          Page.trimBlanks page)) :=
  closeBlock_eq o.unfiltered level ds children page

/-- A block has content where its lines have. -/
theorem hasContent_eq (o : Options) (level : Nat) (ds : List Declaration) (children : List Rule) :
    Page.hasContent o.unfiltered ds children =
      !(entryLines o level ds ++ Rule.linesAll o level children).isEmpty := by
  have hany : (children.any fun r => !r.skipped o.unfiltered) = !children.isEmpty := by
    cases children with
    | nil => rfl
    | cons r rs => simp [Rule.skipped_unfiltered]
  have hds : (entryLines o level ds).isEmpty = ds.isEmpty := by cases ds <;> rfl
  rw [Page.hasContent, hany, ← isEmpty_linesAll o level children, ← hds]
  cases entryLines o level ds <;> rfl

/-- **What is emitted for a block**, given what is emitted for the rules inside. -/
theorem emitBlock_eq {head : Text} {ds : List Declaration} {children : List Rule} {wanted : Bool}
    (hh : IsTrimmed head)
    (hc : Firm (entryLines o (level + 1) ds ++ Rule.linesAll o (level + 1) children))
    (hemit : ∀ page, Page.emitRules o.unfiltered (level + 1) children page =
      blankLine wanted ++ ((Rule.linesAll o (level + 1) children).reverse ++ page))
    (page : Page) :
    Page.closeBlock o.unfiltered level ds children
        (Page.emitRules o.unfiltered (level + 1) children
          (Page.openBlock o.unfiltered level head ds children page)) =
      blankLine o.blankLineAfterRule ++ ((blockLines o level head
        (entryLines o (level + 1) ds ++ Rule.linesAll o (level + 1) children)).reverse ++
          page) := by
  have hlast : ∀ line ∈ (headLines o level head).getLast?, line.allBlank = false := fun line hl =>
    (stands_headLines hh line (List.mem_of_getLast? hl)).not_allBlank
  rw [hemit, openBlock_unfiltered, closeBlock_unfiltered, hasContent_eq o (level + 1),
    ← List.append_assoc (Rule.linesAll _ _ _).reverse, ← List.reverse_append]
  generalize entryLines o (level + 1) ds ++ Rule.linesAll o (level + 1) children = content at hc ⊢
  rw [blockLines, padded]
  -- without content the last line before the closing brace is that of the opening brace
  cases content with
  | nil =>
    rw [trimBlanks_blankLine_append]
    · simp [blankLine]
    · rw [List.isEmpty_nil, Bool.not_true, Bool.and_false]
      simpa [blankLine, headLines_ne_nil, List.head?_append] using hlast
  | cons line lines =>
    rw [trimBlanks_blankLine_append]
    · simp [reverse_blankLine]
    · rw [List.head?_append_of_ne_nil _ (by simp), List.head?_reverse]
      exact hc.last

/-- **What is emitted for a tree**: its lines, and a blank line behind them if the last rule wants
one. -/
theorem emitRules_eq {inner : Bool} (h : Rule.AllWellFormed inner rs) (page : Page) :
    Page.emitRules o.unfiltered level rs page =
      blankLine (Rule.wantsLastGap o rs) ++ ((Rule.linesAll o level rs).reverse ++ page) := by
  -- the rules of the list, one before the others
  have cons : ∀ {level : Nat} {r : Rule} {rs : List Rule} {page : Page},
      (Page.emitRule o.unfiltered level r page =
        blankLine (r.wantsGap o) ++ ((r.lines o level).reverse ++ page)) →
      (∀ page, Page.emitRules o.unfiltered level rs page =
        blankLine (Rule.wantsLastGap o rs) ++ ((Rule.linesAll o level rs).reverse ++ page)) →
      Page.emitRules o.unfiltered level (r :: rs) page =
        blankLine (Rule.wantsLastGap o (r :: rs)) ++
          ((Rule.linesAll o level (r :: rs)).reverse ++ page) := by
    intro level r rs page hr hrs
    rw [Page.emitRules, hr]
    cases rs with
    | nil => simp [Page.emitRules, Rule.linesAll, Rule.wantsLastGap]
    | cons r' rs =>
      have hlines : Rule.linesAll o level (r :: r' :: rs) =
          r.lines o level ++ (blankLine (r.wantsGap o) ++ Rule.linesAll o level (r' :: rs)) := by
        rw [Rule.linesAll]
        rfl
      rw [hrs, hlines, List.reverse_append, List.reverse_append, reverse_blankLine]
      simp only [List.append_assoc]
      rfl
  induction rs using Rule.forest_induction generalizing inner level page with
  | nil => rfl
  | comment t p rs ih => exact cons rfl (ih h.2)
  | statement k pre p rs ih =>
    refine cons ?_ (ih h.2)
    rw [Page.emitRule, blankIf_eq]
    rfl
  | group k pre ds children p rs ihc ih =>
    obtain ⟨⟨hk, hpre, -, hc⟩, hrs⟩ := h
    exact cons (emitBlock_eq (hk.isTidy_heading hpre).isTrimmed
      ((firm_entryLines o _ ds).append (firm_linesAll hc)) (ihc hc) page) (ih hrs)
  | style s ds children p rs ihc ih =>
    obtain ⟨⟨hs, -, -, hc⟩, hrs⟩ := h
    exact cons (emitBlock_eq hs.phrase.tidy.isTrimmed
      ((firm_entryLines o _ ds).append (firm_linesAll hc)) (ihc hc) page) (ih hrs)

/-! ### What is left of it -/

/-- Blank lines that are apart stay. -/
theorem collapseBlankLines_eq {after : Bool} (h : lines.IsChain fun a b =>
      a.allBlank = false ∨ b.allBlank = false)
    (hafter : after = true → ∀ line ∈ lines.head?, line.allBlank = false) :
    collapseBlankLines after lines = lines := by
  induction lines generalizing after with
  | nil => rfl
  | cons line lines ih =>
    obtain ⟨hhead, htail⟩ := List.isChain_cons.1 h
    rw [collapseBlankLines]
    cases hl : line.allBlank with
    | true =>
      have hlines : ∀ line' ∈ lines.head?, line'.allBlank = false := fun line' hl' =>
        (hhead line' hl').resolve_left (by simp [hl])
      cases after with
      | true => exact absurd (hafter rfl line rfl) (by simp [hl])
      | false =>
        rw [if_pos rfl, if_neg (by simp), ih htail fun _ => hlines]
    | false => rw [if_neg (by simp), ih htail (by simp)]

/-- A trimmed text with blanks behind it is trimmed to it. -/
theorem IsTrimmed.trim_append {t ws : Text} (h : IsTrimmed t) (hws : ws.allBlank = true) :
    Text.trim (t ++ ws) = t := by
  have left : ∀ u : Text, (∀ c ∈ u.head?, Text.isBlank c = false) → Text.trimLeft u = u := by
    intro u hu
    cases u with
    | nil => rfl
    | cons c cs => exact Text.trimLeft_of_solid (hu c rfl) cs
  have hws' : ∀ c ∈ ws.reverse, Text.isBlank c = true := fun c hc =>
    List.all_eq_true.1 hws c (List.mem_reverse.1 hc)
  cases t with
  | nil =>
    have hblank : Text.trimLeft ws = [] := List.dropWhile_eq_nil_iff.2 (List.all_eq_true.1 hws)
    rw [List.nil_append, Text.trim, hblank]
    rfl
  | cons c cs =>
    rw [Text.trim, left (c :: cs ++ ws) h.head, Text.trimRight, List.reverse_append, Text.trimLeft,
      List.dropWhile_append_of_pos hws', ← Text.trimLeft, left _ h.reverse.head,
      List.reverse_reverse]

/-- A text of lines ends as the last of them if that is not empty. -/
theorem getLast?_join {line : Text} (hl : line ∈ lines.getLast?) (hne : line ≠ []) :
    (Text.join ['\n'] lines).getLast? = line.getLast? := by
  induction lines with
  | nil => simp at hl
  | cons l ls ih =>
    cases ls with
    | nil =>
      obtain rfl : l = line := by simpa using hl
      rw [Text.join, List.intercalate_singleton]
    | cons l' ls =>
      have hrest := ih (by simpa using hl)
      have hlast : line.getLast? ≠ none := by simpa using hne
      rw [Text.join, List.intercalate_cons_cons, List.getLast?_append, ← Text.join, hrest]
      exact Option.or_of_isSome (Option.isSome_iff_ne_none.2 hlast)

theorem join_concat_nil (hne : lines ≠ []) :
    Text.join ['\n'] (lines ++ [[]]) = Text.join ['\n'] lines ++ ['\n'] := by
  induction lines with
  | nil => exact absurd rfl hne
  | cons l ls ih =>
    cases ls with
    | nil => simp [Text.join]
    | cons l' ls =>
      have hrest := ih (List.cons_ne_nil l' ls)
      simp only [Text.join, List.cons_append, List.intercalate_cons_cons] at hrest ⊢
      rw [hrest]
      simp only [List.append_assoc]

theorem stands_getLast_linesAll {inner : Bool} (h : Rule.AllWellFormed inner rs) :
    ∀ line ∈ (Rule.linesAll o level rs).getLast?, Stands o level line := by
  induction rs with
  | nil => simp [Rule.linesAll]
  | cons r rs ih =>
    rw [Rule.linesAll]
    split
    · rw [List.append_nil]
      exact (stands_ends_lines h.1).2
    · rename_i hne
      have hrest : Rule.linesAll o level rs ≠ [] := by
        rwa [Ne, ← List.isEmpty_iff, isEmpty_linesAll]
      rw [← List.append_assoc, List.getLast?_append_of_ne_nil _ hrest]
      exact ih h.2

/-- A line that stands outside of blocks is a trimmed text. -/
theorem Stands.isTrimmed {line : Text} (h : Stands o 0 line) : line ≠ [] ∧ IsTrimmed line := by
  obtain ⟨t, rfl, hne, ht⟩ := h
  exact ⟨hne, ht⟩

/-- The text of a tree on lines is trimmed. -/
theorem isTrimmed_join_linesAll {inner : Bool} (h : Rule.AllWellFormed inner rs) :
    IsTrimmed (Text.join ['\n'] (Rule.linesAll o 0 rs)) where
  head := by
    cases rs with
    | nil => simp [Rule.linesAll, Text.join]
    | cons r rs =>
      obtain ⟨line, lines, hlines⟩ := List.exists_cons_of_ne_nil (lines_ne_nil o 0 r)
      have hline : Stands o 0 line := (stands_ends_lines h.1).1 line (by rw [hlines]; rfl)
      obtain ⟨hne, ht⟩ := hline.isTrimmed
      obtain ⟨c, cs, rfl⟩ := List.exists_cons_of_ne_nil hne
      rw [Rule.linesAll, hlines, List.cons_append]
      cases lines ++ (if rs.isEmpty then []
        else blankLine (r.wantsGap o) ++ Rule.linesAll o 0 rs) with
      | nil => simpa [Text.join] using ht.head
      | cons l ls => simpa [Text.join, List.intercalate_cons_cons] using ht.head
  last := by
    cases hl : (Rule.linesAll o 0 rs).getLast? with
    | none =>
      rw [List.getLast?_eq_none_iff.1 hl]
      simp [Text.join]
    | some line =>
      obtain ⟨hne, ht⟩ := (stands_getLast_linesAll h line hl).isTrimmed
      rw [getLast?_join hl hne]
      exact ht.last

/-- **Text on lines is that of the lines of the tree, joined by line feeds.** -/
theorem beautify_eq_join {inner : Bool} (h : Rule.AllWellFormed inner rs) :
    beautify rs o.unfiltered = Text.join ['\n'] (Rule.linesAll o 0 rs) := by
  have hfirm : Firm (Rule.linesAll o 0 rs) := firm_linesAll h
  have htrimmed : IsTrimmed (Text.join ['\n'] (Rule.linesAll o 0 rs)) := isTrimmed_join_linesAll h
  rw [beautify, emittedLines, emitRules_eq h, List.append_nil, List.reverse_append,
    List.reverse_reverse, reverse_blankLine]
  cases hgap : Rule.wantsLastGap o rs with
  | false =>
    rw [show blankLine false = [] from rfl, List.append_nil,
      collapseBlankLines_eq hfirm.apart (by simp)]
    have htrim := htrimmed.trim_append (show Text.allBlank [] = true from rfl)
    rwa [List.append_nil] at htrim
  | true =>
    have hne : Rule.linesAll o 0 rs ≠ [] := by
      rw [Ne, ← List.isEmpty_iff, isEmpty_linesAll]
      cases rs with
      | nil => simp [Rule.wantsLastGap] at hgap
      | cons r rs => simp
    have hapart : (Rule.linesAll o 0 rs ++ blankLine true).IsChain fun a b =>
        a.allBlank = false ∨ b.allBlank = false :=
      List.isChain_append.2 ⟨hfirm.apart, .singleton _, fun line hl _ _ =>
        Or.inl (hfirm.last line hl)⟩
    rw [collapseBlankLines_eq hapart (by simp), show blankLine true = [[]] from rfl,
      join_concat_nil hne]
    exact htrimmed.trim_append (by decide)

end Stylesheet
end Galley
