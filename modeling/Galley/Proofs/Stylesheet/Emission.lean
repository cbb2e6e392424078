/-
# What the beautifier adds to a page

The beautifier writes on a page that holds what was written before, and it takes lines of that page
back: the empty lines behind the last child of a block.  It stops at the line of the opening brace,
which is never empty, so of what stood on the page before the block it takes nothing.

Every step therefore adds to a page what it writes on an empty one (`Page.Adds`).  A block does so
if its children do (`Page.Adds.block`), and so every tree does, at every level
(`Page.adds_emitRules`).  A page that is cleared before a tree and kept behind it gives every tree
its own text (`run_mapM_renderOnPage`).
-/

import Galley.Proofs.Stylesheet.Lines

namespace Galley
namespace Stylesheet
namespace Page

variable {o : Options} {level : Nat} {children : List Rule} {step step' : Page → Page}

/-- Whether a step leaves every page as it is and adds to it what it writes on an empty one.  A page
holds its last line first, so what is added comes before what is there. -/
def Adds (step : Page → Page) : Prop := ∀ page, step page = step [] ++ page

namespace Adds

/-- A step that puts the same lines before those of every page writes them on an empty one. -/
theorem of_eq {lines : Page} (h : ∀ page, step page = lines ++ page) : Adds step := by
  intro page
  rw [h page, h [], List.append_nil]

theorem comp (h' : Adds step') (h : Adds step) : Adds (step' ∘ step) := by
  intro page
  rw [Function.comp_apply, Function.comp_apply, h' (step page), h page, h' (step []),
    List.append_assoc]

end Adds

/-! ### Blocks -/

/-- **The line of an opening brace is not empty**, wherever the brace is placed. -/
theorem head?_openBrace_ne_nil (o : Options) (level : Nat) (head : Text) (page : Page) :
    ∀ line ∈ (openBrace o level head page).head?, line ≠ [] := by
  rw [openBrace_eq, headLines, List.reverse_append]
  rintro line ⟨⟩
  simp

/-- What is written in a block behind the line of its opening brace. -/
def behindBrace (o : Options) (level : Nat) (ds : List Declaration) (children : List Rule) :
    Page :=
  emitRules o (level + 1) children [] ++
    ((entryLines o (level + 1) (Declaration.inOrder o ds)).reverse ++
      blankLine (o.blankLineAfterBrace && hasContent o ds children))

theorem emitRules_openBlock (hc : Adds (emitRules o (level + 1) children)) (head : Text)
    (ds : List Declaration) (page : Page) :
    emitRules o (level + 1) children (openBlock o level head ds children page) =
      behindBrace o level ds children ++ openBrace o level head page := by
  rw [hc, openBlock_eq, behindBrace]
  simp only [List.append_assoc]

/-- **Lines are taken back only from behind the opening brace.** -/
theorem trimBlanks_behindBrace (o : Options) (level : Nat) (head : Text) (lines page : Page) :
    trimBlanks (lines ++ openBrace o level head page) =
      trimBlanks lines ++ openBrace o level head page :=
  trimBlanks_append (head?_openBrace_ne_nil o level head page) lines

/-- A block only adds lines if its children do. -/
theorem Adds.block (hc : Adds (emitRules o (level + 1) children)) (head : Text)
    (ds : List Declaration) :
    Adds fun page => closeBlock o level ds children
      (emitRules o (level + 1) children (openBlock o level head ds children page)) := by
  refine @of_eq _ (blankLine o.blankLineAfterRule ++ ((margin o level ++ ['}']) ::
    (blankLine (o.blankLineBeforeCloseBrace && hasContent o ds children) ++
      (trimBlanks (behindBrace o level ds children) ++ (headLines o level head).reverse)))) ?_
  intro page
  rw [emitRules_openBlock hc, closeBlock_eq, trimBlanks_behindBrace, openBrace_eq]
  simp only [List.append_assoc, List.cons_append]

/-! ### Trees -/

/-- **Rules only add lines**, at every level. -/
theorem adds_emitRules (o : Options) (level : Nat) (rs : List Rule) :
    Adds (emitRules o level rs) := by
  -- the rules of the list, one after the other
  have cons : ∀ level r rs, Adds (emitRule o level r) → Adds (emitRules o level rs) →
      Adds (emitRules o level (r :: rs)) := by
    intro level r rs hr hrs page
    rw [emitRules, emitRules]
    exact hrs.comp hr page
  induction rs using Rule.forest_induction generalizing level with
  | nil => exact fun page => rfl
  | comment t p rs ih =>
    refine cons level _ rs (fun page => ?_) (ih level)
    rw [emitRule, emitRule]
    split <;> rfl
  | statement k pre p rs ih =>
    refine cons level _ rs (fun page => ?_) (ih level)
    rw [emitRule, emitRule, blankIf_eq, blankIf_eq, List.append_assoc]
    rfl
  | group k pre ds children p rs ihc ih =>
    refine cons level _ rs (fun page => ?_) (ih level)
    rw [emitRule, emitRule]
    exact (ihc (level + 1)).block (Rule.heading k pre) ds page
  | style s ds children p rs ihc ih =>
    refine cons level _ rs (fun page => ?_) (ih level)
    rw [emitRule, emitRule]
    split
    · rfl
    · exact (ihc (level + 1)).block s ds page

end Page

/-! ### Several trees on one page -/

/-- **A page that held other lines gives a tree its own text**, and then holds its lines. -/
theorem run_renderOnPage (o : Options) (rs : List Rule) (page : Page) :
    (renderOnPage o rs).run page = (beautify rs o, (emittedLines rs o).reverse) := by
  rw [emittedLines, List.reverse_reverse]
  rfl

/-- Trees that are rendered one after the other on one page have their own texts. -/
theorem run_mapM_renderOnPage (o : Options) (trees : List (List Rule)) (page : Page) :
    ((trees.mapM (renderOnPage o)).run page).1 = trees.map fun rs => beautify rs o := by
  induction trees generalizing page with
  | nil => rfl
  | cons rs trees ih =>
    rw [List.mapM_cons, List.map_cons, ← ih (emittedLines rs o).reverse]
    simp only [StateT.run_bind, run_renderOnPage, StateT.run_pure]
    rfl

/-- **The beautifier only adds to a page.**  Several rules leave every page as it is, whatever it
holds, and add to it what they write on an empty one.  Inside a block the empty lines that are taken
back are among those written behind its opening brace.  So one page will do for several trees: each
has the text that it has on a page of its own. -/
theorem emission_framed (o : Options) :
    (∀ level rs page, Page.emitRules o level rs page = Page.emitRules o level rs [] ++ page) ∧
      (∀ level head ds children, ∃ lines, ∀ page,
        Page.emitRules o (level + 1) children (Page.openBlock o level head ds children page) =
            lines ++ Page.openBrace o level head page ∧
          Page.trimBlanks (lines ++ Page.openBrace o level head page) =
            Page.trimBlanks lines ++ Page.openBrace o level head page) ∧
      ∀ (trees : List (List Rule)) (page : Page),
        ((trees.mapM (renderOnPage o)).run page).1 = trees.map fun rs => beautify rs o := by
  refine ⟨Page.adds_emitRules o, ?_, run_mapM_renderOnPage o⟩
  intro level head ds children
  have hc : Page.Adds (Page.emitRules o (level + 1) children) :=
    Page.adds_emitRules o (level + 1) children
  refine ⟨Page.behindBrace o level ds children, fun page => ⟨?_, ?_⟩⟩
  · exact Page.emitRules_openBlock hc head ds page
  · exact Page.trimBlanks_behindBrace o level head _ page

end Stylesheet
end Galley
