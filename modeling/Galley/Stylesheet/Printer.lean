/-
# Printers of rule trees

`minify` writes a tree without any separators.  `beautify` writes one construct on a line, indents
it by its depth and separates rules by blank lines as the options say.

The beautifier emits lines onto a page that holds them last line first.  When a block ends, the
blank lines at the end of the page are taken back: what separates the last child from its next
sibling is not wanted before a closing brace.  The line of the opening brace is never blank, so
the lines before a block stay as they are.
-/

import Galley.Stylesheet.Options
import Galley.Stylesheet.Rule
import Galley.Text.Blank

namespace Galley
namespace Stylesheet

namespace Declaration

/-- Declarations in the order in which they are printed: as they stand, or sorted by property
with equal properties as they stand. -/
def inOrder (o : Options) (ds : List Declaration) : List Declaration :=
  if o.sortDeclarations then ds.mergeSort fun a b => Text.le a.property b.property else ds

/-- The mark of an important declaration. -/
def mark (d : Declaration) : Text := if d.important then "!important".toList else []

/-- A declaration with a space after the colon, if wanted, and one before the mark. -/
def spaced (o : Options) (d : Declaration) : Text :=
  d.property ++ (if o.spaceAfterColon then ": ".toList else [':']) ++
    Text.join [' '] ([d.value, d.mark].filter fun part => !part.isEmpty) ++ [';']

/-- A declaration without spaces of the printer's own. -/
def compact (d : Declaration) : Text := d.property ++ [':'] ++ d.value ++ d.mark ++ [';']

end Declaration

namespace Rule

/-- The keyword of an at-rule and its prelude, if it has one. -/
def heading (keyword prelude : Text) : Text :=
  if prelude.isEmpty then keyword else keyword ++ [' '] ++ prelude

/-- Whether the options leave a rule out. -/
def skipped (o : Options) : Rule → Bool
  | .comment _ _ => !o.preserveComments
  | .style s ds children p => o.dropEmptyRules && isEmpty (.style s ds children p)
  | _ => false

end Rule

/-! ### Compact text -/

mutual
/-- The compact text of a rule. -/
def minifyRule (o : Options) : Rule → Text
  | .comment t _ => if o.preserveComments then t else []
  | .statement k pre _ => Rule.heading k pre ++ [';']
  | .group k pre ds children _ =>
    Rule.heading k pre ++ ['{'] ++ ((Declaration.inOrder o ds).map Declaration.compact).flatten ++
      minifyRules o children ++ ['}']
  | .style s ds children p =>
    if o.dropEmptyRules && Rule.isEmpty (.style s ds children p) then []
    else
      s ++ ['{'] ++ ((Declaration.inOrder o ds).map Declaration.compact).flatten ++
        minifyRules o children ++ ['}']

/-- The compact text of several rules. -/
def minifyRules (o : Options) : List Rule → Text
  | [] => []
  | r :: rs => minifyRule o r ++ minifyRules o rs
end

/-- The compact text of a rule tree. -/
def minify (rules : List Rule) (o : Options) : Text := minifyRules o rules

/-! ### Text on lines -/

/-- The lines of a text, the last line first. -/
abbrev Page := List Text

namespace Page

/-- The indentation of a level. -/
def margin (o : Options) (level : Nat) : Text := (List.replicate level o.indent).flatten

/-- Adds a line at a level. -/
def write (o : Options) (level : Nat) (line : Text) (page : Page) : Page :=
  (margin o level ++ line) :: page

/-- Adds an empty line if wanted. -/
def blankIf (wanted : Bool) (page : Page) : Page := if wanted then [] :: page else page

/-- Takes back the empty lines at the end. -/
def trimBlanks (page : Page) : Page := page.dropWhile List.isEmpty

/-- Adds the opening brace behind its head or on a line of its own. -/
def openBrace (o : Options) (level : Nat) (head : Text) (page : Page) : Page :=
  if o.newlineBeforeBrace then
    write o level ['{'] (if head.isEmpty then page else write o level head page)
  else if !head.isEmpty && o.spaceBeforeBrace then write o level (head ++ [' ', '{']) page
  else write o level (head ++ ['{']) page

/-- Adds declarations. -/
def writeDeclarations (o : Options) (level : Nat) (ds : List Declaration) (page : Page) : Page :=
  (Declaration.inOrder o ds).foldl (fun page d => write o level (d.spaced o) page) page

/-- Whether anything is printed between two braces. -/
def hasContent (o : Options) (ds : List Declaration) (children : List Rule) : Bool :=
  !ds.isEmpty || children.any fun r => !r.skipped o

/-- Adds what comes before the children of a block: its brace and its declarations. -/
def openBlock (o : Options) (level : Nat) (head : Text) (ds : List Declaration)
    (children : List Rule) (page : Page) : Page :=
  writeDeclarations o (level + 1) ds
    (blankIf (o.blankLineAfterBrace && hasContent o ds children) (openBrace o level head page))

/-- Adds what comes after the children of a block: its closing brace and the gap behind it. -/
def closeBlock (o : Options) (level : Nat) (ds : List Declaration) (children : List Rule)
    (page : Page) : Page :=
  blankIf o.blankLineAfterRule
    (write o level ['}']
      (blankIf (o.blankLineBeforeCloseBrace && hasContent o ds children) (trimBlanks page)))

mutual
/-- Adds a rule. -/
def emitRule (o : Options) (level : Nat) : Rule → Page → Page
  | .comment t _, page => if o.preserveComments then write o level t page else page
  | .statement k pre _, page =>
    blankIf o.blankLineAfterRule (write o level (Rule.heading k pre ++ [';']) page)
  | .group k pre ds children _, page =>
    closeBlock o level ds children
      (emitRules o (level + 1) children
        (openBlock o level (Rule.heading k pre) ds children page))
  | .style s ds children p, page =>
    if o.dropEmptyRules && Rule.isEmpty (.style s ds children p) then page
    else
      closeBlock o level ds children
        (emitRules o (level + 1) children (openBlock o level s ds children page))

/-- Adds several rules. -/
def emitRules (o : Options) (level : Nat) : List Rule → Page → Page
  | [], page => page
  | r :: rs, page => emitRules o level rs (emitRule o level r page)
end

end Page

/-- Keeps the first of every run of blank lines; `after` says that a blank line stands before. -/
def collapseBlankLines (after : Bool) : List Text → List Text
  | [] => []
  | line :: lines =>
    if line.allBlank then
      if after then collapseBlankLines true lines else line :: collapseBlankLines true lines
    else line :: collapseBlankLines false lines

/-- The lines that the beautifier emits for a rule tree. -/
def emittedLines (rules : List Rule) (o : Options) : List Text :=
  (Page.emitRules o 0 rules []).reverse

/-- The text on lines of a rule tree. -/
def beautify (rules : List Rule) (o : Options) : Text :=
  Text.trim (Text.join ['\n'] (collapseBlankLines false (emittedLines rules o)))

/-- Renders a rule tree on a page that may hold lines of an earlier one: the page is cleared first,
and the lines of the tree stay on it. -/
def renderOnPage (o : Options) (rules : List Rule) : StateM Page Text := do
  set ([] : Page)
  modify (Page.emitRules o 0 rules)
  return Text.trim (Text.join ['\n'] (collapseBlankLines false (← get).reverse))

/-- The text of a rule tree in the mode of the options. -/
def render (rules : List Rule) (o : Options) : Text :=
  match o.mode with
  | .beautify => beautify rules o
  | .minify => minify rules o

end Stylesheet
end Galley
