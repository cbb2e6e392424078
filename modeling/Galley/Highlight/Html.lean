/-
# Highlighted pages

The pages that the program makes: the spans of a text as HTML.  The text is laid out line by line;
on a line neighbouring pieces of one style are put into one element, and pieces without a style stand
as they are.
-/

import Galley.Highlight.Report

namespace Galley
namespace Highlight

/-- The style of a class: the declarations of its element, if it has one. -/
def Class.style : Class → Option Text
  | .heading => some "color: #000080; font-weight: bold".toList
  | .frame => some "color: #3D7B7B; font-style: italic".toList
  | .deleted => some "color: #A00000".toList
  | .inserted => some "color: #008400".toList
  | .subheading => some "color: #800080; font-weight: bold".toList
  | .number => some "color: #666".toList
  | .label => some "color: #687822".toList
  | .blank => some "color: #BBB".toList
  | .punctuation => none
  | .plain => none

/-- A character in the content of an element. -/
def escapeChar (c : Char) : Text :=
  match c with
  | '&' => "&amp;".toList
  | '<' => "&lt;".toList
  | '>' => "&gt;".toList
  | _ => [c]

/-- A piece of a line in one style. -/
structure Piece where
  style : Option Text
  text : Text
  deriving DecidableEq, Repr

/-- Puts pieces on one line after each other, those of one style into one. -/
def Piece.before (p : Piece) : List Piece → List Piece
  | [] => [p]
  | q :: qs => if p.style = q.style then ⟨p.style, p.text ++ q.text⟩ :: qs else p :: q :: qs

/-- Puts the parts of a span, which stand on lines of their own, before the lines after it. -/
def layParts (style : Option Text) : List Text → List (List Piece) → List (List Piece)
  | [], lines => lines
  | [part], lines =>
    match lines with
    | [] => [if part.isEmpty then [] else [⟨style, part⟩]]
    | line :: more => (if part.isEmpty then line else Piece.before ⟨style, part⟩ line) :: more
  | part :: parts, lines =>
    (if part.isEmpty then [] else [⟨style, part⟩]) :: layParts style parts lines

/-- The lines of a list of spans; the last one is not ended by a line feed. -/
def layOut : List Span → List (List Piece)
  | [] => [[]]
  | s :: ss => layParts s.kind.style (Text.splitAll '\n' s.text) (layOut ss)

/-- A piece as an element. -/
def Piece.html (p : Piece) : Text :=
  match p.style with
  | none => p.text.flatMap escapeChar
  | some style =>
    "<span style=\"".toList ++ style ++ "\">".toList ++ p.text.flatMap escapeChar ++
      "</span>".toList

/-- The lines as elements, every one ended.  An empty line at the end is no line. -/
def linesHtml : List (List Piece) → Text
  | [] => []
  | [[]] => []
  | line :: more => line.flatMap Piece.html ++ ['\n'] ++ linesHtml more

/-- The body of the page of a list of spans. -/
def bodyHtml (ss : List Span) : Text :=
  "<div class=\"highlight\" style=\"background: #f8f8f8\"><pre style=\"line-height: 125%;\">".toList ++
    "<span></span>".toList ++ linesHtml (layOut ss) ++ "</pre></div>".toList

/-- The spans of a text in a language.  Only reports are told apart from plain text. -/
def Language.spans : Language → Text → List Span
  | .report, t => Report.spans t
  | .named _, t => plainSpans t

/-- The title of a page where none is given. -/
def standardTitle : Text := "formathub".toList

/-- The page of a body.  The title is not escaped. -/
def page (title body : Text) : Text :=
  "<!DOCTYPE html>\n<html>\n<head>\n<meta charset=\"utf-8\">\n<title>".toList ++ title ++
    "</title>\n</head>\n<body>\n<h2>".toList ++ title ++ "</h2>\n".toList ++ body ++
    "\n</body>\n</html>\n".toList

/-- The one style that there is. -/
def standardStyle : Text := "default".toList

/-- The page of a text in a language and a style. -/
def standardPage (language : Language) (style title t : Text) : Except Text Text :=
  if style = standardStyle then .ok (page title (bodyHtml (language.spans t)))
  else .error ("Could not find style module '".toList ++ style ++ "'.".toList)

end Highlight
end Galley
