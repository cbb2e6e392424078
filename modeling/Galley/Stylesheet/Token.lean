/-
# Tokens of a stylesheet

A stylesheet is cut into lexemes without regard to context, in one pass from left to right.

| lexeme | extent |
| --- | --- |
| comment | from `/*` to the first `*/` after it, or to the end |
| white space | a maximal run of blanks |
| punctuation | one of `{ } : ; , ( ) [ ]` |
| text | a maximal run of other characters that stops before a comment |

A text that begins with `@` is an at-keyword.  Quoted strings are not special.  Nothing is lost:
`cutLexeme_append` says so of one lexeme, and the texts of `Token.scan` put together are the
source.
-/

import Galley.Text.Blank
import Galley.Text.Position

namespace Galley
namespace Stylesheet

/-- The classes of lexemes. -/
inductive Lexeme where
  | comment
  | whitespace
  | punctuation
  | atKeyword
  | text
  deriving DecidableEq, Repr

/-- A lexeme with its class, its characters and the place of its first character. -/
structure Token where
  kind : Lexeme
  text : Text
  position : Position
  deriving DecidableEq, Repr

/-- The characters that are a lexeme on their own. -/
def isPunctuation (c : Char) : Bool :=
  match c with
  | '{' | '}' | ':' | ';' | ',' | '(' | ')' | '[' | ']' => true
  | _ => false

/-- Whether a slash opens a comment, given the text after it. -/
def opensComment (c : Char) (after : Text) : Bool := c == '/' && after.head? == some '*'

/-- The rest of a comment, up to its end mark or to the end of the text, and what follows. -/
def cutComment : Text → Text × Text
  | [] => ([], [])
  | '*' :: '/' :: cs => (['*', '/'], cs)
  | c :: cs => (c :: (cutComment cs).1, (cutComment cs).2)

/-- The characters up to the next blank, punctuation or comment, and what follows. -/
def cutWord : Text → Text × Text
  | [] => ([], [])
  | c :: cs =>
    if isPunctuation c || Text.isBlank c || opensComment c cs then ([], c :: cs)
    else (c :: (cutWord cs).1, (cutWord cs).2)

/-- The first lexeme of the text `c :: cs`: its class, its characters and what follows. -/
def cutLexeme (c : Char) (cs : Text) : Lexeme × Text × Text :=
  if opensComment c cs then
    (.comment, c :: '*' :: (cutComment cs.tail).1, (cutComment cs.tail).2)
  else if Text.isBlank c then
    (.whitespace, c :: cs.takeWhile Text.isBlank, cs.dropWhile Text.isBlank)
  else if isPunctuation c then (.punctuation, [c], cs)
  else (if c = '@' then .atKeyword else .text, c :: (cutWord cs).1, (cutWord cs).2)

theorem cutComment_append (t : Text) : (cutComment t).1 ++ (cutComment t).2 = t := by
  fun_induction cutComment t <;> simp_all

theorem cutWord_append (t : Text) : (cutWord t).1 ++ (cutWord t).2 = t := by
  fun_induction cutWord t <;> simp_all

/-- A lexeme and what follows it make up the text. -/
theorem cutLexeme_append (c : Char) (cs : Text) :
    (cutLexeme c cs).2.1 ++ (cutLexeme c cs).2.2 = c :: cs := by
  unfold cutLexeme
  split
  · rename_i h
    simp only [opensComment, Bool.and_eq_true, beq_iff_eq] at h
    cases cs with
    | nil => simp at h
    | cons d ds =>
      obtain rfl : d = '*' := by simpa using h.2
      simp [cutComment_append]
  · split
    · simp
    · split
      · simp
      · simp [cutWord_append]

/-- A lexeme has at least one character, so what follows it is shorter than the text. -/
theorem length_cutLexeme_le (c : Char) (cs : Text) :
    (cutLexeme c cs).2.2.length ≤ cs.length := by
  have h := congrArg List.length (cutLexeme_append c cs)
  have h₁ : 0 < (cutLexeme c cs).2.1.length := by
    unfold cutLexeme
    split
    · simp
    · split
      · simp
      · split <;> simp
  simp only [List.length_append, List.length_cons] at h
  omega

namespace Token

/-- The tokens of a text that stands at a place. -/
def scanFrom (p : Position) (t : Text) : List Token :=
  match t with
  | [] => []
  | c :: cs =>
    ⟨(cutLexeme c cs).1, (cutLexeme c cs).2.1, p⟩ ::
      scanFrom (p.advance (cutLexeme c cs).2.1) (cutLexeme c cs).2.2
termination_by t.length
decreasing_by
  have := length_cutLexeme_le c cs
  simp only [List.length_cons]
  omega

/-- The tokens of a stylesheet. -/
def scan (source : Text) : List Token := scanFrom .start source

/-- Whether a token is punctuation whose text stands somewhere in `chars`. -/
def isAmong (chars : Text) (t : Token) : Bool := t.kind == .punctuation && t.text.occursIn chars

/-- Whether a token is punctuation whose text is one of `marks`. -/
def isMark (marks : List Text) (t : Token) : Bool :=
  t.kind == .punctuation && marks.contains t.text

/-- Whether a token is punctuation that is one of the characters `stops`. -/
def isStop (stops : Text) (t : Token) : Bool :=
  match t.kind, t.text with
  | .punctuation, [c] => stops.contains c
  | _, _ => false

theorem isMark_iff {marks : List Text} {t : Token} :
    t.isMark marks = true ↔ t.kind = .punctuation ∧ t.text ∈ marks := by
  simp [isMark]

/-- A character stops where it is a mark. -/
theorem isMark_singletons (stops : Text) (t : Token) :
    t.isMark (stops.map fun c => [c]) = t.isStop stops := by
  unfold isStop
  split
  · rename_i c hk ht
    simp [isMark, hk, ht]
  · rename_i hother
    rw [Bool.eq_false_iff, Ne, isMark_iff]
    rintro ⟨hk, hm⟩
    obtain ⟨c, -, hc⟩ := List.mem_map.1 hm
    exact hother c hk hc.symm

/-- Whether the first of the remaining tokens is punctuation whose text stands in `chars`. -/
def headIsAmong (chars : Text) : List Token → Bool
  | [] => false
  | t :: _ => t.isAmong chars

end Token
end Stylesheet
end Galley
