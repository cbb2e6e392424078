/-
# Written scalars

The characters of a scalar are written in one of four ways.

| form | extent |
| --- | --- |
| plain | up to a gap that no further word of the scalar follows, a colon before a gap, or a comment |
| single quoted | up to a quote; two quotes stand for one |
| double quoted | up to a quote; a backslash starts an escape |
| block | the lines that are indented deeper than the construct around them |

In the first three forms a line end and the spaces around it stand for one space, and of several
line ends the first one stands for nothing.  An escape may stand for a surrogate.
-/

import Galley.Text.Wide
import Galley.Yaml.Place

namespace Galley
namespace Yaml
namespace Scalar

/-- The line ends in front, with the characters `skipped` dropped, and what follows them. -/
def cutBreaks (skipped : Char → Bool) : List Place → Text × List Place
  | [] => ([], [])
  | p :: ps =>
    if isBreak p.char then
      (breakText p.char :: (cutBreaks skipped ps).1, (cutBreaks skipped ps).2)
    else if skipped p.char then cutBreaks skipped ps
    else ([], p :: ps)

/-- What line ends in a row stand for. -/
def folded (first : Char) (more : Text) : Text :=
  if breakText first ≠ '\n' then breakText first :: more
  else if more.isEmpty then [' '] else more

/-! ### Plain scalars -/

/-- The characters that end a plain scalar inside brackets. -/
def isFlowMark (c : Char) : Bool :=
  c == ',' || c == '?' || c == '[' || c == ']' || c == '{' || c == '}'

/-- Whether a colon ends a plain scalar, given what follows it. -/
def colonEnds (inFlow : Bool) (after : List Place) : Bool :=
  Place.endsWord after ||
    (inFlow && after.head?.any fun p => p.char != '?' && isFlowMark p.char)

/-- A word of a plain scalar and what follows it. -/
def cutWord (inFlow : Bool) : List Place → Text × List Place
  | [] => ([], [])
  | p :: ps =>
    if isGap p.char || (p.char == ':' && colonEnds inFlow ps) || (inFlow && isFlowMark p.char) then
      ([], p :: ps)
    else (p.char :: (cutWord inFlow ps).1, (cutWord inFlow ps).2)

/-- A text, whether a line ended behind its last word, and what follows. -/
structure Plain where
  text : Text
  lineEnded : Bool
  rest : List Place

/-- The gap behind a word of a plain scalar.  A document marker ends it without a text. -/
def plainGap (ps : List Place) : Plain :=
  let spaces := ps.takeWhile fun p => p.char == ' '
  match ps.dropWhile fun p => p.char == ' ' with
  | [] => ⟨Place.text spaces, false, []⟩
  | p :: rest =>
    if isBreak p.char then
      let (breaks, after) := cutBreaks (· == ' ') rest
      ⟨if Place.isDocumentMarker after then [] else folded p.char breaks, true, after⟩
    else ⟨Place.text spaces, false, p :: rest⟩

/-- Reads a plain scalar after a gap; its further lines must not begin left of `column`. -/
def readPlain (inFlow : Bool) (column : Int) : Nat → Plain → Plain
  | 0, gap => ⟨[], gap.lineEnded, gap.rest⟩
  | fuel + 1, gap =>
    let (word, after) := cutWord inFlow gap.rest
    if word.isEmpty then ⟨[], gap.lineEnded, gap.rest⟩
    else
      let next := plainGap after
      let ended := next.text.isEmpty || Place.startsWith '#' next.rest ||
        (!inFlow && Place.isLeftOf column next.rest)
      let more : Plain :=
        if ended then ⟨[], next.lineEnded, next.rest⟩ else readPlain inFlow column fuel next
      ⟨gap.text ++ word ++ more.text, more.lineEnded, more.rest⟩

/-- The plain scalar in front. -/
def plain (inFlow : Bool) (column : Int) (ps : List Place) : Plain :=
  readPlain inFlow column ps.length ⟨[], false, ps⟩

/-! ### Quoted scalars -/

/-- The character that an escape of one letter stands for. -/
def escaped? (c : Char) : Option Char :=
  match c with
  | '0' => some '\x00'
  | 'a' => some '\x07'
  | 'b' => some '\x08'
  | 't' => some '\t'
  | '\t' => some '\t'
  | 'n' => some '\n'
  | 'v' => some '\x0B'
  | 'f' => some '\x0C'
  | 'r' => some '\r'
  | 'e' => some '\x1B'
  | ' ' => some ' '
  | '"' => some '"'
  | '\\' => some '\\'
  | '/' => some '/'
  | 'N' => some '\x85'
  | '_' => some '\u00A0'
  | 'L' => some '\u2028'
  | 'P' => some '\u2029'
  | _ => none

/-- The number of digits of a numeric escape. -/
def escapeLength? (c : Char) : Option Nat :=
  if c = 'x' then some 2 else if c = 'u' then some 4 else if c = 'U' then some 8 else none

/-- The value of a hexadecimal digit. -/
def hexValue? (c : Char) : Option Nat :=
  if c.isDigit then some (c.toNat - 0x30)
  else if 'a' ≤ c ∧ c ≤ 'f' then some (c.toNat - 0x57)
  else if 'A' ≤ c ∧ c ≤ 'F' then some (c.toNat - 0x37)
  else none

/-- The code point of a numeric escape. -/
def hexPoint? (digits : Text) : Option CodePoint := do
  let n := (← digits.mapM hexValue?).foldl (fun n d => 16 * n + d) 0
  if n < 0x110000 then some (.ofNat n) else none

/-- Reads the rest of a quoted scalar and its closing quote. -/
def readQuoted (double : Bool) : Nat → List Place → Option (WideText × List Place)
  | 0, _ => none
  | _, [] => none
  | fuel + 1, p :: ps =>
    let continued (text : WideText) (rest : List Place) : Option (WideText × List Place) :=
      (readQuoted double fuel rest).map fun r => (text ++ r.1, r.2)
    if p.char = (if double then '"' else '\'') then
      if !double && Place.startsWith '\'' ps then continued [.char '\''] ps.tail else some ([], ps)
    else if double && p.char == '\\' then
      match ps with
      | [] => none
      | q :: rest =>
        if isBreak q.char then
          let (breaks, after) := cutBreaks isBlank rest
          if Place.isDocumentMarker after then none else continued breaks after
        else
          match escaped? q.char, escapeLength? q.char with
          | some c, _ => continued [.char c] rest
          | none, some n =>
            if (rest.take n).length = n then
              (hexPoint? (Place.text (rest.take n))).bind fun c => continued [c] (rest.drop n)
            else none
          | none, none => none
    else if isGap p.char then
      let blanks := (p :: ps).takeWhile fun q => isBlank q.char
      match (p :: ps).dropWhile fun q => isBlank q.char with
      | [] => none
      | q :: rest =>
        if isBreak q.char then
          let (breaks, after) := cutBreaks isBlank rest
          if Place.isDocumentMarker after then none else continued (folded q.char breaks) after
        else continued (Place.text blanks) (q :: rest)
    else continued [.char p.char] ps

/-- The quoted scalar behind an opening quote. -/
def quoted (double : Bool) (ps : List Place) : Option (WideText × List Place) :=
  readQuoted double (ps.length + 1) ps

/-! ### Block scalars -/

/-- What becomes of the line ends behind the last line. -/
inductive Tail where
  | dropped
  | one
  | kept
  deriving DecidableEq, Repr

/-- The header of a block scalar: its tail and its extra indentation, if that is given. -/
structure Header where
  tail : Tail
  extra : Option Nat

/-- The tail that a mark asks for. -/
def Tail.ofMark? (c : Char) : Option Tail :=
  if c = '+' then some .kept else if c = '-' then some .dropped else none

/-- The extra indentation that a digit asks for; zero is none. -/
def extra? (c : Char) : Option Nat :=
  if c.isDigit && c != '0' then some (c.toNat - 0x30) else none

/-- Reads a header, whose two parts may stand in either order, and the rest of its line. -/
def readHeader (ps : List Place) : Option (Header × List Place) :=
  let word := Place.text (ps.takeWhile fun p => p.char != ' ' && !isBreak p.char)
  let line := (ps.drop word.length).dropWhile fun p => p.char == ' '
  let header : Option Header :=
    match word with
    | [] => some ⟨.one, none⟩
    | [a] => ((Tail.ofMark? a).map fun t => ⟨t, none⟩).or ((extra? a).map fun n => ⟨.one, some n⟩)
    | [a, b] =>
      ((Tail.ofMark? a).bind fun t => (extra? b).map fun n => ⟨t, some n⟩).or
        ((extra? a).bind fun n => (Tail.ofMark? b).map fun t => ⟨t, some n⟩)
    | _ => none
  let rest :=
    if Place.startsWith '#' line then line.dropWhile fun p => !isBreak p.char else line
  match rest with
  | [] => header.map fun h => (h, [])
  | p :: more => if isBreak p.char then header.map fun h => (h, more) else none

/-- The line ends in front, each with the indentation behind it dropped, and what follows. -/
def cutIndented (column : Nat) : List Place → Text × List Place
  | [] => ([], [])
  | p :: ps =>
    if isBreak p.char then
      (breakText p.char :: (cutIndented column ps).1, (cutIndented column ps).2)
    else if p.char == ' ' && p.column < column then cutIndented column ps
    else ([], p :: ps)

/-- The greatest column reached by spaces in front of the first line that is not blank. -/
def deepest (ps : List Place) : Nat :=
  ((ps.takeWhile fun p => p.char == ' ' || isBreak p.char).map fun p =>
    if p.char == ' ' then p.column + 1 else 0).foldl max 0

/-- The text of the lines of a block scalar, the end of the last line, the blank lines behind it
and what follows. -/
structure Body where
  text : Text
  lastEnd : Text
  blankLines : Text
  rest : List Place

/-- Reads the lines of a block scalar behind some blank lines. -/
def readLines (fold : Bool) (column : Nat) : Nat → Text → List Place → Body
  | 0, blankLines, ps => ⟨[], [], blankLines, ps⟩
  | fuel + 1, blankLines, ps =>
    if Place.isAt column ps then
      let line := ps.takeWhile fun p => !isBreak p.char
      let after := ps.dropWhile fun p => !isBreak p.char
      let lineEnd := Place.text (after.take 1) |>.map breakText
      let (more, rest) := cutIndented column (after.drop 1)
      let text := blankLines ++ Place.text line
      if Place.isAt column rest then
        let startsBlank (qs : List Place) : Bool := qs.head?.any fun q => isBlank q.char
        let joint : Text :=
          if fold && lineEnd == ['\n'] && !startsBlank line && !startsBlank rest then
            (if more.isEmpty then [' '] else [])
          else lineEnd
        let b := readLines fold column fuel more rest
        ⟨text ++ joint ++ b.text, b.lastEnd, b.blankLines, b.rest⟩
      else ⟨text, lineEnd, more, rest⟩
    else ⟨[], [], blankLines, ps⟩

/-- The block scalar behind its mark; `outer` is the column of the construct around it. -/
def block (fold : Bool) (outer : Int) (ps : List Place) : Option (Text × List Place) :=
  (readHeader ps).map fun (header, lines) =>
    let least := (max 1 (outer + 1)).toNat
    let column := match header.extra with
      | some n => least + n - 1
      | none => max least (deepest lines)
    let (blankLines, first) :=
      match header.extra with
      | some n => cutIndented (least + n - 1) lines
      | none => cutBreaks (· == ' ') lines
    let b := readLines fold column lines.length blankLines first
    match header.tail with
    | .dropped => (b.text, b.rest)
    | .one => (b.text ++ b.lastEnd, b.rest)
    | .kept => (b.text ++ b.lastEnd ++ b.blankLines, b.rest)

end Scalar
end Yaml
end Galley
