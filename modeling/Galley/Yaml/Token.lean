/-
# Tokens of a YAML document

The tokens make the structure explicit: where a block begins and ends, which follows from the
indentation, and what is a key, which is known only when the colon after it is found.  A place
where a key may begin is therefore remembered as a candidate until the colon comes or cannot come
any more; then the key token is put in where the candidate began.  A candidate is good for one
line and for 1024 characters.

`Token.scan` has no answer for a text that is malformed.  Tags and directives are not supported.
-/

import Galley.Yaml.Scalar

namespace Galley
namespace Yaml

/-- The tokens of a document. -/
inductive Token where
  | documentStart
  | documentEnd
  | sequenceStart
  | mappingStart
  | blockEnd
  | entry
  | key
  | value
  | flowSequenceStart
  | flowSequenceEnd
  | flowMappingStart
  | flowMappingEnd
  | flowEntry
  | anchor (name : Text)
  | alias (name : Text)
  | scalar (text : WideText) (plain : Bool)
  deriving DecidableEq, Repr

/-- A place where a key may have begun: its place, the number of tokens before it, and whether
nothing but a key can stand there. -/
structure Candidate where
  start : Place
  count : Nat
  required : Bool

/-- The state between two tokens.  `tokens` are those found so far, the newest first; `columns`
are the columns of the open blocks, the innermost first; `candidates` holds one entry for every
open bracket and one for the blocks around them, the innermost first. -/
structure Scan where
  tokens : List Token
  columns : List Nat
  candidates : List (Option Candidate)
  keyAllowed : Bool

namespace Scan

/-- The state at the start of a text. -/
def start : Scan := ⟨[], [], [none], true⟩

/-- Whether a bracket is open. -/
def inFlow (s : Scan) : Bool := 1 < s.candidates.length

/-- The column of the innermost open block, minus one outside of all blocks. -/
def column (s : Scan) : Int :=
  match s.columns with
  | [] => -1
  | c :: _ => c

/-- Adds a token. -/
def push (t : Token) (s : Scan) : Scan := { s with tokens := t :: s.tokens }

/-- Allows or forbids a key at the next token. -/
def allowKey (allowed : Bool) (s : Scan) : Scan := { s with keyAllowed := allowed }

/-- Ends the blocks whose column is beyond `column`; inside brackets there are no blocks. -/
def unwind (column : Int) (s : Scan) : Scan :=
  if s.inFlow then s
  else
    let closed := s.columns.takeWhile fun (c : Nat) => decide (column < (c : Int))
    { s with
      columns := s.columns.drop closed.length
      tokens := List.replicate closed.length .blockEnd ++ s.tokens }

/-- Gives up the innermost candidate, which is an error if it is required. -/
def dropCandidate (s : Scan) : Option Scan :=
  match s.candidates with
  | some c :: rest => if c.required then none else some { s with candidates := none :: rest }
  | _ => some s

/-- Remembers the next token as a candidate if a key is allowed there. -/
def addCandidate (p : Place) (s : Scan) : Option Scan :=
  if s.keyAllowed then
    s.dropCandidate.map fun s =>
      let c : Candidate :=
        ⟨p, s.tokens.length, !s.inFlow && s.columns.head? == some p.column⟩
      { s with candidates := some c :: s.candidates.tail }
  else some s

/-- Whether a candidate can still be a key when the next token begins at `p`. -/
def Candidate.lives (p : Place) (c : Candidate) : Bool :=
  c.start.line == p.line && p.index - c.start.index ≤ 1024

/-- Gives up the candidates that the reader has left behind. -/
def dropStale (p : Place) (s : Scan) : Option Scan :=
  if s.candidates.any fun c => c.any fun c => !Candidate.lives p c && c.required then none
  else some { s with candidates := s.candidates.map fun c => c.filter (Candidate.lives p) }

/-- Opens a block at a column if none is open there. -/
def openBlock (t : Token) (column : Nat) (s : Scan) : Scan :=
  if s.column < column then { s with columns := column :: s.columns, tokens := t :: s.tokens }
  else s

/-- Starts an entry or a key of a block, opening the block where needed. -/
def startItem (block item : Token) (p : Place) (s : Scan) : Option Scan :=
  if s.keyAllowed then
    ((s.openBlock block p.column).dropCandidate).map fun s => (s.allowKey true).push item
  else none

/-- Puts a key token before the tokens that were found after a candidate. -/
def insertKey (c : Candidate) (s : Scan) : Scan :=
  let newer := s.tokens.take (s.tokens.length - c.count)
  let older := s.tokens.drop (s.tokens.length - c.count)
  let opened := if s.inFlow then { s with tokens := older }
    else { s with tokens := older }.openBlock .mappingStart c.start.column
  { opened with tokens := newer ++ .key :: opened.tokens }

/-- Takes a colon: what began at the candidate was a key, or the key is empty. -/
def takeColon (p : Place) (s : Scan) : Option Scan :=
  match s.candidates with
  | some c :: rest =>
    some (({ s.insertKey c with candidates := none :: rest }.allowKey false).push .value)
  | _ =>
    if s.inFlow then some ((s.allowKey false).push .value)
    else startItem .mappingStart .value p s

/-- Takes a bracket or brace that opens. -/
def openFlow (t : Token) (p : Place) (s : Scan) : Option Scan :=
  (s.addCandidate p).map fun s =>
    ({ s with candidates := none :: s.candidates }.allowKey true).push t

/-- Takes a bracket or brace that closes. -/
def closeFlow (t : Token) (s : Scan) : Option Scan :=
  if s.inFlow then
    s.dropCandidate.map fun s =>
      ({ s with candidates := s.candidates.tail }.allowKey false).push t
  else none

/-- Takes a document marker. -/
def takeMarker (t : Token) (s : Scan) : Option Scan :=
  if s.inFlow then none else (s.unwind (-1)).dropCandidate.map fun s => (s.allowKey false).push t

/-- Takes a token that may be a key. -/
def takeAtom (t : Token) (p : Place) (s : Scan) : Option Scan :=
  (s.addCandidate p).map fun s => (s.allowKey false).push t

end Scan

namespace Token

/-- Skips spaces, comments and line ends; behind a line end a key is allowed outside brackets. -/
def skipGap (inFlow comment allowed : Bool) : List Place → Bool × List Place
  | [] => (allowed, [])
  | p :: ps =>
    if isBreak p.char then skipGap inFlow false (allowed || !inFlow) ps
    else if comment || p.char == ' ' then skipGap inFlow comment allowed ps
    else if p.char == '#' then skipGap inFlow true allowed ps
    else (allowed, p :: ps)

/-- The characters of names. -/
def isNameChar (c : Char) : Bool := c.isAlphanum || c == '-' || c == '_'

/-- The name of an anchor or an alias and what follows it. -/
def cutName (ps : List Place) : Option (Text × List Place) :=
  let name := Place.text (ps.takeWhile fun p => isNameChar p.char)
  let rest := ps.dropWhile fun p => isNameChar p.char
  let ends := Place.endsWord rest || rest.head?.any fun p => "?:,]\x7d%@`".toList.contains p.char
  if name.isEmpty || !ends then none else some (name, rest)

/-- The characters that have a meaning of their own and start no plain scalar. -/
def isIndicator (c : Char) : Bool := "-?:,[]\x7b\x7d#&*!|>'\"%@`".toList.contains c

/-- Whether a plain scalar starts with the first of some characters. -/
def startsPlain (inFlow : Bool) (c : Char) (rest : List Place) : Bool :=
  !(isGap c || isIndicator c) ||
    (!Place.endsWord rest && (c == '-' || (!inFlow && (c == '?' || c == ':'))))

/-- Takes the token that begins with the character at `p`. -/
def take (s : Scan) (p : Place) (rest : List Place) : Option (Scan × List Place) :=
  let single (s : Option Scan) : Option (Scan × List Place) := s.map fun s => (s, rest)
  let named (kind : Text → Token) : Option (Scan × List Place) :=
    (cutName rest).bind fun (name, more) => (s.takeAtom (kind name) p).map fun s => (s, more)
  let quoted (double : Bool) : Option (Scan × List Place) :=
    (Scalar.quoted double rest).bind fun (t, more) =>
      (s.takeAtom (.scalar t false) p).map fun s => (s, more)
  let block (fold : Bool) : Option (Scan × List Place) :=
    (Scalar.block fold s.column rest).bind fun (t, more) =>
      s.dropCandidate.map fun s => ((s.allowKey true).push (.scalar t false), more)
  if Place.isMarker '-' (p :: rest) then
    (s.takeMarker .documentStart).map fun s => (s, rest.drop 2)
  else if Place.isMarker '.' (p :: rest) then
    (s.takeMarker .documentEnd).map fun s => (s, rest.drop 2)
  else if p.char = '[' then single (s.openFlow .flowSequenceStart p)
  else if p.char = '{' then single (s.openFlow .flowMappingStart p)
  else if p.char = ']' then single (s.closeFlow .flowSequenceEnd)
  else if p.char = '}' then single (s.closeFlow .flowMappingEnd)
  else if p.char = ',' then
    if s.inFlow then single (s.dropCandidate.map fun s => (s.allowKey true).push .flowEntry)
    else none
  else if p.char = '-' ∧ Place.endsWord rest then
    if s.inFlow then none else single (s.startItem .sequenceStart .entry p)
  else if p.char = '?' ∧ (s.inFlow ∨ Place.endsWord rest) then
    if s.inFlow then single (s.dropCandidate.map fun s => (s.allowKey false).push .key)
    else single (s.startItem .mappingStart .key p)
  else if p.char = ':' ∧ (s.inFlow ∨ Place.endsWord rest) then single (s.takeColon p)
  else if p.char = '*' then named .alias
  else if p.char = '&' then named .anchor
  else if p.char = '|' ∧ !s.inFlow then block false
  else if p.char = '>' ∧ !s.inFlow then block true
  else if p.char = '\'' then quoted false
  else if p.char = '"' then quoted true
  else if startsPlain s.inFlow p.char rest then
    let scalar := Scalar.plain s.inFlow (s.column + 1) (p :: rest)
    (s.takeAtom (.scalar scalar.text true) p).map fun s =>
      (s.allowKey scalar.lineEnded, scalar.rest)
  else none

/-- Takes the remaining tokens.  At the end no bracket may be open and no key be required. -/
def scanFrom : Nat → Scan → List Place → Option (List Token)
  | 0, _, _ => none
  | fuel + 1, s, ps =>
    let (allowed, next) := skipGap s.inFlow false s.keyAllowed ps
    match next with
    | [] =>
      if s.inFlow then none
      else (s.unwind (-1)).dropCandidate.map fun s => s.tokens.reverse
    | p :: rest => do
      let s ← (s.allowKey allowed).dropStale p
      let (s, rest) ← take (s.unwind p.column) p rest
      scanFrom fuel s rest

/-- The tokens of a text. -/
def scan (t : Text) : Option (List Token) :=
  scanFrom (t.length + 1) .start (Place.ofText t)

end Token
end Yaml
end Galley
