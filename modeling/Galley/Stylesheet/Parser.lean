/-
# From tokens to rules

The parser reads the tokens from the front and returns what it built, the comments it met on the
way, its notes and the tokens it has not read.  Roles come from the context: a phrase up to `{` is
a selector, up to `:` a property, up to `;` or `}` a value.

`block` reads what stands between braces, wherever the braces belong.  Every routine succeeds on
every list of tokens: an open block ends with the input.  The results of the recursive routines
carry the fact that what they leave unread is no longer than what they were given, which is why
the recursion ends.
-/

import Galley.Stylesheet.Rule
import Galley.Stylesheet.Token

namespace Galley
namespace Stylesheet

/-- A decision of the parser that is worth a note. -/
inductive Note where
  | stray (text : Text) (position : Position)
  | unterminatedComment (position : Position)
  | unclosedBlock
  | selectorWithoutBlock (selector : Text)
  | emptyRule (position : Position)
  deriving DecidableEq, Repr

/-- The wording of a note. -/
def Note.message : Note → Text
  | .stray t p => "Skipping stray '".toList ++ t ++ "' at ".toList ++ p.brief
  | .unterminatedComment p => "Unterminated comment at ".toList ++ p.brief ++ " closed".toList
  | .unclosedBlock => "Block not closed before end of input".toList
  | .selectorWithoutBlock s => "Selector '".toList ++ s ++ "' has no block, dropped".toList
  | .emptyRule p => "Empty rule at ".toList ++ p.brief ++ " discarded".toList

/-- The end mark of a comment. -/
def commentEnd : Text := ['*', '/']

/-- Whether a comment has both its marks. -/
def isClosedComment (t : Text) : Bool := decide (4 ≤ t.length) && commentEnd.isSuffixOf t

namespace Token

/-- The comment rule of a comment token; a comment that ran to the end of the input is closed. -/
def toComment (t : Token) : Rule :=
  .comment (if isClosedComment t.text then t.text else t.text ++ commentEnd) t.position

/-- The note about a comment token, if it needs one. -/
def commentNotes (t : Token) : List Note :=
  if isClosedComment t.text then [] else [.unterminatedComment t.position]

end Token

/-- A piece of text put together from tokens, the comments between them and the tokens from the
stopping one on. -/
structure Phrase where
  text : Text
  comments : List Rule
  notes : List Note
  rest : List Token

namespace Phrase

/-- Reads on after some pieces (`started`) and after a gap behind the last of them (`gap`), up to
punctuation whose text is one of `marks`.  The texts of the tokens are joined; a gap between two of
them is written as one space. -/
def collectFrom (marks : List Text) (started gap : Bool) : List Token → Phrase
  | [] => ⟨[], [], [], []⟩
  | t :: ts =>
    if t.isMark marks then ⟨[], [], [], t :: ts⟩
    else if t.kind = .comment then
      let p := collectFrom marks started started ts
      ⟨p.text, t.toComment :: p.comments, t.commentNotes ++ p.notes, p.rest⟩
    else if t.kind = .whitespace then collectFrom marks started started ts
    else
      let p := collectFrom marks true false ts
      ⟨(if gap then [' '] else []) ++ t.text ++ p.text, p.comments, p.notes, p.rest⟩

/-- Reads up to the first token that is punctuation whose text is one of `marks`. -/
def collect (marks : List Text) (ts : List Token) : Phrase := collectFrom marks false false ts

/-- Reads on up to one of the punctuation characters `stops`. -/
def readFrom (stops : Text) (started gap : Bool) (ts : List Token) : Phrase :=
  collectFrom (stops.map fun c => [c]) started gap ts

/-- Reads up to the first token that is one of the punctuation characters `stops`. -/
def read (stops : Text) (ts : List Token) : Phrase := readFrom stops false false ts

theorem readFrom_nil (stops : Text) (started gap : Bool) :
    readFrom stops started gap [] = ⟨[], [], [], []⟩ := rfl

theorem readFrom_cons (stops : Text) (started gap : Bool) (t : Token) (ts : List Token) :
    readFrom stops started gap (t :: ts) =
      if t.isStop stops then ⟨[], [], [], t :: ts⟩
      else if t.kind = .comment then
        let p := readFrom stops started started ts
        ⟨p.text, t.toComment :: p.comments, t.commentNotes ++ p.notes, p.rest⟩
      else if t.kind = .whitespace then readFrom stops started started ts
      else
        let p := readFrom stops true false ts
        ⟨(if gap then [' '] else []) ++ t.text ++ p.text, p.comments, p.notes, p.rest⟩ := by
  rw [readFrom, collectFrom, Token.isMark_singletons]
  rfl

theorem length_rest_readFrom_le (stops : Text) (started gap : Bool) (ts : List Token) :
    (readFrom stops started gap ts).rest.length ≤ ts.length := by
  induction ts generalizing started gap with
  | nil => simp [readFrom_nil]
  | cons t ts ih =>
    rw [readFrom_cons]
    split
    · simp
    · split
      · simpa using Nat.le_succ_of_le (ih started started)
      · split
        · simpa using Nat.le_succ_of_le (ih started started)
        · simpa using Nat.le_succ_of_le (ih true false)

/-- A phrase leaves no more tokens than it was given. -/
theorem length_rest_read_le (stops : Text) (ts : List Token) :
    (read stops ts).rest.length ≤ ts.length := length_rest_readFrom_le stops false false ts

/-- A phrase that does not stop at once reads its first token. -/
theorem length_rest_read_cons_le {stops : Text} {t : Token} (ts : List Token)
    (h : t.isStop stops = false) : (read stops (t :: ts)).rest.length ≤ ts.length := by
  rw [read, readFrom_cons, if_neg (by simp [h])]
  split
  · exact length_rest_readFrom_le stops false false ts
  · split
    · exact length_rest_readFrom_le stops false false ts
    · exact length_rest_readFrom_le stops true false ts

end Phrase

/-- What a routine built, the comments to be put before it among its siblings, its notes and the
tokens it has not read. -/
structure Outcome (α : Type) where
  value : α
  siblings : List Rule
  notes : List Note
  rest : List Token

/-- The mark of an important declaration. -/
def importantMark : Text := ['!', 'i', 'm', 'p', 'o', 'r', 't', 'a', 'n', 't']

/-- The declaration of a property and the text after its colon: an important mark at the end of
the text is taken off. -/
def Declaration.ofPhrases (property value : Text) : Declaration :=
  if importantMark.isSuffixOf value then
    ⟨property, Text.trim (Text.dropEnd importantMark value), true⟩
  else ⟨property, value, false⟩

/-- The tokens after a semicolon, if there is one in front. -/
def skipSemicolon (ts : List Token) : List Token :=
  if Token.headIsAmong [';'] ts then ts.tail else ts

/-- Reads a declaration up to its semicolon or up to the end of the block.  A property without a
colon is a declaration without a value; nothing at all is no declaration. -/
def declaration (ts : List Token) : Outcome (Option Declaration) :=
  let name := Phrase.read [':', ';', '}'] ts
  if Token.headIsAmong [':'] name.rest then
    let value := Phrase.read [';', '}'] name.rest.tail
    ⟨some (.ofPhrases name.text value.text), name.comments ++ value.comments,
      name.notes ++ value.notes, skipSemicolon value.rest⟩
  else
    ⟨if name.text.isEmpty then none else some ⟨name.text, [], false⟩, name.comments, name.notes,
      skipSemicolon name.rest⟩

/-- Whether an opening brace comes before the next semicolon and closing brace: then a nested rule
stands here and not a declaration. -/
def opensBlock : List Token → Bool
  | [] => false
  | t :: ts =>
    if t.kind = .punctuation then
      if t.text = ['{'] then true
      else if t.isAmong [';', '}'] then false
      else opensBlock ts
    else opensBlock ts

theorem length_skipSemicolon_le (ts : List Token) : (skipSemicolon ts).length ≤ ts.length := by
  unfold skipSemicolon; split <;> simp

/-- A declaration reads at least one token where no semicolon or closing brace stands in front. -/
theorem length_rest_declaration_cons_le {t : Token} (ts : List Token)
    (h : t.isAmong [';'] = false) (h' : t.isAmong ['}'] = false) :
    (declaration (t :: ts)).rest.length ≤ ts.length := by
  by_cases hs : t.isStop [':', ';', '}'] = true
  · have hc : t.kind = .punctuation ∧ t.text = [':'] := by
      rcases t with ⟨kind, text, position⟩
      unfold Token.isStop at hs
      split at hs
      · rename_i c hk ht
        dsimp only at hk ht
        subst hk ht
        simp only [List.contains_cons, List.contains_nil, Bool.or_false, Bool.or_eq_true,
          beq_iff_eq] at hs
        rcases hs with rfl | rfl | rfl
        · exact ⟨rfl, rfl⟩
        · simp [Token.isAmong, Text.occursIn] at h
        · simp [Token.isAmong, Text.occursIn] at h'
      · simp at hs
    have hr : Phrase.read [':', ';', '}'] (t :: ts) = ⟨[], [], [], t :: ts⟩ := by
      rw [Phrase.read, Phrase.readFrom_cons, if_pos hs]
    have h₁ := length_skipSemicolon_le (Phrase.read [';', '}'] ts).rest
    have h₂ := Phrase.length_rest_read_le [';', '}'] ts
    unfold declaration
    simp only [hr, Token.headIsAmong, Token.isAmong, hc.1, hc.2, List.tail_cons]
    rw [if_pos (by decide)]
    dsimp only
    omega
  · have h₀ := @Phrase.length_rest_read_cons_le [':', ';', '}'] t ts (by simpa using hs)
    unfold declaration
    dsimp only
    split
    · have h₁ := length_skipSemicolon_le
        (Phrase.read [';', '}'] (Phrase.read [':', ';', '}'] (t :: ts)).rest.tail).rest
      have h₂ := Phrase.length_rest_read_le [';', '}']
        (Phrase.read [':', ';', '}'] (t :: ts)).rest.tail
      have h₃ : (Phrase.read [':', ';', '}'] (t :: ts)).rest.tail.length ≤
          (Phrase.read [':', ';', '}'] (t :: ts)).rest.length := by simp
      dsimp only
      omega
    · have h₁ := length_skipSemicolon_le (Phrase.read [':', ';', '}'] (t :: ts)).rest
      dsimp only
      omega

mutual
/-- Reads the inside of a block and its closing brace. -/
def block (ts : List Token) : { o : Outcome Block // o.rest.length ≤ ts.length } :=
  match ts with
  | [] => ⟨⟨.empty, [], [.unclosedBlock], []⟩, by simp⟩
  | t :: rest =>
    if t.kind = .whitespace then
      let b := block rest
      ⟨b.1, Nat.le_succ_of_le b.2⟩
    else if t.kind = .comment then
      let b := block rest
      ⟨⟨b.1.value.withRules [t.toComment], [], t.commentNotes ++ b.1.notes, b.1.rest⟩,
        Nat.le_succ_of_le b.2⟩
    else if hc : t.isAmong ['}'] then ⟨⟨.empty, [], [], rest⟩, by simp⟩
    else if hs : t.isAmong [';'] then
      let b := block rest
      ⟨b.1, Nat.le_succ_of_le b.2⟩
    else if t.kind = .atKeyword then
      let r := atRule t rest
      have hr : (atRule t rest).1.rest.length ≤ rest.length := (atRule t rest).2
      let b := block r.1.rest
      ⟨⟨b.1.value.withRules (r.1.siblings ++ [r.1.value]), [], r.1.notes ++ b.1.notes, b.1.rest⟩,
        Nat.le_succ_of_le (Nat.le_trans b.2 r.2)⟩
    else if opensBlock (t :: rest) then
      let r := styleRule t rest
      have hr : (styleRule t rest).1.rest.length ≤ rest.length := (styleRule t rest).2
      let b := block r.1.rest
      ⟨⟨b.1.value.withRules (r.1.siblings ++ r.1.value.toList), [], r.1.notes ++ b.1.notes,
        b.1.rest⟩, Nat.le_succ_of_le (Nat.le_trans b.2 r.2)⟩
    else
      let d := declaration (t :: rest)
      have hd : (declaration (t :: rest)).rest.length ≤ rest.length :=
        length_rest_declaration_cons_le rest (by simpa using hs) (by simpa using hc)
      let b := block d.rest
      ⟨⟨(b.1.value.withRules d.siblings).withDeclaration d.value, [], d.notes ++ b.1.notes,
        b.1.rest⟩, Nat.le_succ_of_le (Nat.le_trans b.2 hd)⟩
termination_by 2 * ts.length + 1
decreasing_by all_goals (simp only [List.length_cons]; omega)

/-- Reads an at-rule after its keyword.  Its prelude ends at a semicolon, at the end of the block
around it or at a block of its own; in the last case the comments of the prelude open the block. -/
def atRule (keyword : Token) (ts : List Token) :
    { o : Outcome Rule // o.rest.length ≤ ts.length } :=
  let head := Phrase.read [';', '{', '}'] ts
  have hh : head.rest.length ≤ ts.length := Phrase.length_rest_read_le [';', '{', '}'] ts
  match hr : head.rest with
  | [] => ⟨⟨.statement keyword.text head.text keyword.position, head.comments, head.notes, []⟩,
      by simp⟩
  | t :: rest =>
    have hl : rest.length + 1 ≤ ts.length := by simpa [hr] using hh
    if t.isAmong ['{'] then
      let b := block rest
      ⟨⟨.group keyword.text head.text b.1.value.declarations (head.comments ++ b.1.value.rules)
          keyword.position, [], head.notes ++ b.1.notes, b.1.rest⟩,
        by have := b.2; dsimp only; omega⟩
    else
      ⟨⟨.statement keyword.text head.text keyword.position, head.comments, head.notes,
        skipSemicolon (t :: rest)⟩,
        by have := length_skipSemicolon_le (t :: rest); simp only [List.length_cons] at this
           dsimp only; omega⟩
termination_by 2 * ts.length
decreasing_by omega

/-- Reads a style rule from the first token of its selector on.  A selector that reaches no brace
is dropped, and so is a rule without selector and declarations. -/
def styleRule (first : Token) (ts : List Token) :
    { o : Outcome (Option Rule) // o.rest.length ≤ ts.length } :=
  let head := Phrase.read ['{'] (first :: ts)
  have hh : head.rest.length ≤ ts.length + 1 := Phrase.length_rest_read_le ['{'] (first :: ts)
  match hr : head.rest with
  | [] => ⟨⟨none, head.comments, head.notes ++ [.selectorWithoutBlock head.text], []⟩, by simp⟩
  | _ :: rest =>
    have hl : rest.length ≤ ts.length := by simpa [hr] using hh
    let b := block rest
    if head.text.isEmpty && b.1.value.declarations.isEmpty then
      ⟨⟨none, head.comments, head.notes ++ b.1.notes ++ [.emptyRule first.position], b.1.rest⟩,
        Nat.le_trans b.2 hl⟩
    else
      ⟨⟨some (.style head.text b.1.value.declarations b.1.value.rules first.position),
        head.comments, head.notes ++ b.1.notes, b.1.rest⟩, Nat.le_trans b.2 hl⟩
termination_by 2 * ts.length + 2
decreasing_by omega
end

/-- The rules of a stylesheet and the notes of the parser. -/
structure Sheet where
  rules : List Rule
  notes : List Note

/-- Reads a whole stylesheet.  Closing braces and semicolons between its rules are skipped. -/
def sheet (ts : List Token) : Sheet :=
  match ts with
  | [] => ⟨[], []⟩
  | t :: rest =>
    if t.kind = .whitespace then sheet rest
    else if t.kind = .comment then
      let s := sheet rest
      ⟨t.toComment :: s.rules, t.commentNotes ++ s.notes⟩
    else if t.isAmong ['}', ';'] then
      let s := sheet rest
      ⟨s.rules, .stray t.text t.position :: s.notes⟩
    else if t.kind = .atKeyword then
      let r := atRule t rest
      have : (atRule t rest).1.rest.length ≤ rest.length := (atRule t rest).2
      let s := sheet r.1.rest
      ⟨r.1.siblings ++ r.1.value :: s.rules, r.1.notes ++ s.notes⟩
    else
      let r := styleRule t rest
      have : (styleRule t rest).1.rest.length ≤ rest.length := (styleRule t rest).2
      let s := sheet r.1.rest
      ⟨r.1.siblings ++ r.1.value.toList ++ s.rules, r.1.notes ++ s.notes⟩
termination_by ts.length
decreasing_by all_goals (simp only [List.length_cons]; omega)

/-- The rules that a list of tokens denotes. -/
def parse (ts : List Token) : List Rule := (sheet ts).rules

end Stylesheet
end Galley
