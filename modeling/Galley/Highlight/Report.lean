/-
# Highlighting a comparison report

A report is highlighted line by line; the class of a line is told by its beginning.  The first
row that applies counts.

| line | spans |
| --- | --- |
| begins with `Diff Comparison`, `JSON Comparison:` or `Statistics:` | heading twice: the words, the rest |
| the two sides of the split layout | subheading, blank |
| ten or more of `=` and `-` | frame |
| begins with a code fence | frame, and a record if more follows |
| a statistic | label, punctuation, blank, number, blank |
| three dots | subheading |
| begins with the number columns of a layout | number, record |
| any other | record |

A record is inserted after `+ `, deleted after `- ` and plain otherwise.
-/

import Galley.Highlight.Span
import Galley.Text.Alphanumeric
import Galley.Text.Decimal

namespace Galley
namespace Highlight
namespace Report

/-- The words at the beginning of the parts of a report. -/
def headings : List Text :=
  ["Diff Comparison".toList, "JSON Comparison:".toList, "Statistics:".toList]

/-- The heading of a part. -/
def heading? (line : Text) : Option (List Span) :=
  (headings.find? fun h => h.isPrefixOf line).map fun h =>
    [⟨.heading, h⟩, ⟨.heading, line.drop h.length ++ ['\n']⟩]

/-- The heading of the split layout. -/
def sides? (line : Text) : Option (List Span) :=
  if line = "OLD (Left) | NEW (Right)".toList then
    some [⟨.subheading, line⟩, ⟨.blank, ['\n']⟩]
  else none

/-- A ruled line. -/
def ruling? (line : Text) : Option (List Span) :=
  if 10 ≤ line.length ∧ line.all (fun c => c == '=' || c == '-') then
    some [⟨.frame, line ++ ['\n']⟩]
  else none

/-- The span of a record, or of what is left of a line. -/
def record (t : Text) : Span :=
  ⟨if ['+', ' '].isPrefixOf t then .inserted
    else if ['-', ' '].isPrefixOf t then .deleted else .plain, t ++ ['\n']⟩

/-- Cuts off one beginning if it is there. -/
def cutStart? (start t : Text) : Option Text :=
  if start.isPrefixOf t then some (t.drop start.length) else none

/-- A code fence, which may name its language. -/
def fence? (line : Text) : Option (List Span) :=
  (cutStart? "```".toList line).map fun rest =>
    let rest := (cutStart? "diff".toList rest).getD rest
    let fence := line.take (line.length - rest.length)
    if rest.isEmpty then [⟨.frame, fence ++ ['\n']⟩] else [⟨.frame, fence⟩, record rest]

/-- Whether a text is the label of a statistic. -/
def isLabel (t : Text) : Bool :=
  t == "Similarity".toList ||
    (cutStart? "Lines ".toList t).any fun word => !word.isEmpty && word.all Text.isWordChar

/-- Whether a text is a number or a percentage. -/
def isAmount (t : Text) : Bool :=
  let rest := t.dropWhile Text.isDecimal
  rest.length < t.length && (rest.isEmpty || rest == ['%'])

/-- A statistic: its label, a colon, spaces and its value. -/
def statistic? (line : Text) : Option (List Span) :=
  (Text.splitFirst ':' line).bind fun (label, after) =>
    let gap := after.takeWhile (· == ' ')
    let amount := after.dropWhile (· == ' ')
    if isLabel label && isAmount amount then
      some ([⟨.label, label⟩, ⟨.punctuation, [':']⟩] ++
        (if gap.isEmpty then [] else [⟨.blank, gap⟩]) ++ [⟨.number, amount⟩, ⟨.blank, ['\n']⟩])
    else none

/-- The mark of lines that are left out. -/
def omission? (line : Text) : Option (List Span) :=
  if line = ['.', '.', '.'] then some [⟨.subheading, line ++ ['\n']⟩] else none

/-- Cuts off spaces, digits, one more space and a bar.  Without digits one space is enough. -/
def cutBarColumn? (t : Text) : Option (Text × Text) :=
  let spaces := t.takeWhile (· == ' ')
  let digits := (t.dropWhile (· == ' ')).takeWhile Text.isDecimal
  match digits, (t.dropWhile (· == ' ')).dropWhile Text.isDecimal with
  | [], '|' :: rest => if spaces.isEmpty then none else some (spaces ++ ['|'], rest)
  | d :: ds, ' ' :: '|' :: rest => some (spaces ++ d :: ds ++ [' ', '|'], rest)
  | _, _ => none

/-- The number columns of the split layout and what follows them. -/
def cutSplitColumns? (t : Text) : Option (Text × Text) := do
  let (left, rest) ← cutBarColumn? t
  let (right, rest) ← cutBarColumn? rest
  match rest with
  | ' ' :: rest => some (left ++ right ++ [' '], rest)
  | _ => none

/-- The number column of the inline layout and what follows it. -/
def cutInlineColumn? (t : Text) : Option (Text × Text) :=
  let spaces := t.takeWhile (· == ' ')
  let digits := (t.dropWhile (· == ' ')).takeWhile Text.isDecimal
  match (t.dropWhile (· == ' ')).dropWhile Text.isDecimal with
  | ':' :: ' ' :: rest => some (spaces ++ digits ++ [':', ' '], rest)
  | _ => none

/-- A record behind number columns. -/
def numbered? (line : Text) : Option (List Span) :=
  ((cutSplitColumns? line).or (cutInlineColumn? line)).map fun (columns, rest) =>
    [⟨.number, columns⟩, record rest]

/-- The spans of a line and its end. -/
def lineSpans (line : Text) : List Span :=
  ((((((heading? line).or (sides? line)).or (ruling? line)).or (fence? line)).or
    (statistic? line)).or (omission? line)).or (numbered? line) |>.getD [record line]

/-- The spans of a report. -/
def spans (t : Text) : List Span := (preparedLines t).flatMap lineSpans

end Report
end Highlight
end Galley
