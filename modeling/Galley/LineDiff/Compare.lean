/-
# Comparing two texts

The two texts are compared by lines or as JSON documents.  Two empty texts are refused, and so is
a text that is not the document it should be.
-/

import Galley.Json.Compare
import Galley.Json.Decode
import Galley.LineDiff.Report

namespace Galley
namespace LineDiff

/-- Why two texts are not compared. -/
inductive CompareError where
  | nothingToCompare
  | unreadable (e : Json.DecodeError)
  deriving DecidableEq, Repr

/-- The wording of an error. -/
def CompareError.message : CompareError → Text
  | .nothingToCompare => "Please provide both old and new text to compare".toList
  | .unreadable (.syntaxFault f n p) =>
    "Invalid JSON format in one or both inputs: ".toList ++
      (Json.DecodeError.syntaxFault f n p).message
  | .unreadable (.numeralTooLong n) => (Json.DecodeError.numeralTooLong n).message

/-- The outcome of a comparison. -/
inductive Comparison where
  | lines (output : Text) (statistics : Statistics) (records : List Record)
  | documents (output : WideText) (changes : List Json.Change)

/-- The report of an outcome. -/
def Comparison.output : Comparison → WideText
  | .lines out _ _ => out
  | .documents out _ => out

/-- Reads and compares two documents. -/
def compareDocuments (old new : Text) : Except Json.DecodeError (WideText × List Json.Change) := do
  let a ← Json.decode old
  let b ← Json.decode new
  let changes := Json.differences [] a b
  return (Json.comparisonReport a b changes, changes)

/-- Compares two texts; `limit` is the number of table cells beyond which a warning is given. -/
def compare (o : Options) (limit : Int) (old new : Text) :
    Logged (Except CompareError Comparison) := do
  if old.isEmpty && new.isEmpty then return .error .nothingToCompare
  match o.subject with
  | .documents =>
    match compareDocuments old new with
    | .error e =>
      match e with
      | .syntaxFault .. => return .error (.unreadable e)
      | .numeralTooLong _ =>
        .note 1 ("Diff failed: ".toList ++ e.message)
        return .error (.unreadable e)
    | .ok (output, changes) =>
      .note 2 ("JSON comparison found ".toList ++ Text.ofNat changes.length ++
        " differences".toList)
      return .ok (.documents output changes)
  | .lines =>
    let oldLines := Text.splitLines old
    let newLines := Text.splitLines new
    .note 2 ("Comparing ".toList ++ Text.ofNat oldLines.length ++ " old lines with ".toList ++
      Text.ofNat newLines.length ++ " new lines".toList)
    let rs ← recordsLogged limit o oldLines newLines
    let s := Statistics.of rs
    return .ok (.lines (report o rs s) s rs)

end LineDiff
end Galley
