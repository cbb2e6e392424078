/-
# The command line

The arguments of a run.  An option may be written in full or by any beginning of it that no other
option shares; its value is the next argument or follows an equals sign.  Of several values the
last one counts.

| argument | reading |
| --- | --- |
| begins with a minus sign | an option, except for a minus sign alone, a number, and a text with a space that is no beginning of an option |
| any other | the value of the option before it |

An argument that is neither an option nor the value of one is an error, and so are a value that
does not fit its option and a missing input file.
-/

import Galley.Run.Request
import Galley.Text.Blank
import Galley.Text.Decimal

namespace Galley
namespace Arguments

/-- What an option does with a request.  `information` asks for a text about the program. -/
inductive Action where
  | text (set : Text → Request → Request)
  | choice (words : List Text) (set : Text → Request → Request)
  | integer (set : Int → Request → Request)
  | flag (set : Request → Request)
  | information

/-- An option: its names and its action. -/
structure Switch where
  names : List Text
  action : Action

/-- Why arguments are not understood. -/
inductive Refusal where
  | ambiguous (argument : Text)
  | unknown (argument : Text)
  | unexpectedValue (argument : Text)
  | missingValue (argument : Text)
  | invalidValue (argument value : Text)
  | missingInput
  deriving DecidableEq, Repr

/-- An option with one long name. -/
def long (name : String) (action : Action) : Switch := ⟨[name.toList], action⟩

/-- Words as texts. -/
def words (ws : List String) : List Text := ws.map String.toList

/-- The name of the option that must be given. -/
def inputName : Text := "--inputFile".toList

/-- The options. -/
def options : List Switch := [
  ⟨["-h".toList, "--help".toList], .information⟩,
  long "--tool" (.choice (words ["css", "diff"]) fun t r => { r with tool := t }),
  ⟨[inputName], .text fun t r => { r with inputFile := t }⟩,
  long "--compareFile" (.text fun t r => { r with compareFile := some t }),
  long "--outputFile" (.text fun t r => { r with outputFile := t }),
  long "--presetFile" (.text fun t r => { r with presetFile := some t }),
  long "--html" (.flag fun r => { r with html := true }),
  long "--mode" (.choice (words ["beautify", "minify"]) fun t r => { r with mode := some t }),
  long "--indentSize" (.integer fun i r => { r with indentSize := some i }),
  long "--indentType" (.choice (words ["spaces", "tabs"]) fun t r =>
    { r with indentType := some t }),
  long "--sortProperties" (.flag fun r => { r with sortProperties := true }),
  long "--removeEmptyRules" (.flag fun r => { r with removeEmptyRules := true }),
  long "--stripComments" (.flag fun r => { r with stripComments := true }),
  long "--diffType" (.choice (words ["unified", "split", "inline"]) fun t r =>
    { r with diffType := some t }),
  long "--contextLines" (.integer fun i r => { r with contextLines := some i }),
  long "--compareMode" (.choice (words ["text", "json"]) fun t r =>
    { r with compareMode := some t }),
  long "--ignoreWhitespace" (.flag fun r => { r with ignoreWhitespace := true }),
  long "--ignoreCase" (.flag fun r => { r with ignoreCase := true }),
  long "--noLineNumbers" (.flag fun r => { r with noLineNumbers := true }),
  long "--noStats" (.flag fun r => { r with noStats := true }),
  ⟨["-v".toList, "--verbosity".toList], .flag fun r => { r with verbosity := r.verbosity + 1 }⟩,
  ⟨["-V".toList, "--version".toList], .information⟩]

/-- All names with the actions of their options. -/
def named : List (Text × Action) := options.flatMap fun o => o.names.map fun n => (n, o.action)

/-- The action of a name. -/
def find? (name : Text) : Option Action := (named.find? fun n => n.1 == name).map Prod.snd

/-- An argument: a value, a text that looks like an option and is none, or an option with the text
attached to it. -/
inductive Argument where
  | value (t : Text)
  | unknown (t : Text)
  | option (name : Text) (action : Action) (attached : Option Text)

/-- Whether a text is a negative number. -/
def isNegativeNumber (t : Text) : Bool :=
  match t with
  | '-' :: ds =>
    match Text.splitFirst '.' ds with
    | none => !ds.isEmpty && ds.all Text.isDecimal
    | some (whole, fraction) =>
      whole.all Text.isDecimal && !fraction.isEmpty && fraction.all Text.isDecimal
  | _ => false

/-- The options that an argument may mean which is no full name: those whose names begin with it,
or the short option that it begins with. -/
def candidates (t : Text) : List (Text × Action × Option Text) :=
  match t with
  | '-' :: '-' :: _ =>
    let (start, attached) := match Text.splitFirst '=' t with
      | some (name, v) => (name, some v)
      | none => (t, none)
    (named.filter fun n => start.isPrefixOf n.1).map fun n => (n.1, n.2, attached)
  | _ =>
    named.filterMap fun n =>
      if n.1 = t.take 2 then some (n.1, n.2, some (t.drop 2))
      else if t.isPrefixOf n.1 then some (n.1, n.2, none) else none

/-- Reads one argument on its own. -/
def classify (t : Text) : Except Refusal Argument :=
  if t.head? ≠ some '-' ∨ t = ['-'] then .ok (.value t)
  else
    match find? t with
    | some a => .ok (.option t a none)
    | none =>
      let full : Option Argument := do
        let (name, v) ← Text.splitFirst '=' t
        let a ← find? name
        return .option name a (some v)
      match full with
      | some a => .ok a
      | none =>
        match candidates t with
        | [(name, a, attached)] => .ok (.option name a attached)
        | _ :: _ :: _ => .error (.ambiguous t)
        | [] =>
          if isNegativeNumber t || t.contains ' ' then .ok (.value t) else .ok (.unknown t)

/-- The greatest number of digits of an integer. -/
def digitLimit : Nat := 4300

/-- The integer that a value denotes, in digits of any script. -/
def int? (t : Text) : Option Int :=
  let (negative, digits) := Text.splitSign (Text.trim t)
  (Text.digitsWithUnderscores? Text.decimalValue? digits).bind fun ds =>
    if ds.length ≤ digitLimit then some (Text.signed negative (Text.valueOf 10 ds)) else none

/-- Applies an option with a value. -/
def apply (name : Text) (a : Action) (v : Text) (r : Request) : Except Refusal Request :=
  match a with
  | .text set => .ok (set v r)
  | .choice ws set => if ws.contains v then .ok (set v r) else .error (.invalidValue name v)
  | .integer set =>
    match int? v with
    | some i => .ok (set i r)
    | none => .error (.invalidValue name v)
  | .flag _ => .error (.unexpectedValue name)
  | .information => .error (.unexpectedValue name)

/-- What arguments ask for: a run, or a text about the program. -/
inductive Wish where
  | information
  | run (r : Request)
  deriving DecidableEq, Repr

/-- A request under construction, whether its input has been given, and the first argument that
belongs nowhere. -/
structure Draft where
  request : Request
  hasInput : Bool
  stray : Option Text

/-- The draft after an option. -/
def Draft.next (d : Draft) (name : Text) (r : Request) : Draft :=
  { d with request := r, hasInput := d.hasInput || name == inputName }

/-- The draft after an argument that belongs nowhere. -/
def Draft.after (d : Draft) (stray : Text) : Draft := { d with stray := d.stray.or (some stray) }

/-- The request of a draft that is complete. -/
def Draft.finish (d : Draft) : Except Refusal Wish :=
  match d.hasInput, d.stray with
  | false, _ => .error .missingInput
  | true, some t => .error (.unknown t)
  | true, none => .ok (.run d.request)

/-- Applies short options without values, written in one argument. -/
def applyCluster (r : Request) : Text → Except Refusal (Option Request)
  | [] => .ok (some r)
  | c :: cs =>
    match find? ['-', c] with
    | some (.flag set) => applyCluster (set r) cs
    | some .information => .ok none
    | _ => .error (.unexpectedValue ['-', c])

/-- Whether a name is a short one. -/
def isShort (name : Text) : Bool := name.length == 2

/-- Reads the remaining arguments. -/
def parseFrom (d : Draft) : List Text → Except Refusal Wish
  | [] => d.finish
  | t :: ts =>
    match classify t with
    | .error e => .error e
    | .ok (.value v) => parseFrom (d.after v) ts
    | .ok (.unknown t) => parseFrom (d.after t) ts
    | .ok (.option name a attached) =>
      match a, attached with
      | .flag set, none => parseFrom (d.next name (set d.request)) ts
      | .information, none => .ok .information
      | .flag set, some v =>
        if isShort name && !v.isEmpty then
          match applyCluster (set d.request) v with
          | .error e => .error e
          | .ok none => .ok .information
          | .ok (some r) => parseFrom (d.next name r) ts
        else .error (.unexpectedValue name)
      | .information, some v =>
        if isShort name && !v.isEmpty then .ok .information else .error (.unexpectedValue name)
      | a, some v =>
        match apply name a v d.request with
        | .error e => .error e
        | .ok r => parseFrom (d.next name r) ts
      | a, none =>
        match ts with
        | [] => .error (.missingValue name)
        | v :: more =>
          match classify v with
          | .ok (.value v) =>
            match apply name a v d.request with
            | .error e => .error e
            | .ok r => parseFrom (d.next name r) more
          | _ => .error (.missingValue name)

/-- The wish that arguments express for the given directories. -/
def parse (inputDir outputDir : Path) (args : List Text) : Except Refusal Wish :=
  parseFrom ⟨.standard inputDir outputDir, false, none⟩ args

end Arguments
end Galley
