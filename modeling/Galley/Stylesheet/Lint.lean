/-
# Findings about a stylesheet

The style rules at the top level are checked; rules inside others are not visited.  A finding is
located at its rule.

| finding | severity | when |
| --- | --- | --- |
| `emptySelector` | warning | the selector is blank |
| `emptyProperty` | error | a property is blank |
| `emptyValue` | warning | a value is blank |
| `invalidProperty` | error | a property contains a space |
-/

import Galley.Stylesheet.Rule
import Galley.Text.Blank

namespace Galley
namespace Stylesheet

/-- How serious a finding is. -/
inductive Severity where
  | error
  | warning
  deriving DecidableEq, Repr

/-- What is found. -/
inductive Finding where
  | emptySelector
  | emptyProperty
  | emptyValue (property : Text)
  | invalidProperty (property : Text)
  deriving DecidableEq, Repr

namespace Finding

/-- The severity of a finding. -/
def severity : Finding → Severity
  | .emptySelector => .warning
  | .emptyProperty => .error
  | .emptyValue _ => .warning
  | .invalidProperty _ => .error

/-- The stable name of a finding. -/
def code : Finding → Text
  | .emptySelector => "empty-selector".toList
  | .emptyProperty => "empty-property".toList
  | .emptyValue _ => "empty-value".toList
  | .invalidProperty _ => "invalid-property".toList

/-- The wording of a finding. -/
def message : Finding → Text
  | .emptySelector => "Empty selector".toList
  | .emptyProperty => "Empty property name".toList
  | .emptyValue p => "Empty value for property '".toList ++ p ++ ['\'']
  | .invalidProperty p => "Invalid property name '".toList ++ p ++ "' (contains spaces)".toList

end Finding

/-- The word for a severity. -/
def Severity.word : Severity → Text
  | .error => "error".toList
  | .warning => "warning".toList

/-- A finding and the place of the rule it is about. -/
structure Issue where
  finding : Finding
  position : Position
  deriving DecidableEq, Repr

namespace Issue

/-- Whether an issue is an error. -/
def isError (i : Issue) : Bool := i.finding.severity == .error

/-- An issue on one line. -/
def describe (i : Issue) : Text :=
  i.finding.severity.word ++ " [".toList ++ i.finding.code ++ "] line ".toList ++
    Text.ofInt i.position.line ++ ", column ".toList ++ Text.ofInt i.position.column ++
    ": ".toList ++ i.finding.message

end Issue

/-- The findings about one declaration. -/
def Declaration.findings (d : Declaration) : List Finding :=
  (if d.property.allBlank then [.emptyProperty] else []) ++
    (if d.value.allBlank then [.emptyValue d.property] else []) ++
    (if d.property.contains ' ' then [.invalidProperty d.property] else [])

/-- The issues of one rule: those of its selector, then those of its declarations in order. -/
def Rule.issues : Rule → List Issue
  | .style selector ds _ p =>
    let found := (if selector.allBlank then [Finding.emptySelector] else []) ++
      ds.flatMap Declaration.findings
    found.map fun f => ⟨f, p⟩
  | _ => []

/-- The issues of a stylesheet, in the order of its rules. -/
def validate (rules : List Rule) : List Issue := rules.flatMap Rule.issues

end Stylesheet
end Galley
