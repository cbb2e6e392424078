/-
# JSON documents

A document is a value.  Whole numbers are exact and of any size; numbers with a fraction or an
exponent are binary64.  The members of an object keep their order and have distinct keys.  Texts and
keys are wide, since escapes may denote surrogates that stand on their own.
-/

import Galley.Number.Binary64
import Galley.Text.Wide

namespace Galley

/-- A JSON value. -/
inductive Json where
  | null
  | bool (b : Bool)
  | int (i : Int)
  | float (x : Binary64)
  | text (t : WideText)
  | array (items : List Json)
  | object (members : List (WideText × Json))
  deriving Repr, Inhabited

namespace Json

/-- The types of values.  Both forms of numbers are one type. -/
inductive Kind where
  | null
  | boolean
  | number
  | string
  | array
  | object
  deriving DecidableEq, Repr

/-- The word for a type. -/
def Kind.name : Kind → Text
  | .null => "null".toList
  | .boolean => "boolean".toList
  | .number => "number".toList
  | .string => "string".toList
  | .array => "array".toList
  | .object => "object".toList

/-- The type of a value. -/
def kind : Json → Kind
  | .null => .null
  | .bool _ => .boolean
  | .int _ => .number
  | .float _ => .number
  | .text _ => .string
  | .array _ => .array
  | .object _ => .object

/-- The value under a key. -/
def find? (key : WideText) : List (WideText × Json) → Option Json
  | [] => none
  | (k, v) :: ms => if k = key then some v else find? key ms

/-- Puts a value under a key: in place of the value there, or at the end. -/
def put (key : WideText) (value : Json) : List (WideText × Json) → List (WideText × Json)
  | [] => [(key, value)]
  | (k, v) :: ms => if k = key then (k, value) :: ms else (k, v) :: put key value ms

/-- The member of an object under a key. -/
def member? (key : WideText) : Json → Option Json
  | .object ms => find? key ms
  | _ => none

/-- Whether two values are numbers of the same value, equal texts, equal truth values or both
null. -/
def sameScalar : Json → Json → Bool
  | .null, .null => true
  | .bool a, .bool b => a == b
  | .int a, .int b => a == b
  | .int a, .float x => x.equalsInt a
  | .float x, .int b => x.equalsInt b
  | .float x, .float y => x.sameValue y
  | .text s, .text t => s == t
  | _, _ => false

end Json
end Galley
