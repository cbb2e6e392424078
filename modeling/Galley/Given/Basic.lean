/-
# Given values

Options come from requests, preset files, the environment and the command line as values under
names.  What a value means for a field is not decided here: a library reads it, and either accepts
it or complains (`Given.Readers`).

`Checked` collects the complaints about all fields of a record: a field that is complained about
has its standard value, and the record counts only when there are no complaints.
-/

import Galley.Number.Binary64
import Galley.Text.Wide

namespace Galley

/-- A value without parts. -/
inductive Given.Atom where
  | null
  | bool (b : Bool)
  | int (i : Int)
  | float (x : Binary64)
  | text (t : WideText)
  | bytes (bs : List UInt8)
  | date (t : Text)
  | dateTime (t : Text)
  deriving DecidableEq, Repr

/-- A value: one without parts, a sequence, a mapping from values without parts, or an object of
another type, which nobody looks into. -/
inductive Given where
  | atom (a : Given.Atom)
  | sequence (items : List Given)
  | mapping (pairs : List (Given.Atom × Given))
  | object (type : Text)
  deriving Repr, Inhabited

namespace Given

/-- No value. -/
@[match_pattern]
abbrev null : Given := .atom .null

/-- A truth value. -/
@[match_pattern]
abbrev bool (b : Bool) : Given := .atom (.bool b)

/-- A whole number. -/
@[match_pattern]
abbrev int (i : Int) : Given := .atom (.int i)

/-- A number with a fraction. -/
@[match_pattern]
abbrev float (x : Binary64) : Given := .atom (.float x)

/-- A text. -/
@[match_pattern]
abbrev text (t : WideText) : Given := .atom (.text t)

/-- A text without surrogates. -/
abbrev word (t : Text) : Given := .text t.wide

theorem word_inj {s t : Text} : word s = word t ↔ s = t := by
  rw [atom.injEq, Atom.text.injEq, Text.wide_inj]

/-- The word for the type of a value without parts. -/
def Atom.typeName : Atom → Text
  | .null => "NoneType".toList
  | .bool _ => "bool".toList
  | .int _ => "int".toList
  | .float _ => "float".toList
  | .text _ => "str".toList
  | .bytes _ => "bytes".toList
  | .date _ => "datetime.date".toList
  | .dateTime _ => "datetime.datetime".toList

/-! ### Readers -/

/-- Why a value is not accepted, by the code of the complaint. -/
abbrev Complaint := Text

/-- A complaint about the value under a name. -/
structure Problem where
  name : WideText
  complaint : Complaint
  deriving DecidableEq, Repr

/-- What reads the values of fields: one of several words, a truth value, a natural number that is
not below a least one, and a text. -/
structure Readers where
  choice : {α : Type} → List (Text × α) → Given → Except Complaint α
  truth : Given → Except Complaint Bool
  natural : Nat → Given → Except Complaint Nat
  text : Given → Except Complaint Text

/-- Whether a choice is only ever read from one of its words, and means what the word stands for. -/
def Readers.ReadsWords (R : Readers) : Prop :=
  ∀ {α : Type} (choices : List (Text × α)) (v : Given) (a : α),
    R.choice choices v = .ok a → ∃ c ∈ choices, v = .text c.1 ∧ a = c.2

/-! ### Records of options -/

/-- Values under names, each name once. -/
abbrev Entries := List (WideText × Given)

namespace Entries

/-- The value under a name. -/
def find? (name : WideText) (entries : Entries) : Option Given :=
  (List.find? (fun e => e.1 == name) entries).map Prod.snd

/-- Puts a value under a name: in place of the value there, or at the end. -/
def put (name : WideText) (value : Given) : Entries → Entries
  | [] => [(name, value)]
  | (n, v) :: es => if n = name then (n, value) :: es else (n, v) :: put name value es

/-- The entries of two records; those of the second win. -/
def overlay (lower upper : Entries) : Entries :=
  upper.foldl (fun es e => put e.1 e.2 es) lower

end Entries

/-- A value and the complaints met while it was read. -/
structure Checked (α : Type) where
  value : α
  problems : List Problem

namespace Checked

instance : Monad Checked where
  pure a := ⟨a, []⟩
  bind x f := ⟨(f x.value).value, x.problems ++ (f x.value).problems⟩

/-- The value if there were no complaints, the complaints otherwise. -/
def result {α : Type} (x : Checked α) : Except (List Problem) α :=
  if x.problems.isEmpty then .ok x.value else .error x.problems

end Checked

/-- Reads the field of a name: its standard value where none is given. -/
def field {α : Type} (entries : Entries) (name : Text) (standard : α)
    (read : Given → Except Complaint α) : Checked α :=
  match Entries.find? name entries with
  | none => ⟨standard, []⟩
  | some v =>
    match read v with
    | .ok a => ⟨a, []⟩
    | .error c => ⟨standard, [⟨name, c⟩]⟩

/-- The complaint about a name that is none of a field. -/
def unknownName : Complaint := "extra_forbidden".toList

/-- Complains about the names that are not those of fields. -/
def onlyNames (entries : Entries) (names : List Text) : Checked Unit :=
  ⟨(), (entries.filter fun e => !(names.map Text.wide).contains e.1).map
    fun e => ⟨e.1, unknownName⟩⟩

end Given
end Galley
