/-
# The fields of options

Both records of options are read field by field.  A table lists the fields of a record, one row each
(`Stylesheet.Options.fields`, `LineDiff.Options.fields`):

| column | |
| --- | --- |
| `name` | the name under which a value is given |
| `read` | what a given value is read as by the readers of a library |
| `get` | the field of the record |
| `asked` | what a request gives for the field |
| `setting` | what the settings give for it |

`Reads` says that a record is read by its table: its complaints are those about the fields and about
names that are not in the table.  From it follows when options are complained about
(`Reads.exists_result_iff`) and what each field is if they are not (`Reads.result_eq_ok_iff`).
-/

import Galley.Given.Records
import Galley.Given.Settings
import Galley.Proofs.Run.Options
import Galley.Run.Request

namespace Galley
namespace Given

/-- A field of a record of options. -/
structure RecordField (ρ : Type) where
  Value : Type
  name : Text
  read : Given → Except Complaint Value
  get : ρ → Value
  asked : Request → Option Given
  setting : Settings → Option Given

variable {ρ : Type}

namespace RecordField

/-- A truth value that only a preset gives. -/
def truth (R : Readers) (name : String) (get : ρ → Bool) : RecordField ρ :=
  ⟨Bool, name.toList, R.truth, get, fun _ => none, fun _ => none⟩

/-- A truth value that a flag of a request stands for when it is set. -/
def flag (R : Readers) (name : String) (get : ρ → Bool) (value : Bool) (isSet : Request → Bool) :
    RecordField ρ :=
  { truth R name get with asked := fun r => if isSet r then some (.bool value) else none }

/-- The field as it is read from entries. -/
def checked (f : RecordField ρ) (standard : ρ) (es : Entries) : Checked f.Value :=
  field es f.name (f.get standard) f.read

/-- Whether a value that may be given for a field is one for it. -/
def Accepts (f : RecordField ρ) (v : Option Given) : Prop := ∀ w ∈ v, ∃ a, f.read w = .ok a

/-- Whether a field of options is what a given value says, or the standard where none is given. -/
def Takes (f : RecordField ρ) (standard o : ρ) : Option Given → Prop
  | none => f.get o = f.get standard
  | some v => f.read v = .ok (f.get o)

variable {f : RecordField ρ} {standard o : ρ} {es : Entries}

/-- **A field is complained about** if a value is given that is none for it. -/
theorem problems_checked_eq_nil_iff :
    (f.checked standard es).problems = [] ↔ f.Accepts (Entries.find? f.name es) := by
  unfold checked field Accepts
  cases Entries.find? f.name es with
  | none => exact iff_of_true rfl nofun
  | some v =>
    cases hread : f.read v with
    | ok a => simp [hread]
    | error c => simp [hread]

theorem Takes.accepts {v : Option Given} (h : f.Takes standard o v) : f.Accepts v := by
  rintro w rfl
  exact ⟨_, h⟩

/-- What is given for a field settles it. -/
theorem Takes.get_eq {o' : ρ} {v : Option Given} (h : f.Takes standard o v)
    (h' : f.Takes standard o' v) : f.get o = f.get o' := by
  cases v with
  | none => exact h.trans h'.symm
  | some v => exact Except.ok.inj (h.symm.trans h')

theorem takes_checked (h : (f.checked standard es).problems = [])
    (ho : f.get o = (f.checked standard es).value) :
    f.Takes standard o (Entries.find? f.name es) := by
  rcases field_cases h with ⟨hnone, hvalue⟩ | ⟨v, hv, hvalue⟩
  · rw [hnone]
    exact ho.trans hvalue
  · rw [hv, Takes, ho]
    exact hvalue

end RecordField

/-- Whether a record is read by a table of fields. -/
structure Reads (check : Entries → Checked ρ) (standard : ρ) (fields : List (RecordField ρ)) :
    Prop where
  problems : ∀ es, (check es).problems =
    (fields.flatMap fun f => (f.checked standard es).problems) ++
      (onlyNames es (fields.map RecordField.name)).problems
  get : ∀ es, ∀ f ∈ fields, f.get (check es).value = (f.checked standard es).value
  ext : ∀ o o', (∀ f ∈ fields, f.get o = f.get o') → o = o'

/-- No name is complained about if all are those of fields. -/
theorem problems_onlyNames_eq_nil_iff {es : Entries} {fields : List (RecordField ρ)} :
    (onlyNames es (fields.map RecordField.name)).problems = [] ↔
      ∀ e ∈ es, ∃ f ∈ fields, e.1 = f.name := by
  rw [onlyNames, List.map_eq_nil_iff, List.filter_eq_nil_iff]
  refine forall₂_congr fun e _ => ?_
  rw [Bool.not_eq_true', Bool.not_eq_false, List.contains_iff_mem, List.map_map, List.mem_map]
  exact exists_congr fun f => and_congr_right fun _ => eq_comm

namespace Reads

variable {check : Entries → Checked ρ} {standard o : ρ} {fields : List (RecordField ρ)}
variable {es : Entries}

theorem problems_eq_nil_iff (h : Reads check standard fields) :
    (check es).problems = [] ↔
      (∀ f ∈ fields, f.Accepts (Entries.find? f.name es)) ∧
        ∀ e ∈ es, ∃ f ∈ fields, e.1 = f.name := by
  rw [h.problems, List.append_eq_nil_iff, problems_onlyNames_eq_nil_iff, List.flatMap_eq_nil_iff]
  simp only [RecordField.problems_checked_eq_nil_iff]

/-- **Options are read** if each value is one for its field and all names are those of fields. -/
theorem exists_result_iff (h : Reads check standard fields) :
    (∃ o, (check es).result = .ok o) ↔
      (∀ f ∈ fields, f.Accepts (Entries.find? f.name es)) ∧
        ∀ e ∈ es, ∃ f ∈ fields, e.1 = f.name := by
  rw [← h.problems_eq_nil_iff]
  simp only [Checked.result_eq_ok_iff, exists_and_left, exists_eq', and_true]

theorem takes (h : Reads check standard fields) (hproblems : (check es).problems = []) :
    ∀ f ∈ fields, f.Takes standard (check es).value (Entries.find? f.name es) := by
  obtain ⟨haccepts, -⟩ := h.problems_eq_nil_iff.1 hproblems
  intro f hf
  have hchecked : (f.checked standard es).problems = [] :=
    RecordField.problems_checked_eq_nil_iff.2 (haccepts f hf)
  exact RecordField.takes_checked hchecked (h.get es f hf)

/-- **Options are read** as those whose fields are what the values given for them say. -/
theorem result_eq_ok_iff (h : Reads check standard fields) :
    (check es).result = .ok o ↔
      (∀ f ∈ fields, f.Takes standard o (Entries.find? f.name es)) ∧
        ∀ e ∈ es, ∃ f ∈ fields, e.1 = f.name := by
  rw [Checked.result_eq_ok_iff]
  constructor
  · rintro ⟨hproblems, rfl⟩
    exact ⟨h.takes hproblems, (h.problems_eq_nil_iff.1 hproblems).2⟩
  · rintro ⟨htakes, hnames⟩
    have hproblems := h.problems_eq_nil_iff.2 ⟨fun f hf => (htakes f hf).accepts, hnames⟩
    exact ⟨hproblems, h.ext _ _ fun f hf => (h.takes hproblems f hf).get_eq (htakes f hf)⟩

end Reads
end Given

open Given (RecordField Reads)

/-! ### The tables -/

namespace Stylesheet.Options

/-- The fields of the options for formatting a stylesheet. -/
def fields (R : Given.Readers) : List (RecordField Options) := [
  ⟨Mode, "mode".toList, R.choice Mode.choices, mode, fun r => r.mode.map .word,
    fun _ => none⟩,
  ⟨Nat, "indent_size".toList, R.natural 0, indentSize, fun r => r.indentSize.map .int,
    fun s => some (.int s.indentSize)⟩,
  ⟨Indentation, "indent_type".toList, R.choice Indentation.choices, indentType,
    fun r => r.indentType.map .word, fun _ => none⟩,
  .truth R "space_before_brace" spaceBeforeBrace,
  .truth R "newline_before_brace" newlineBeforeBrace,
  .truth R "blank_line_after_brace" blankLineAfterBrace,
  .truth R "blank_line_before_close_brace" blankLineBeforeCloseBrace,
  .truth R "blank_line_after_rule" blankLineAfterRule,
  .truth R "newline_after_comma" newlineAfterComma,
  .flag R "preserve_comments" preserveComments false Request.stripComments,
  .flag R "drop_empty_rules" dropEmptyRules true Request.removeEmptyRules,
  .flag R "sort_declarations" sortDeclarations true Request.sortProperties,
  .truth R "space_after_colon" spaceAfterColon,
  .truth R "space_after_comma" spaceAfterComma,
  .truth R "autoprefixer" autoprefixer]

theorem reads (R : Given.Readers) : Reads (check R) standard (fields R) where
  problems es := by
    simp only [check, fields, Given.Checked.problems_bind, Given.Checked.problems_pure,
      List.flatMap_cons, List.flatMap_nil, List.append_assoc, List.append_nil]
    rfl
  get es := by
    simp only [fields, List.forall_mem_cons]
    exact ⟨rfl, rfl, rfl, rfl, rfl, rfl, rfl, rfl, rfl, rfl, rfl, rfl, rfl, rfl, rfl,
      List.forall_mem_nil _⟩
  ext o o' h := by
    obtain ⟨⟩ := o
    obtain ⟨⟩ := o'
    simpa [fields, RecordField.flag, RecordField.truth] using h

end Stylesheet.Options

namespace LineDiff.Options

/-- The fields of the options for comparing two texts. -/
def fields (R : Given.Readers) : List (RecordField Options) := [
  ⟨Layout, "diff_type".toList, R.choice Layout.choices, layout,
    fun r => r.diffType.map .word, fun _ => none⟩,
  .flag R "ignore_whitespace" ignoreWhitespace true Request.ignoreWhitespace,
  .flag R "ignore_case" ignoreCase true Request.ignoreCase,
  .flag R "show_line_numbers" showLineNumbers false Request.noLineNumbers,
  ⟨Nat, "context_lines".toList, R.natural 0, contextLines, fun r => r.contextLines.map .int,
    fun s => some (.int s.contextLines)⟩,
  ⟨Subject, "compare_mode".toList, R.choice Subject.choices, subject,
    fun r => r.compareMode.map .word, fun _ => none⟩,
  .flag R "show_stats" showStatistics false Request.noStats]

theorem reads (R : Given.Readers) : Reads (check R) standard (fields R) where
  problems es := by
    simp only [check, fields, Given.Checked.problems_bind, Given.Checked.problems_pure,
      List.flatMap_cons, List.flatMap_nil, List.append_assoc, List.append_nil]
    rfl
  get es := by
    simp only [fields, List.forall_mem_cons]
    exact ⟨rfl, rfl, rfl, rfl, rfl, rfl, rfl, List.forall_mem_nil _⟩
  ext o o' h := by
    obtain ⟨⟩ := o
    obtain ⟨⟩ := o'
    simpa [fields, RecordField.flag, RecordField.truth] using h

end LineDiff.Options
end Galley
