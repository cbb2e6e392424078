/-
# What the split and the inline layout keep

Both layouts show every record on a line of its own: numbers in columns if they are wanted, a mark
and the content.  Nothing of that is lost, whatever the contents look like
(`split_inline_lossless`): contents may begin like a mark or like a column of numbers, look like the
fence of the split layout or be empty, and numbers may be of any size, negative or missing.

The text is read from its start.  A line ends at its first line feed (`Text.unlines_inj`).  A column
ends where a character stands that is in no column, and the number can be told from it
(`numberColumn_append_inj`); a mark has two characters, and the rest of the line is the content
(`marked_inj`).
-/

import Galley.LineDiff.Report
import Galley.Proofs.Text.Lines
import Galley.Proofs.Text.Numeral
import Mathlib.Data.List.TakeWhile

namespace Galley
namespace LineDiff

variable {o : Options} {r r' : Record} {rs rs' : List Record} {m n : Option Int} {sep : Text}

/-! ### Columns -/

/-- Whether a character can stand in a column of numbers. -/
def InColumn (c : Char) : Prop := c = ' ' ∨ c = '-' ∨ c.isDigit = true

instance (c : Char) : Decidable (InColumn c) := inferInstanceAs (Decidable (_ ∨ _))

theorem inColumn_of_mem {c : Char} (h : c ∈ numberColumn n) : InColumn c := by
  rcases List.mem_append.1 h with h | h
  · exact Or.inl (List.eq_of_mem_replicate h)
  · cases n with
    | none => cases h
    | some i => exact Or.inr (Text.of_mem_ofInt h)

theorem not_blank_of_mem_ofInt {c : Char} {i : Int} (h : c ∈ Text.ofInt i) : (c != ' ') = true := by
  rw [bne_iff_ne]
  rintro rfl
  rcases Text.of_mem_ofInt h with h | h <;> cases h

/-- A column without blanks is the numeral. -/
theorem filter_numberColumn (n : Option Int) :
    (numberColumn n).filter (· != ' ') = n.elim [] Text.ofInt := by
  have hnumeral : ∀ c ∈ n.elim [] Text.ofInt, (c != ' ') = true := by
    cases n with
    | none => simp
    | some i => exact fun c => not_blank_of_mem_ofInt
  rw [numberColumn, List.leftpad, List.filter_append, List.filter_replicate_of_neg (by decide),
    List.nil_append, List.filter_eq_self.2 hnumeral]

theorem numberColumn_inj : numberColumn m = numberColumn n ↔ m = n := by
  refine ⟨fun h => ?_, congrArg numberColumn⟩
  have hnumeral : m.elim [] Text.ofInt = n.elim [] Text.ofInt := by
    rw [← filter_numberColumn, h, filter_numberColumn]
  cases m with
  | none =>
    cases n with
    | none => rfl
    | some j => exact absurd hnumeral.symm (Text.ofInt_ne_nil j)
  | some i =>
    cases n with
    | none => exact absurd hnumeral (Text.ofInt_ne_nil i)
    | some j => rw [Text.ofInt_inj.1 hnumeral]

/-- A column ends in front of the first character that is in no column. -/
theorem takeWhile_inColumn (hsep : ∃ c ∈ sep, ¬ InColumn c) (n : Option Int) (t : Text) :
    (numberColumn n ++ sep ++ t).takeWhile (fun c => InColumn c) =
      numberColumn n ++ sep.takeWhile fun c => InColumn c := by
  obtain ⟨c, hc, hout⟩ := hsep
  have hends : (sep.takeWhile fun c => InColumn c).length ≠ sep.length := by
    intro hlength
    have hall := List.takeWhile_eq_self_iff.1 ((List.takeWhile_prefix _).eq_of_length hlength)
    exact hout (of_decide_eq_true (hall c hc))
  have hcolumn : ∀ c ∈ numberColumn n, decide (InColumn c) = true := fun c hc =>
    decide_eq_true (inColumn_of_mem hc)
  rw [List.append_assoc, List.takeWhile_append_of_pos hcolumn, List.takeWhile_append, if_neg hends]

/-- **A column can be told from what follows it**, if what separates the two is not of characters of
columns alone. -/
theorem numberColumn_append_inj (hsep : ∃ c ∈ sep, ¬ InColumn c) {s t : Text} :
    numberColumn m ++ sep ++ s = numberColumn n ++ sep ++ t ↔ m = n ∧ s = t := by
  constructor
  · intro h
    have hcolumn : numberColumn m ++ sep.takeWhile (fun c => InColumn c) =
        numberColumn n ++ sep.takeWhile fun c => InColumn c := by
      rw [← takeWhile_inColumn hsep m s, h, takeWhile_inColumn hsep n t]
    obtain rfl := numberColumn_inj.1 (List.append_cancel_right hcolumn)
    exact ⟨rfl, List.append_cancel_left h⟩
  · rintro ⟨rfl, rfl⟩
    rfl

/-! ### Lines -/

/-- What a layout shows of a record in any case: what became of the line, and the line. -/
def Record.entry (r : Record) : Fate × Text := (r.fate, r.content)

/-- The numbers of the line in the old and the new text. -/
def Record.numbers (r : Record) : Option Int × Option Int := (r.oldLine, r.newLine)

theorem length_mark (fate : Fate) : fate.mark.length = 2 := by
  cases fate <;> rfl

theorem mark_inj {fate fate' : Fate} : fate.mark = fate'.mark ↔ fate = fate' := by
  cases fate <;> cases fate' <;> decide

/-- A mark and the content can be told from a line. -/
theorem marked_inj : r.marked = r'.marked ↔ r.entry = r'.entry := by
  have hlength : r.fate.mark.length = r'.fate.mark.length := by rw [length_mark, length_mark]
  rw [Record.entry, Record.entry, Prod.mk.injEq, ← mark_inj]
  constructor
  · exact fun h => List.append_inj h hlength
  · rintro ⟨hmark, hcontent⟩
    rw [Record.marked, Record.marked, hmark, hcontent]

/-- The numbers and the entry of a record can be told from its line in the split layout. -/
theorem splitLine_inj :
    splitLine o r = splitLine o r' ↔
      r.entry = r'.entry ∧ (o.showLineNumbers = true → r.numbers = r'.numbers) := by
  cases ho : o.showLineNumbers with
  | false => simp [splitLine, ho, marked_inj]
  | true =>
    have hline : ∀ r : Record, splitLine o r = numberColumn r.oldLine ++ " | ".toList ++
        (numberColumn r.newLine ++ " | ".toList ++ r.marked) := by
      intro r
      rw [splitLine, if_pos ho]
      simp only [List.append_assoc]
    have hbar : ∃ c ∈ " | ".toList, ¬ InColumn c := ⟨'|', by decide, by decide⟩
    have hnumbers : r.numbers = r'.numbers ↔ r.oldLine = r'.oldLine ∧ r.newLine = r'.newLine :=
      Prod.ext_iff
    rw [hline, hline, numberColumn_append_inj hbar, numberColumn_append_inj hbar, marked_inj,
      imp_iff_right rfl, hnumbers, ← and_assoc, and_comm]

/-- The old number and the entry of a record can be told from its line in the inline layout. -/
theorem inlineLine_inj :
    inlineLine o r = inlineLine o r' ↔
      r.entry = r'.entry ∧ (o.showLineNumbers = true → r.oldLine = r'.oldLine) := by
  cases ho : o.showLineNumbers with
  | false => simp [inlineLine, ho, marked_inj]
  | true =>
    have hcolon : ∃ c ∈ ": ".toList, ¬ InColumn c := ⟨':', by decide, by decide⟩
    rw [inlineLine, inlineLine, if_pos ho, if_pos ho, numberColumn_append_inj hcolon, marked_inj,
      imp_iff_right rfl, and_comm]

theorem not_mem_lineFeed_marked (h : '\n' ∉ r.content) : '\n' ∉ r.marked := by
  have hmark : '\n' ∉ r.fate.mark := by cases r.fate <;> decide
  exact fun hmem => (List.mem_append.1 hmem).elim hmark h

theorem not_mem_lineFeed_numberColumn (n : Option Int) : '\n' ∉ numberColumn n := fun h =>
  absurd (inColumn_of_mem h) (by decide)

theorem not_mem_lineFeed_splitLine (h : '\n' ∉ r.content) : '\n' ∉ splitLine o r := by
  rw [splitLine]
  split <;> simp [not_mem_lineFeed_marked h, not_mem_lineFeed_numberColumn]

theorem not_mem_lineFeed_inlineLine (h : '\n' ∉ r.content) : '\n' ∉ inlineLine o r := by
  rw [inlineLine]
  split <;> simp [not_mem_lineFeed_marked h, not_mem_lineFeed_numberColumn]

/-! ### Layouts -/

/-- Lists of records can be told by the records in them. -/
theorem map_eq_map_iff {α β γ : Type} {f : Record → α} {g : Record → β} {k : Record → γ} {p : Prop}
    (h : ∀ r r', f r = f r' ↔ g r = g r' ∧ (p → k r = k r')) :
    rs.map f = rs'.map f ↔ rs.map g = rs'.map g ∧ (p → rs.map k = rs'.map k) := by
  induction rs generalizing rs' with
  | nil => cases rs' <;> simp
  | cons r rs ih =>
    cases rs' with
    | nil => simp
    | cons r' rs' =>
      simp only [List.map_cons, List.cons.injEq, h, ih]
      tauto

/-- **The split and the inline layout lose nothing** but what they do not show: two lists of records
have one report if and only if the lines and what became of them agree and, if they are shown, the
line numbers. -/
theorem split_inline_lossless (h : ∀ r ∈ rs, '\n' ∉ r.content) (h' : ∀ r ∈ rs', '\n' ∉ r.content) :
    (split o rs = split o rs' ↔
        rs.map Record.entry = rs'.map Record.entry ∧
          (o.showLineNumbers = true → rs.map Record.numbers = rs'.map Record.numbers)) ∧
      (inline o rs = inline o rs' ↔
        rs.map Record.entry = rs'.map Record.entry ∧
          (o.showLineNumbers = true → rs.map Record.oldLine = rs'.map Record.oldLine)) := by
  constructor
  · have hhead : ∀ line ∈ ["```diff".toList, "OLD (Left) | NEW (Right)".toList,
        List.replicate 40 '-'], '\n' ∉ line := by decide
    have hlines : ∀ rs : List Record, (∀ r ∈ rs, '\n' ∉ r.content) →
        ∀ line ∈ rs.map (splitLine o), '\n' ∉ line := fun rs hrs =>
      List.forall_mem_map.2 fun r hr => not_mem_lineFeed_splitLine (hrs r hr)
    rw [split, split, List.append_left_inj,
      Text.unlines_inj (List.forall_mem_append.2 ⟨hhead, hlines rs h⟩)
        (List.forall_mem_append.2 ⟨hhead, hlines rs' h'⟩),
      List.append_right_inj, map_eq_map_iff fun _ _ => splitLine_inj]
  · have hlines : ∀ rs : List Record, (∀ r ∈ rs, '\n' ∉ r.content) →
        ∀ line ∈ rs.map (inlineLine o), '\n' ∉ line := fun rs hrs =>
      List.forall_mem_map.2 fun r hr => not_mem_lineFeed_inlineLine (hrs r hr)
    rw [inline, inline, Text.unlines_inj (hlines rs h) (hlines rs' h'),
      map_eq_map_iff fun _ _ => inlineLine_inj]

/-- Contents that look like a fence, a mark or the columns of a line, a number beyond its column, a
negative one and a missing one: the new numbers differ, and only the split layout shows them. -/
theorem split_inline_lossless_imitating :
    let fence : Record := .unchanged 12345 (-1) "```".toList []
    let columns : Record := .added 7 "   7 |    7 | + x".toList
    let rs : List Record := [fence, columns, .removed 9999 []]
    let rs' : List Record := [fence, { columns with newLine := none }, .removed 9999 []]
    (∀ r ∈ rs, '\n' ∉ r.content) ∧ (∀ r ∈ rs', '\n' ∉ r.content) ∧
      split .standard rs ≠ split .standard rs' ∧ inline .standard rs = inline .standard rs' := by
  intro fence columns rs rs'
  have h : ∀ r ∈ rs, '\n' ∉ r.content := by decide
  have h' : ∀ r ∈ rs', '\n' ∉ r.content := by decide
  obtain ⟨hsplit, hinline⟩ := split_inline_lossless (o := .standard) h h'
  refine ⟨h, h', fun heq => absurd ((hsplit.1 heq).2 rfl) (by decide), ?_⟩
  exact hinline.2 ⟨by decide, fun _ => by decide⟩

end LineDiff
end Galley
