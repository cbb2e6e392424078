/-
# Where reading leads

Reading a text from a place leads to a later place (`Position.before_advance`), in the order in
which texts are read: line by line, and on a line from the first column on.

The place that is reached can be told without reading the characters one after the other
(`Position.advance_eq`).  A text without line feeds moves the column by its length; any other text
moves the line by the number of its line feeds, and the column counts from the last of them.  So the
places of a text move with the text (`Position.advance_shift`).
-/

import Galley.Text.Position
import Mathlib.Data.List.Induction
import Mathlib.Data.List.TakeWhile

namespace Galley

/-- The number of characters behind the last line feed of a text, all of them if it has none. -/
def Text.sinceLineFeed (t : Text) : Nat := (t.reverse.takeWhile fun c => c ≠ '\n').length

namespace Text

theorem sinceLineFeed_concat (t : Text) (c : Char) :
    sinceLineFeed (t ++ [c]) = if c = '\n' then 0 else sinceLineFeed t + 1 := by
  rw [sinceLineFeed, List.reverse_concat, List.takeWhile_cons]
  by_cases hc : c = '\n' <;> simp [hc, sinceLineFeed]

/-- Without line feeds all characters count. -/
theorem sinceLineFeed_eq_length {t : Text} (h : '\n' ∉ t) : sinceLineFeed t = t.length := by
  have hall : ∀ c ∈ t.reverse, decide (c ≠ '\n') = true := by
    intro c hc
    have : c ≠ '\n' := by rintro rfl; exact h (List.mem_reverse.1 hc)
    simpa using this
  rw [sinceLineFeed, List.takeWhile_eq_self_iff.2 hall, List.length_reverse]

end Text

namespace Position

/-! ### The order of reading -/

/-- Whether a place comes before another one. -/
def Before (p q : Position) : Prop := p.line < q.line ∨ p.line = q.line ∧ p.column < q.column

theorem Before.trans {p q r : Position} (h : p.Before q) (h' : q.Before r) : p.Before r := by
  unfold Before at *
  omega

instance : Trans Before Before Before := ⟨Before.trans⟩

theorem before_next (p : Position) (c : Char) : p.Before (p.next c) := by
  unfold next Before
  split <;> dsimp only <;> omega

/-- **Reading leads to a later place.** -/
theorem before_advance (p : Position) {t : Text} (h : t ≠ []) : p.Before (p.advance t) := by
  induction t generalizing p with
  | nil => exact absurd rfl h
  | cons c cs ih =>
    rw [advance_cons]
    by_cases hcs : cs = []
    · rw [hcs, advance_nil]
      exact before_next p c
    · exact (before_next p c).trans (ih _ hcs)

/-! ### The place that is reached -/

/-- **Line feeds count lines, and the column counts from the last of them.** -/
theorem advance_eq (p : Position) (t : Text) :
    p.advance t =
      if '\n' ∈ t then ⟨p.line + t.count '\n', 1 + t.sinceLineFeed⟩
      else ⟨p.line, p.column + t.length⟩ := by
  induction t using List.reverseRecOn with
  | nil => simp
  | append_singleton t c ih =>
    rw [advance_append, ih, advance_cons, advance_nil, next, Text.sinceLineFeed_concat,
      List.count_append, List.length_append]
    by_cases hc : c = '\n'
    · by_cases ht : '\n' ∈ t
      · simp [hc, ht, Int.add_assoc]
      · simp [hc, ht, List.count_eq_zero_of_not_mem ht]
    · by_cases ht : '\n' ∈ t <;> simp [hc, Ne.symm hc, ht, Int.add_assoc]

/-- The place behind a text. -/
theorem advance_start (t : Text) :
    start.advance t = ⟨1 + t.count '\n', 1 + t.sinceLineFeed⟩ := by
  rw [advance_eq]
  split
  · rfl
  · rename_i h
    rw [List.count_eq_zero_of_not_mem h, Text.sinceLineFeed_eq_length h]
    rfl

/-! ### Places of a text that stands elsewhere -/

/-- Where a place of a text is found if the text does not stand at the start but at `p`: its lines
are counted from that of `p`, and on its first line the columns from that of `p`. -/
def shift (p q : Position) : Position :=
  ⟨p.line + q.line - 1, if q.line = 1 then p.column + q.column - 1 else q.column⟩

/-- **The place behind a text moves with the text.** -/
theorem advance_shift (p : Position) (t : Text) : p.advance t = p.shift (start.advance t) := by
  rw [advance_eq, advance_start, shift]
  dsimp only
  by_cases ht : '\n' ∈ t
  · have hcount : 0 < t.count '\n' := List.count_pos_iff.2 ht
    have hline : p.line + t.count '\n' = p.line + (1 + t.count '\n') - 1 := by omega
    rw [if_pos ht, if_neg (by omega), hline]
  · have hcolumn : p.column + t.length = p.column + (1 + t.length) - 1 := by omega
    rw [if_neg ht, List.count_eq_zero_of_not_mem ht, Text.sinceLineFeed_eq_length ht, hcolumn]
    simp

end Position
end Galley
