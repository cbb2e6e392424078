/-
# The table of common subsequences

Every cell of the table holds a common subsequence of the two lists that it stands for.  A row is
described along the list whose endings its cells belong to (`IsRow`), so the step from one row to
the next is an induction on that list, and the table is an induction on the other.
-/

import Galley.LineDiff.Subsequence

namespace Galley
namespace LineDiff

variable {α : Type} {c d : Chain α} {x y : α} {xs ys : List α}
variable {row : List (Chain α)}

/-! ### Cells -/

/-- Whether the items of a chain are a common subsequence of two lists. -/
structure Chain.IsCommon (c : Chain α) (xs ys : List α) : Prop where
  left : c.items.Sublist xs
  right : c.items.Sublist ys

namespace Chain.IsCommon

theorem nil (xs ys : List α) : Chain.nil.IsCommon xs ys :=
  ⟨List.nil_sublist xs, List.nil_sublist ys⟩

theorem push (h : c.IsCommon xs ys) (x : α) : (c.push x).IsCommon (x :: xs) (x :: ys) :=
  ⟨h.left.cons_cons x, h.right.cons_cons x⟩

theorem cons_left (h : c.IsCommon xs ys) (x : α) : c.IsCommon (x :: xs) ys :=
  ⟨h.left.cons x, h.right⟩

theorem cons_right (h : c.IsCommon xs ys) (y : α) : c.IsCommon xs (y :: ys) :=
  ⟨h.left, h.right.cons y⟩

theorem longer (hc : c.IsCommon xs ys) (hd : d.IsCommon xs ys) :
    (c.longer d).IsCommon xs ys := by
  unfold Chain.longer
  split
  · exact hc
  · exact hd

end Chain.IsCommon

/-! ### Rows -/

/-- Whether a row holds, for every ending of a list, a common subsequence of `xs` and that
ending. -/
def IsRow (xs : List α) : List α → List (Chain α) → Prop
  | [], row => ∃ c, row = [c] ∧ c.IsCommon xs []
  | y :: ys, row => ∃ c rest, row = c :: rest ∧ c.IsCommon xs (y :: ys) ∧ IsRow xs ys rest

theorem IsRow.headD (h : IsRow xs ys row) : (row.headD .nil).IsCommon xs ys := by
  cases ys with
  | nil =>
    obtain ⟨c, rfl, hc⟩ := h
    exact hc
  | cons y ys =>
    obtain ⟨c, rest, rfl, hc, -⟩ := h
    exact hc

theorem isRow_firstRow (ys : List α) : IsRow [] ys (firstRow ys) := by
  induction ys with
  | nil => exact ⟨.nil, rfl, .nil [] []⟩
  | cons y ys ih => exact ⟨.nil, firstRow ys, rfl, .nil [] (y :: ys), ih⟩

variable [DecidableEq α]

/-- **The step from one row to the next.** -/
theorem IsRow.nextRow (h : IsRow xs ys row) (x : α) :
    IsRow (x :: xs) ys (nextRow x ys row) := by
  induction ys generalizing row with
  | nil => exact ⟨.nil, rfl, .nil (x :: xs) []⟩
  | cons y ys ih =>
    obtain ⟨c, rest, rfl, hc, hrest⟩ := h
    refine ⟨_, _, rfl, ?_, ih hrest⟩
    split
    · rename_i hxy
      rw [← hxy]
      exact hrest.headD.push x
    · exact (hc.cons_left x).longer ((ih hrest).headD.cons_right y)

theorem isRow_rowOf (xs ys : List α) : IsRow xs ys (rowOf xs ys) := by
  induction xs with
  | nil => exact isRow_firstRow ys
  | cons x xs ih => exact ih.nextRow x

/-! ### The whole lists -/

/-- **What two lists have in common is a subsequence of both.** -/
theorem common_sublist (a b : List α) : (common a b).Sublist a ∧ (common a b).Sublist b := by
  have h := (isRow_rowOf a.reverse b.reverse).headD
  have hleft := h.left.reverse
  have hright := h.right.reverse
  rw [List.reverse_reverse] at hleft hright
  exact ⟨hleft, hright⟩

end LineDiff
end Galley
