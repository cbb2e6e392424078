/-
# The longest common subsequence

`longest` finds a longest common subsequence of two lists by recursion on both, without a table.
The table is a way to compute it: the row for `xs` holds `longest xs` of every ending of the other
list (`rowOf_eq_map_tails`), so what two lists have in common is `longest` of the lists read from
their ends.

No common subsequence is longer (`length_le_length_common`).  The recursion gives up an item only
where the first items differ, and then a common subsequence goes without one of them.
-/

import Galley.Proofs.LineDiff.Subsequence
import Mathlib.Data.List.Infix

namespace Galley
namespace LineDiff

variable {α : Type} {l xs ys : List α}

theorem Chain.size_longer (c d : Chain α) : (c.longer d).size = max c.size d.size := by
  unfold Chain.longer
  split <;> omega

/-- The first cell of a row belongs to the whole list. -/
theorem headD_map_tails (f : List α → Chain α) (ys : List α) :
    (ys.tails.map f).headD .nil = f ys := by
  cases ys <;> rfl

variable [DecidableEq α]

/-- A longest common subsequence of two lists: first items that agree are taken; otherwise the
first item of either list is given up, that of the second if this leaves as much. -/
def longest : List α → List α → Chain α
  | [], _ => .nil
  | _ :: _, [] => .nil
  | x :: xs, y :: ys =>
    if x = y then (longest xs ys).push x
    else (longest xs (y :: ys)).longer (longest (x :: xs) ys)

/-! ### The table -/

theorem longest_nil_left (ys : List α) : longest [] ys = .nil := by
  rw [longest]

theorem longest_nil_right (xs : List α) : longest xs [] = .nil := by
  cases xs <;> rw [longest]

theorem firstRow_eq_map_tails (ys : List α) : firstRow ys = ys.tails.map (longest []) := by
  induction ys with
  | nil => rw [List.tails, List.map_singleton, longest_nil_left]; rfl
  | cons y ys ih =>
    rw [firstRow, List.length_cons, List.replicate_succ, ← firstRow, ih, List.tails_cons,
      List.map_cons, longest_nil_left]

theorem nextRow_map_tails (x : α) (xs ys : List α) :
    nextRow x ys (ys.tails.map (longest xs)) = ys.tails.map (longest (x :: xs)) := by
  induction ys with
  | nil =>
    rw [List.tails, List.map_singleton, List.map_singleton, longest_nil_right,
      longest_nil_right]
    rfl
  | cons y ys ih =>
    rw [List.tails_cons, List.map_cons, nextRow, List.tail_cons, ih, headD_map_tails,
      headD_map_tails, List.headD_cons, List.map_cons, longest]

/-- **A row of the table holds the longest common subsequences with all endings.** -/
theorem rowOf_eq_map_tails (xs ys : List α) : rowOf xs ys = ys.tails.map (longest xs) := by
  induction xs with
  | nil => exact firstRow_eq_map_tails ys
  | cons x xs ih =>
    have hrow : rowOf (x :: xs) ys = nextRow x ys (rowOf xs ys) := rfl
    rw [hrow, ih, nextRow_map_tails]

/-- What two lists have in common, without the table. -/
theorem common_eq (a b : List α) :
    common a b = (longest a.reverse b.reverse).items.reverse := by
  rw [common, rowOf_eq_map_tails, headD_map_tails]

/-! ### Lengths -/

/-- The size of a cell is the length of its items. -/
theorem size_longest (xs ys : List α) : (longest xs ys).size = (longest xs ys).items.length := by
  fun_induction longest xs ys with
  | case1 ys => rfl
  | case2 x xs => rfl
  | case3 xs y ys ih => simp [Chain.push, ih]
  | case4 x xs y ys hxy ih ih' =>
    unfold Chain.longer
    split
    · exact ih
    · exact ih'

/-- **No common subsequence is longer than the cell.** -/
theorem length_le_size_longest (hxs : l.Sublist xs) (hys : l.Sublist ys) :
    l.length ≤ (longest xs ys).size := by
  fun_induction longest xs ys generalizing l with
  | case1 ys => simp [List.sublist_nil.1 hxs]
  | case2 x xs => simp [List.sublist_nil.1 hys]
  | case3 xs y ys ih =>
    have hrest : l.tail.length ≤ (longest xs ys).size := ih hxs.tail hys.tail
    rw [List.length_tail] at hrest
    have hcell : ((longest xs ys).push y).size = (longest xs ys).size + 1 := rfl
    omega
  | case4 x xs y ys hxy ih ih' =>
    rw [Chain.size_longer]
    cases l with
    | nil => simp
    | cons z l =>
      -- the first item is not both `x` and `y`
      by_cases hzx : z = x
      · have hzy : z ≠ y := fun hzy => hxy (hzx.symm.trans hzy)
        exact Nat.le_trans (ih' hxs (hys.of_cons_of_ne hzy)) (Nat.le_max_right _ _)
      · exact Nat.le_trans (ih (hxs.of_cons_of_ne hzx) hys) (Nat.le_max_left _ _)

/-- **Nothing longer is common to two lists** than what they have in common. -/
theorem length_le_length_common {a b : List α} (ha : l.Sublist a) (hb : l.Sublist b) :
    l.length ≤ (common a b).length := by
  have h := length_le_size_longest ha.reverse hb.reverse
  rwa [common_eq, List.length_reverse, ← size_longest, ← List.length_reverse]

/-- The last cell of the table counts the items that two lists have in common. -/
theorem size_headD_rowOf (a b : List α) :
    ((rowOf a.reverse b.reverse).headD .nil).size = (common a b).length := by
  rw [common_eq, rowOf_eq_map_tails, headD_map_tails, size_longest, List.length_reverse]

/-- **What two lists have in common is a longest common subsequence**, and has as many items as the
table counts. -/
theorem common_longest (a b : List α) :
    (common a b).Sublist a ∧ (common a b).Sublist b ∧
      (∀ l : List α, l.Sublist a → l.Sublist b → l.length ≤ (common a b).length) ∧
      ((rowOf a.reverse b.reverse).headD .nil).size = (common a b).length := by
  obtain ⟨hleft, hright⟩ := common_sublist a b
  exact ⟨hleft, hright, fun _ => length_le_length_common, size_headD_rowOf a b⟩

end LineDiff
end Galley
