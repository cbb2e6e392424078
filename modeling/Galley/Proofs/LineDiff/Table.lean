/-
# The table of lengths

The classical method walks twice.  One walk fills a table with numbers, row by row from the starts
of two lists (`lengthTable`): a cell holds how long a common subsequence of two beginnings can be.
The other walk goes back from the last cell and collects items, the last one first (`walkBack`).

The cell of two beginnings holds the size of `longest` of them, read from their ends
(`cell_lengthTable`).  So the walk back takes the same way as the recursion of `longest`, and what it
collects is what two lists have in common (`reverse_walkBack`).
-/

import Galley.Proofs.LineDiff.Longest

namespace Galley
namespace LineDiff

variable {α : Type} {a b xs back : List α} {i j : Nat}

/-- A beginning that is one item longer, read from its end. -/
theorem reverse_take_succ {x : α} (h : a[i]? = some x) :
    (a.take (i + 1)).reverse = x :: (a.take i).reverse := by
  rw [List.take_add_one, h, List.reverse_append]
  rfl

variable [DecidableEq α]

/-! ### The method -/

/-- The cells of the row for `x` behind one of them, `left`; the row above is given from the cell
above `left` on. -/
def cellsAfter (x : α) : Nat → List Nat → List α → List Nat
  | _, _, [] => []
  | left, above, y :: ys =>
    let cell := if x = y then above.headD 0 + 1 else max (above.tail.headD 0) left
    cell :: cellsAfter x cell above.tail ys

/-- The row for `x`, from the row above. -/
def rowAfter (b : List α) (above : List Nat) (x : α) : List Nat := 0 :: cellsAfter x 0 above b

/-- The table of two lists: a row for each beginning of `a`, a cell for each beginning of `b`. -/
def lengthTable (a b : List α) : List (List Nat) :=
  a.scanl (rowAfter b) (List.replicate (b.length + 1) 0)

/-- A cell of a table. -/
def cell (table : List (List Nat)) (i j : Nat) : Nat := (table.getD i []).getD j 0

/-- Goes back through a table from a cell: items that agree are taken; else the way is up if the cell
above is greater than the one to the left, and to the left if not. -/
def walkBack (a b : List α) (table : List (List Nat)) : Nat → Nat → List α
  | 0, _ => []
  | _ + 1, 0 => []
  | i + 1, j + 1 =>
    match a[i]?, b[j]? with
    | some x, some y =>
      if x = y then x :: walkBack a b table i j
      else if cell table i (j + 1) > cell table (i + 1) j then walkBack a b table i (j + 1)
      else walkBack a b table (i + 1) j
    | _, _ => []
termination_by i j => i + j

/-! ### What the table holds -/

/-- The sizes of `longest xs` with the beginnings of a list behind what has been read, which is given
from its end. -/
def sizesAlong (xs : List α) : List α → List α → List Nat
  | back, [] => [(longest xs back).size]
  | back, y :: ys => (longest xs back).size :: sizesAlong xs (y :: back) ys

theorem headD_sizesAlong (xs back ys : List α) :
    (sizesAlong xs back ys).headD 0 = (longest xs back).size := by
  cases ys <;> rfl

theorem getD_sizesAlong (hj : j ≤ b.length) :
    (sizesAlong xs back b).getD j 0 = (longest xs ((b.take j).reverse ++ back)).size := by
  induction b generalizing j back with
  | nil =>
    obtain rfl := Nat.le_zero.1 hj
    rfl
  | cons y b ih =>
    cases j with
    | zero => rfl
    | succ j =>
      rw [sizesAlong, List.getD_cons_succ, ih (Nat.le_of_succ_le_succ hj)]
      simp

/-- **The next row** continues the first list. -/
theorem cellsAfter_sizesAlong (x : α) (xs back ys : List α) :
    (longest (x :: xs) back).size ::
        cellsAfter x (longest (x :: xs) back).size (sizesAlong xs back ys) ys =
      sizesAlong (x :: xs) back ys := by
  induction ys generalizing back with
  | nil => rfl
  | cons y ys ih =>
    -- the cell is computed as the recursion of `longest` says
    have hcell : (if x = y then (longest xs back).size + 1
        else max (longest xs (y :: back)).size (longest (x :: xs) back).size) =
          (longest (x :: xs) (y :: back)).size := by
      rw [longest]
      split
      · rfl
      · rw [Chain.size_longer]
    rw [cellsAfter, headD_sizesAlong, sizesAlong, List.tail_cons, headD_sizesAlong, hcell, ih,
      ← sizesAlong]

theorem rowAfter_sizesAlong (x : α) (xs b : List α) :
    rowAfter b (sizesAlong xs [] b) x = sizesAlong (x :: xs) [] b := by
  have h := cellsAfter_sizesAlong x xs [] b
  rwa [longest_nil_right] at h

theorem replicate_eq_sizesAlong (back b : List α) :
    List.replicate (b.length + 1) 0 = sizesAlong [] back b := by
  induction b generalizing back with
  | nil => rw [sizesAlong, longest_nil_left]; rfl
  | cons y b ih =>
    rw [List.length_cons, List.replicate_succ, ih (y :: back), sizesAlong, longest_nil_left]
    rfl

theorem getD_scanl_rowAfter (hi : i ≤ a.length) :
    (a.scanl (rowAfter b) (sizesAlong back [] b)).getD i [] =
      sizesAlong ((a.take i).reverse ++ back) [] b := by
  induction a generalizing i back with
  | nil =>
    obtain rfl := Nat.le_zero.1 hi
    rfl
  | cons x a ih =>
    cases i with
    | zero =>
      rw [List.scanl_cons]
      rfl
    | succ i =>
      rw [List.scanl_cons, List.getD_cons_succ, rowAfter_sizesAlong,
        ih (Nat.le_of_succ_le_succ hi)]
      simp

/-- **A cell counts** what two beginnings can have in common. -/
theorem cell_lengthTable (hi : i ≤ a.length) (hj : j ≤ b.length) :
    cell (lengthTable a b) i j = (longest (a.take i).reverse (b.take j).reverse).size := by
  rw [cell, lengthTable, replicate_eq_sizesAlong [], getD_scanl_rowAfter hi, getD_sizesAlong hj,
    List.append_nil, List.append_nil]

/-! ### The walk back -/

/-- **From each cell** the walk collects what two beginnings have in common. -/
theorem walkBack_lengthTable (hi : i ≤ a.length) (hj : j ≤ b.length) :
    walkBack a b (lengthTable a b) i j =
      (longest (a.take i).reverse (b.take j).reverse).items := by
  fun_induction walkBack a b (lengthTable a b) i j with
  | case1 j => rw [List.take_zero, List.reverse_nil, longest_nil_left]; rfl
  | case2 i => rw [List.take_zero, List.reverse_nil, longest_nil_right]; rfl
  | case3 i j x hx hy ih =>
    rw [reverse_take_succ hx, reverse_take_succ hy, longest, if_pos rfl,
      ih (Nat.le_of_succ_le hi) (Nat.le_of_succ_le hj)]
    rfl
  | case4 i j x y hx hy hxy hup ih =>
    rw [cell_lengthTable (Nat.le_of_succ_le hi) hj, cell_lengthTable hi (Nat.le_of_succ_le hj),
      reverse_take_succ hx, reverse_take_succ hy] at hup
    rw [ih (Nat.le_of_succ_le hi) hj, reverse_take_succ hx, reverse_take_succ hy, longest,
      if_neg hxy, Chain.longer, if_pos hup]
  | case5 i j x y hx hy hxy hleft ih =>
    rw [cell_lengthTable (Nat.le_of_succ_le hi) hj, cell_lengthTable hi (Nat.le_of_succ_le hj),
      reverse_take_succ hx, reverse_take_succ hy] at hleft
    rw [ih hi (Nat.le_of_succ_le hj), reverse_take_succ hx, reverse_take_succ hy, longest,
      if_neg hxy, Chain.longer, if_neg hleft]
  | case6 i j hnone =>
    -- the walk does not leave the lists
    exact absurd (List.getElem?_eq_getElem hj) (hnone _ _ (List.getElem?_eq_getElem hi))

/-- **What two lists have in common** is what the walk back from the last cell collects. -/
theorem reverse_walkBack (a b : List α) :
    (walkBack a b (lengthTable a b) a.length b.length).reverse = common a b := by
  rw [walkBack_lengthTable (Nat.le_refl _) (Nat.le_refl _), List.take_length, List.take_length,
    common_eq]

end LineDiff
end Galley
