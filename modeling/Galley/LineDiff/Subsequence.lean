/-
# Longest common subsequences

`common a b` is a longest common subsequence of two lists.  The table of the classical method is
computed row by row from the ends of the lists towards their starts; a cell holds the length of a
longest common subsequence of two beginnings together with the subsequence itself, the last item
first, so that no second walk over the table is needed.

Where several subsequences are equally long the cells decide: items that agree are taken; otherwise
the last item of `a` is given up if that leaves a strictly longer subsequence, and the last item
of `b` if not.
-/

import Galley.Text.Basic

namespace Galley
namespace LineDiff

/-- A list with its length. -/
structure Chain (α : Type) where
  size : Nat
  items : List α

namespace Chain

variable {α : Type}

/-- The empty chain. -/
def nil : Chain α := ⟨0, []⟩

/-- A chain with one more item in front. -/
def push (a : α) (c : Chain α) : Chain α := ⟨c.size + 1, a :: c.items⟩

/-- The longer of two chains, the second if they are equally long. -/
def longer (c d : Chain α) : Chain α := if c.size > d.size then c else d

end Chain

section Table

variable {α : Type} [DecidableEq α]

/-- The row of the table for `x :: xs` against all endings of a list, from the row for `xs`. -/
def nextRow (x : α) : List α → List (Chain α) → List (Chain α)
  | [], _ => [.nil]
  | y :: ys, row =>
    let rest := nextRow x ys row.tail
    let cell :=
      if x = y then (row.tail.headD .nil).push x
      else (row.headD .nil).longer (rest.headD .nil)
    cell :: rest

/-- The row of the table for the empty list. -/
def firstRow (ys : List α) : List (Chain α) := List.replicate (ys.length + 1) .nil

/-- The row of the table for `xs` against all endings of `ys`. -/
def rowOf (xs ys : List α) : List (Chain α) := xs.foldr (fun x row => nextRow x ys row) (firstRow ys)

/-- A longest common subsequence of two lists. -/
def common (a b : List α) : List α := ((rowOf a.reverse b.reverse).headD .nil).items.reverse

end Table
end LineDiff
end Galley
