/-
# Runs between gaps

Some items of a list are gaps, and what stands between them are runs.  A gap cuts the runs of a list
(`runs_append_gap`), and a list without gaps is one run, or none if it is empty (`runs_of_forall`).
Everything else about runs follows from these two by `runs_induction`: a list is a run, or a run, a
gap and a list.

The words of a text are its runs of characters between blanks, and a phrase of a stylesheet is made
of the runs of its tokens between white space and comments.

A reader takes one run from the front of a list and goes on behind it.  What it takes and what it
leaves are told by the border between the two (`run_iff`).
-/

import Mathlib.Data.List.Basic
import Mathlib.Data.List.TakeWhile

namespace Galley

variable {α : Type} {p gap : α → Bool} {xs run rest : List α} {g : α}

/-- **The run at the front** of a list goes on up to the first item of another kind, or to the end
of the list. -/
theorem run_iff :
    xs.takeWhile p = run ∧ xs.dropWhile p = rest ↔
      xs = run ++ rest ∧ (∀ x ∈ run, p x = true) ∧ ∀ x ∈ rest.head?, p x = false := by
  constructor
  · rintro ⟨rfl, rfl⟩
    refine ⟨List.takeWhile_append_dropWhile.symm, fun x => List.mem_takeWhile_imp, fun x hx => ?_⟩
    have hhead := List.head?_dropWhile_not p xs
    rw [hx] at hhead
    simpa using hhead
  · rintro ⟨rfl, hrun, hrest⟩
    cases rest with
    | nil => simp [List.takeWhile_eq_self_iff.2 hrun, List.dropWhile_eq_nil_iff.2 hrun]
    | cons x rest =>
      have hx : ¬p x = true := by simp [hrest x rfl]
      rw [List.takeWhile_append_of_pos hrun, List.dropWhile_append_of_pos hrun,
        List.takeWhile_cons_of_neg hx, List.dropWhile_cons_of_neg hx, List.append_nil]
      exact ⟨rfl, rfl⟩

/-- The maximal runs of items that are not gaps. -/
def runs (gap : α → Bool) (xs : List α) : List (List α) :=
  (xs.splitOnP gap).filter fun run => !run.isEmpty

/-- **A list is a run, or a run, a gap and a list**; the run may be empty. -/
theorem runs_induction {motive : List α → Prop}
    (run : ∀ run : List α, (∀ x ∈ run, gap x = false) → motive run)
    (cut : ∀ (run : List α) (g : α) (xs : List α), (∀ x ∈ run, gap x = false) →
      gap g = true → motive xs → motive (run ++ g :: xs)) (xs : List α) : motive xs := by
  -- `passed` is the part of the first run that has been passed
  have split : ∀ xs passed : List α, (∀ x ∈ passed, gap x = false) → motive (passed ++ xs) := by
    intro xs
    induction xs with
    | nil =>
      intro passed hpassed
      rw [List.append_nil]
      exact run passed hpassed
    | cons x xs ih =>
      intro passed hpassed
      cases hx : gap x with
      | true => exact cut passed x xs hpassed hx (ih [] (by simp))
      | false =>
        have hlonger : ∀ y ∈ passed ++ [x], gap y = false := by
          simpa [or_imp, forall_and, hx] using hpassed
        simpa using ih (passed ++ [x]) hlonger
  exact split xs [] (by simp)

/-- **A gap cuts the runs of a list.** -/
theorem runs_append_gap (hg : gap g = true) (xs ys : List α) :
    runs gap (xs ++ g :: ys) = runs gap xs ++ runs gap ys := by
  rw [runs, List.splitOnP_append_cons xs ys hg, List.filter_append]
  rfl

/-- A list without gaps is one run, or none if it is empty. -/
theorem runs_of_forall (hrun : ∀ x ∈ run, gap x = false) :
    runs gap run = if run = [] then [] else [run] := by
  have hsplit : run.splitOnP gap = [run] :=
    List.splitOnP_eq_singleton fun x hx => by simpa using hrun x hx
  rw [runs, hsplit]
  cases run <;> rfl

end Galley
