/-
# The unified layout by windows

A unified layout is usually written with places and no flags.  Each change opens a window on the
records around it, which ends where the records end (`window`); what is seen through any of them is
visible.  One walk writes the visible records and remembers the place of the last one, from which
it knows of a gap when the next one comes or none is left (`showWindows`).

Both are what the layout does: the windows show what is near a change (`mem_windows_iff`), and to
have left something out since the last place is to be in a gap (`showWindows_eq_showVisible`).  So
the lines are the same (`unifiedLines_eq_showWindows`).
-/

import Galley.Proofs.LineDiff.Unified

namespace Galley
namespace LineDiff

variable {o : Options} {reach count i k : Nat} {previous : Int} {rs : List Record}

/-- The places of the changed records. -/
def changedPlaces (rs : List Record) : List Nat :=
  (rs.zipIdx.filter fun x => x.1.isChanged).map Prod.snd

/-- The places from `reach` before a place to `reach` behind it, as far as there are records. -/
def window (reach count i : Nat) : List Nat :=
  let first := i - reach
  List.range' first (min count (i + reach + 1) - first)

/-- What is seen through the windows of all changes. -/
def windows (reach : Nat) (rs : List Record) : List Nat :=
  (changedPlaces rs).flatMap (window reach rs.length)

/-- Writes the records at some places, and a gap mark where others were passed over since the
`previous` one that was written. -/
def showWindows (shown : List Nat) (count : Nat) : Int → List (Record × Nat) → List Text
  | previous, [] => if previous < count - 1 then [gapMark] else []
  | previous, (r, i) :: rest =>
    if i ∈ shown then
      (if (i : Int) > previous + 1 then [gapMark] else []) ++
        r.marked :: showWindows shown count i rest
    else showWindows shown count previous rest

/-! ### What is visible -/

theorem mem_window_iff : k ∈ window reach count i ↔ i ≤ k + reach ∧ k ≤ i + reach ∧ k < count := by
  rw [window, List.mem_range'_1]
  omega

/-- **The windows show what is near a change.** -/
theorem mem_windows_iff (hk : k < rs.length) : k ∈ windows reach rs ↔ Near reach rs k := by
  simp only [windows, changedPlaces, List.mem_flatMap, List.mem_map, List.mem_filter,
    mem_window_iff]
  constructor
  · rintro ⟨i, ⟨x, ⟨hx, hchanged⟩, rfl⟩, hbefore, hbehind, -⟩
    exact ⟨x, hx, hchanged, hbehind, hbefore⟩
  · rintro ⟨x, hx, hchanged, hbehind, hbefore⟩
    exact ⟨x.2, ⟨x, ⟨hx, hchanged⟩, rfl⟩, hbefore, hbehind, hk⟩

theorem changedPlaces_eq_nil_iff : changedPlaces rs = [] ↔ rs.any Record.isChanged = false := by
  have hany : rs.any Record.isChanged = rs.zipIdx.any fun x => x.1.isChanged := by
    conv_lhs => rw [← List.zipIdx_map_fst 0 rs, List.any_map]
    rfl
  rw [changedPlaces, List.map_eq_nil_iff, List.filter_eq_nil_iff, hany, List.any_eq_false]

/-! ### The lines -/

/-- **The walk is in a gap** if the place before is not the one that was written last; the mark of
the gap is still to be written then. -/
theorem showWindows_eq_showVisible (shown : List Nat) (hprevious : previous < k)
    (hcount : count = k + rs.length) :
    showWindows shown count previous (rs.zipIdx k) =
      (if previous + 1 < k then [gapMark] else []) ++
        showVisible (decide (previous + 1 < k))
          ((rs.zipIdx k).map fun x => (x.1, decide (x.2 ∈ shown))) := by
  induction rs generalizing previous k with
  | nil =>
    have hend : previous < count - 1 ↔ previous + 1 < k := by
      rw [hcount, List.length_nil]
      omega
    rw [List.zipIdx_nil, showWindows, List.map_nil, showVisible, List.append_nil]
    simp only [hend]
  | cons r rs ih =>
    have hcount' : count = (k + 1) + rs.length := by rw [hcount, List.length_cons]; omega
    rw [List.zipIdx_cons, showWindows, List.map_cons]
    by_cases hk : k ∈ shown
    · have hstep := @ih (k + 1) k (by omega) hcount'
      rw [if_neg (by omega), decide_eq_false (by omega)] at hstep
      rw [if_pos hk, hstep, decide_eq_true hk, showVisible]
      rfl
    · have hstep := @ih (k + 1) previous (by omega) hcount'
      rw [if_pos (by omega), decide_eq_true (by omega)] at hstep
      rw [if_neg hk, hstep, decide_eq_false hk, showVisible]
      -- the mark stands before the gap or is written in it
      by_cases hgap : previous + 1 < k <;> simp [hgap]

/-- **The unified layout is that of the windows.** -/
theorem unifiedLines_eq_showWindows (o : Options) (rs : List Record) :
    unifiedLines o rs =
      if changedPlaces rs = [] then []
      else showWindows (windows o.contextLines rs) rs.length (-1) rs.zipIdx := by
  have hvisible : rs.zip (visible o.contextLines rs) =
      rs.zipIdx.map fun x => (x.1, decide (x.2 ∈ windows o.contextLines rs)) := by
    rw [zip_visible]
    refine List.map_congr_left fun x hx => ?_
    have hlt : x.2 < rs.length := by simpa using List.snd_lt_add_of_mem_zipIdx hx
    simp only [mem_windows_iff hlt]
  have hwalk : showWindows (windows o.contextLines rs) rs.length (-1) rs.zipIdx =
      showVisible false (rs.zip (visible o.contextLines rs)) := by
    rw [showWindows_eq_showVisible _ (by decide) (Nat.zero_add _).symm, hvisible]
    rfl
  rw [unifiedLines, hwalk]
  cases hany : rs.any Record.isChanged with
  | false => rw [if_pos (changedPlaces_eq_nil_iff.2 hany)]; rfl
  | true =>
    rw [if_neg fun h => absurd (changedPlaces_eq_nil_iff.1 h) (by rw [hany]; decide)]
    rfl

end LineDiff
end Galley
