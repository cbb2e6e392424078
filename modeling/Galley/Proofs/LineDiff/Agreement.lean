/-
# When two texts agree

A comparison of two texts by lines says in four places that they agree: the similarity is one
hundred, the unified report shows nothing, no line is added or removed, and the lines have the same
keys in the same order.  All four say the same (`compare_agreement`).

The unified report is empty exactly when no record is changed, whatever the context
(`unified_eq_nil_iff`), and then all records are counted as unchanged.
-/

import Galley.LineDiff.Compare
import Galley.Proofs.LineDiff.Statistics
import Galley.Proofs.LineDiff.Unified
import Mathlib.Tactic.TFAE

namespace Galley
namespace LineDiff

variable {o : Options} {rs : List Record}

/-- No record is changed exactly when all are counted as unchanged. -/
theorem forall_isChanged_iff :
    (∀ r ∈ rs, r.isChanged = false) ↔ countOf .unchanged rs = rs.length := by
  rw [countOf, List.countP_eq_length]
  simp [Record.isChanged]

/-! ### Texts with the same keys -/

/-- A comparison keeps all lines exactly when the keys of both texts are the same. -/
theorem countOf_unchanged_eq_length_iff {o : Options} {old new : List Text} :
    countOf .unchanged (records o old new) = (records o old new).length ↔
      old.map o.key = new.map o.key := by
  have hold := (edit_records o old new).length_old
  have hnew := (edit_records o old new).length_new
  have hlength := length_eq_countOf (records o old new)
  have hkept := countOf_unchanged_records o old new
  obtain ⟨hcold, hcnew⟩ := common_sublist (old.map o.key) (new.map o.key)
  constructor
  · intro hall
    have holdEq := hcold.eq_of_length (by rw [List.length_map]; omega)
    have hnewEq := hcnew.eq_of_length (by rw [List.length_map]; omega)
    exact holdEq.symm.trans hnewEq
  · intro heq
    have hfull : (old.map o.key).length ≤ (common (old.map o.key) (new.map o.key)).length :=
      length_le_length_common (List.Sublist.refl _) (heq ▸ List.Sublist.refl _)
    have hlen : old.length = new.length := by simpa using congrArg List.length heq
    rw [List.length_map] at hfull
    omega

/-! ### The verdict -/

/-- Two texts, not both empty, are compared by their lines. -/
theorem value_compare_lines (limit : Int) {old new : Text} (ho : o.subject = .lines)
    (hne : ¬(old = [] ∧ new = []))
    (hrs : rs = records o (Text.splitLines old) (Text.splitLines new)) :
    (compare o limit old new).value =
      .ok (.lines (report o rs (Statistics.of rs)) (Statistics.of rs) rs) := by
  have hguard : (old.isEmpty && new.isEmpty) = false := by
    simpa [List.isEmpty_iff] using hne
  rw [hrs, ← value_recordsLogged limit, compare, hguard, ho]
  rfl

/-- A comparison by lines reports the records of the two texts. -/
theorem eq_of_value_compare_lines {limit : Int} {old new out : Text} {s : Statistics}
    (ho : o.subject = .lines) (hne : ¬(old = [] ∧ new = []))
    (h : (compare o limit old new).value = .ok (.lines out s rs)) :
    rs = records o (Text.splitLines old) (Text.splitLines new) ∧ s = Statistics.of rs ∧
      out = report o rs s := by
  rw [value_compare_lines limit ho hne rfl] at h
  injection h with h
  injection h with hout hs hrs
  subst hrs hs
  exact ⟨rfl, rfl, hout.symm⟩

/-- **Four ways to see that two texts agree.** -/
theorem compare_agreement (limit : Int) {old new : Text} (ho : o.subject = .lines)
    (hne : ¬(old = [] ∧ new = [])) :
    ∃ out s rs, (compare o limit old new).value = .ok (.lines out s rs) ∧
      [s.similarity = 100,
        ∀ n, unified { o with contextLines := n } rs = [],
        s.added = 0 ∧ s.deleted = 0,
        (Text.splitLines old).map o.key = (Text.splitLines new).map o.key].TFAE := by
  obtain ⟨rs, hrs⟩ : ∃ rs, rs = records o (Text.splitLines old) (Text.splitLines new) := ⟨_, rfl⟩
  refine ⟨_, _, rs, value_compare_lines limit ho hne hrs, ?_⟩
  have hlength := length_eq_countOf rs
  tfae_have 1 ↔ 4 := by
    rw [← countOf_unchanged_eq_length_iff, ← hrs, Statistics.of,
      sharePercent_eq_hundred_iff (by omega) (by omega)]
    omega
  tfae_have 2 ↔ 4 := by
    rw [← countOf_unchanged_eq_length_iff, ← hrs, ← forall_isChanged_iff]
    simp only [unified_eq_nil_iff, forall_const]
  tfae_have 3 ↔ 4 := by
    rw [← countOf_unchanged_eq_length_iff, ← hrs, Statistics.of]
    dsimp only
    omega
  tfae_finish

/-- Two texts that differ in spacing, case and line ends, one with more lines than differ. -/
theorem compare_agreement_respaced :
    let o : Options := { Options.standard with ignoreWhitespace := true, ignoreCase := true }
    let old := "Alpha  beta\r\n\tGAMMA\n".toList
    let new := " alpha\tBeta\nGamma \n  ".toList
    o.subject = .lines ∧ ¬(old = [] ∧ new = []) ∧
      ∃ out s rs, (compare o 1000000 old new).value = .ok (.lines out s rs) ∧
        s.similarity = 100 ∧ (∀ n, unified { o with contextLines := n } rs = []) ∧
        s.added = 0 ∧ s.deleted = 0 := by
  intro o old new
  have hne : ¬(old = [] ∧ new = []) := by decide
  obtain ⟨out, s, rs, hvalue, h⟩ := compare_agreement (o := o) 1000000 rfl hne
  have hkeys : (Text.splitLines old).map o.key = (Text.splitLines new).map o.key := by
    decide +kernel
  exact ⟨rfl, hne, out, s, rs, hvalue, (h.out 0 3).2 hkeys, (h.out 1 3).2 hkeys,
    (h.out 2 3).2 hkeys⟩

end LineDiff
end Galley
