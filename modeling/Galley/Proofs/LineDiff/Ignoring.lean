/-
# Ignoring more

Options that ignore more give a line a key that depends on its former key only
(`Options.exists_key_eq_comp`).  Where blanks come to be ignored besides case, this is because
lower-casing and the collapsing of blanks can be exchanged.  So keys that were in common stay in
common (`length_common_map_le`), and the similarity, a share of more lines among fewer records,
does not fall.
-/

import Galley.Proofs.LineDiff.Statistics
import Galley.Proofs.Text.LowerCase

namespace Galley
namespace LineDiff

variable {o o' : Options}

/-- **The key under options that ignore more is a function of the key.** -/
theorem Options.exists_key_eq_comp
    (hspace : o.ignoreWhitespace = true → o'.ignoreWhitespace = true)
    (hcase : o.ignoreCase = true → o'.ignoreCase = true) :
    ∃ f : Text → Text, ∀ line, o'.key line = f (o.key line) := by
  cases hs : o.ignoreWhitespace with
  | false =>
    cases hc : o.ignoreCase with
    | false => exact ⟨o'.key, fun line => by simp [key, hs, hc]⟩
    | true =>
      refine ⟨fun t => if o'.ignoreWhitespace then Text.trim (Text.collapse t) else t,
        fun line => ?_⟩
      have hkey : o.key line = Text.lower line := by simp [key, hs, hc]
      rw [hkey, key, if_pos (hcase hc)]
      dsimp only
      split
      · exact Text.lower_trim_collapse line
      · rfl
  | true =>
    have hspaced : ∀ line, o'.key line =
        if o'.ignoreCase then Text.lower (Text.trim (Text.collapse line))
        else Text.trim (Text.collapse line) := by
      intro line
      rw [key, if_pos (hspace hs)]
    cases hc : o.ignoreCase with
    | false =>
      refine ⟨fun t => if o'.ignoreCase then Text.lower t else t, fun line => ?_⟩
      have hkey : o.key line = Text.trim (Text.collapse line) := by simp [key, hs, hc]
      rw [hkey, hspaced]
    | true =>
      refine ⟨id, fun line => ?_⟩
      have hkey : o.key line = Text.lower (Text.trim (Text.collapse line)) := by simp [key, hs, hc]
      rw [hkey, hspaced, if_pos (hcase hc)]
      rfl

/-- **What two lists have in common stays in common under a function.** -/
theorem length_common_map_le {α β : Type} [DecidableEq α] [DecidableEq β] (f : α → β)
    (a b : List α) : (common a b).length ≤ (common (a.map f) (b.map f)).length := by
  have h := common_sublist a b
  calc (common a b).length = ((common a b).map f).length := (List.length_map f).symm
    _ ≤ (common (a.map f) (b.map f)).length :=
      length_le_length_common (h.1.map f) (h.2.map f)

/-- **Ignoring more finds no less in common.** -/
theorem ignoring_more
    (hspace : o.ignoreWhitespace = true → o'.ignoreWhitespace = true)
    (hcase : o.ignoreCase = true → o'.ignoreCase = true) (old new : List Text) :
    countOf .unchanged (records o old new) ≤ countOf .unchanged (records o' old new) ∧
      (Statistics.of (records o old new)).similarity ≤
        (Statistics.of (records o' old new)).similarity := by
  obtain ⟨f, hf⟩ := Options.exists_key_eq_comp hspace hcase
  have hmap : ∀ lines : List Text, lines.map o'.key = (lines.map o.key).map f := by
    intro lines
    rw [List.map_map]
    exact List.map_congr_left fun line _ => hf line
  have hkept : countOf .unchanged (records o old new) ≤
      countOf .unchanged (records o' old new) := by
    rw [countOf_unchanged_records, countOf_unchanged_records, hmap, hmap]
    exact length_common_map_le f _ _
  refine ⟨hkept, ?_⟩
  have hold := (edit_records o' old new).length_old
  have hnew := (edit_records o' old new).length_new
  rw [statistics_records o, statistics_records o']
  exact sharePercent_mono (by omega) (by omega) (by omega) (by omega)

/-- Lines that agree in case only when their spaces are ignored too, and a final sigma. -/
theorem ignoring_more_spaces :
    let o : Options := { Options.standard with ignoreCase := true }
    let o' : Options := { o with ignoreWhitespace := true }
    let old := ["\u039F\u03A3  \u0391".toList, "b".toList, "c".toList]
    let new := ["\u03BF\u03C2 \u03B1 ".toList, "B".toList]
    (o.ignoreWhitespace = true → o'.ignoreWhitespace = true) ∧
      (o.ignoreCase = true → o'.ignoreCase = true) ∧
      countOf .unchanged (records o old new) ≤ countOf .unchanged (records o' old new) ∧
      (Statistics.of (records o old new)).similarity ≤
        (Statistics.of (records o' old new)).similarity := by
  intro o o' old new
  exact ⟨fun _ => rfl, fun _ => rfl, ignoring_more (fun _ => rfl) (fun _ => rfl) old new⟩

end LineDiff
end Galley
