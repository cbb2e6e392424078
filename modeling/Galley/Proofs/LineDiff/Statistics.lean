/-
# Statistics of a comparison

The counts of a comparison follow from one number: a comparison of `m` old and `n` new lines keeps
as many lines as the texts have in common, say `u`, so it removes `m - u`, adds `n - u` and has
`m + n - u` records.  Which of several longest common subsequences the table picks, and which lines
the walk pairs, does not show in the counts.  In particular they do not change when old and new are
exchanged, but for the exchange of additions and removals (`statistics_exchanged`).

The similarity is the share `u / (m + n - u)` in percent, rounded, and one hundred for no share but
the whole (`sharePercent_eq_hundred_iff`).  It grows with the lines kept (`sharePercent_mono`), also
where a line kept takes the place of one removed and one added, so that the total shrinks with it
(`sharePercent_percentage`).
-/

import Galley.Proofs.LineDiff.Minimal
import Mathlib.Algebra.Order.Ring.Int
import Mathlib.Data.Rat.Floor
import Mathlib.Tactic.FieldSimp
import Mathlib.Tactic.Ring

namespace Galley
namespace LineDiff

/-! ### The share in percent -/

section Share

variable {u t u' t' : Int}

/-- A share below the whole is rounded and shown as ninety-nine at most. -/
theorem sharePercent_of_lt (hu : 0 ≤ u) (hut : u < t) :
    sharePercent u t = min 99 ((u * 200 + t) / (2 * t)) := by
  have hlt : (u * 200 + t) / (2 * t) < 101 := Int.ediv_lt_of_lt_mul (by omega) (by omega)
  rw [sharePercent, if_neg (by omega), Int.fdiv_eq_ediv_of_nonneg _ (by omega)]
  dsimp only
  split <;> omega

/-- The whole is one hundred percent. -/
theorem sharePercent_self (ht : 0 ≤ t) : sharePercent t t = 100 := by
  rw [sharePercent]
  split
  · rfl
  · have hq : (t * 200 + t) / (2 * t) = 100 := by
      rw [Int.ediv_eq_iff_of_pos (by omega)]
      omega
    rw [Int.fdiv_eq_ediv_of_nonneg _ (by omega), hq]
    exact if_neg (by omega)

/-- **No share but the whole is one hundred percent.** -/
theorem sharePercent_eq_hundred_iff (hu : 0 ≤ u) (hut : u ≤ t) :
    sharePercent u t = 100 ↔ u = t := by
  constructor
  · intro h
    by_contra hne
    rw [sharePercent_of_lt hu (by omega)] at h
    omega
  · rintro rfl
    exact sharePercent_self hu

/-- Rounding keeps the order of shares. -/
theorem rounded_mono (hu : 0 ≤ u) (huu : u ≤ u') (htt : t' ≤ t) (ht : 0 < t') :
    (u * 200 + t) / (2 * t) ≤ (u' * 200 + t') / (2 * t') := by
  set q := (u * 200 + t) / (2 * t) with hq
  have hqt : q * (2 * t) ≤ u * 200 + t := Int.ediv_mul_le _ (by omega)
  rw [Int.le_ediv_iff_mul_le (by omega)]
  have hdouble : (2 * q - 1) * t' ≤ u' * 200 := by
    rcases le_or_gt (2 * q - 1) 0 with hneg | hpos
    · have := mul_nonpos_of_nonpos_of_nonneg hneg ht.le
      omega
    · calc (2 * q - 1) * t' ≤ (2 * q - 1) * t := mul_le_mul_of_nonneg_left htt hpos.le
        _ = q * (2 * t) - t := by ring
        _ ≤ u' * 200 := by omega
  calc q * (2 * t') = (2 * q - 1) * t' + t' := by ring
    _ ≤ u' * 200 + t' := by omega

/-- **A share of more lines among fewer is no smaller.** -/
theorem sharePercent_mono (hu : 0 ≤ u) (huu : u ≤ u') (hut : u' ≤ t') (htt : t' ≤ t) :
    sharePercent u t ≤ sharePercent u' t' := by
  rcases eq_or_lt_of_le hut with rfl | hlt
  · rw [sharePercent_self (by omega)]
    rcases eq_or_lt_of_le (huu.trans htt) with rfl | hlt'
    · rw [sharePercent_self hu]
    · rw [sharePercent_of_lt hu hlt']
      omega
  · rw [sharePercent_of_lt hu (by omega), sharePercent_of_lt (by omega) hlt]
    have := rounded_mono hu huu htt (by omega)
    omega

/-- Nothing kept is nothing in percent. -/
theorem sharePercent_zero (ht : 0 < t) : sharePercent 0 t = 0 := by
  have hq : (0 * 200 + t) / (2 * t) = 0 := Int.ediv_eq_zero_of_lt (by omega) (by omega)
  rw [sharePercent_of_lt le_rfl ht, hq]
  rfl

/-- Adding one half before rounding down is rounding to the nearest, in whole numbers. -/
theorem floor_percent_add_half (ht : 0 < t) :
    ⌊(100 * u / t + 1 / 2 : ℚ)⌋ = (u * 200 + t) / (2 * t) := by
  have htq : (0 : ℚ) < t := Int.cast_pos.2 ht
  have hshare : (100 * u / t + 1 / 2 : ℚ) = ((u * 200 + t : Int) : ℚ) / ((2 * t : Int) : ℚ) := by
    push_cast
    field_simp
    ring
  obtain ⟨d, hd⟩ := Int.eq_ofNat_of_zero_le (by omega : 0 ≤ 2 * t)
  rw [hshare, hd]
  exact Rat.floor_intCast_div_natCast _ _

/-- A share is rounded to the nearest, and capped below the whole. -/
theorem sharePercent_eq (ht : 0 < t) :
    sharePercent u t =
      if ⌊(100 * u / t + 1 / 2 : ℚ)⌋ = 100 ∧ u < t then 99 else ⌊(100 * u / t + 1 / 2 : ℚ)⌋ := by
  rw [floor_percent_add_half ht, sharePercent, if_neg (by omega),
    Int.fdiv_eq_ediv_of_nonneg _ (by omega)]

/-- **The similarity is a percentage**: it lies between none and one hundred, is one hundred for the
whole alone, is the share rounded to the nearest but for the cap, and grows with the lines kept,
also when a line kept replaces one removed and one added. -/
theorem sharePercent_percentage (hu : 0 ≤ u) (hut : u ≤ t) (ht : 0 < t) :
    0 ≤ sharePercent u t ∧ sharePercent u t ≤ 100 ∧ (sharePercent u t = 100 ↔ u = t) ∧
      sharePercent u t =
        (if ⌊(100 * u / t + 1 / 2 : ℚ)⌋ = 100 ∧ u < t then 99
        else ⌊(100 * u / t + 1 / 2 : ℚ)⌋) ∧
      (∀ u', u ≤ u' → u' ≤ t → sharePercent u t ≤ sharePercent u' t) ∧
      (u + 2 ≤ t → sharePercent u t ≤ sharePercent (u + 1) (t - 1)) := by
  have hlow : sharePercent 0 t ≤ sharePercent u t := sharePercent_mono le_rfl hu hut le_rfl
  have hhigh : sharePercent u t ≤ sharePercent t t := sharePercent_mono hu hut le_rfl le_rfl
  rw [sharePercent_zero ht] at hlow
  rw [sharePercent_self ht.le] at hhigh
  refine ⟨hlow, hhigh, sharePercent_eq_hundred_iff hu hut, sharePercent_eq ht, ?_, ?_⟩
  · intro u' huu hut'
    exact sharePercent_mono hu huu hut' le_rfl
  · intro h
    exact sharePercent_mono hu (by omega) (by omega) (by omega)

/-- Nearly all lines kept: the share rounds to one hundred and is shown as ninety-nine. -/
theorem sharePercent_percentage_capped :
    (0 : Int) ≤ 1998 ∧ (1998 : Int) ≤ 2000 ∧ (0 : Int) < 2000 ∧ sharePercent 1998 2000 = 99 ∧
      ⌊(100 * (1998 : Int) / (2000 : Int) + 1 / 2 : ℚ)⌋ = 100 ∧
      (sharePercent 1998 2000 = 100 ↔ (1998 : Int) = 2000) ∧
      (∀ u', 1998 ≤ u' → u' ≤ 2000 → sharePercent 1998 2000 ≤ sharePercent u' 2000) ∧
      sharePercent 1998 2000 ≤ sharePercent 1999 1999 := by
  obtain ⟨-, -, hhundred, -, hkept, hreplaced⟩ :=
    sharePercent_percentage (u := 1998) (t := 2000) (by decide) (by decide) (by decide)
  refine ⟨by decide, by decide, by decide, by decide, ?_, hhundred, hkept, hreplaced (by decide)⟩
  rw [floor_percent_add_half (by decide)]
  rfl

end Share

/-! ### Counts -/

/-- Every record has one of the three fates. -/
theorem length_eq_countOf (rs : List Record) :
    rs.length = countOf .added rs + countOf .removed rs + countOf .unchanged rs := by
  have hrest : (rs.filter fun r => !(r.fate == .unchanged)).length =
      countOf .added rs + countOf .removed rs :=
    length_filter_fate (by decide) (by decide) (by decide) rs
  have hkept : countOf .unchanged rs = (rs.filter fun r => r.fate == .unchanged).length :=
    List.countP_eq_length_filter
  rw [hkept, ← hrest, Nat.add_comm]
  exact List.length_eq_length_filter_add _

/-- Two lists have as much in common in either order. -/
theorem length_common_comm {α : Type} [DecidableEq α] (a b : List α) :
    (common a b).length = (common b a).length := by
  have hab := common_sublist a b
  have hba := common_sublist b a
  exact Nat.le_antisymm (length_le_length_common hab.2 hab.1) (length_le_length_common hba.2 hba.1)

/-- The statistics of a comparison of `m` old and `n` new lines that keeps `u`. -/
def Statistics.keeping (u m n : Nat) : Statistics :=
  { added := n - u
    deleted := m - u
    modified := min (n - u) (m - u)
    unchanged := u
    total := m + n - u
    similarity := sharePercent u (m + n - u : Nat) }

variable (o : Options) (old new : List Text)

/-- A comparison keeps as many lines as the texts have in common. -/
theorem countOf_unchanged_records :
    countOf .unchanged (records o old new) = (common (old.map o.key) (new.map o.key)).length := by
  rw [← length_sharedKeys o.key, sharedKeys_records]

/-- **The statistics follow from the number of lines kept.** -/
theorem statistics_records :
    Statistics.of (records o old new) =
      .keeping (countOf .unchanged (records o old new)) old.length new.length := by
  have hold := (edit_records o old new).length_old
  have hnew := (edit_records o old new).length_new
  have hadded : countOf .added (records o old new) =
      new.length - countOf .unchanged (records o old new) := by omega
  have hremoved : countOf .removed (records o old new) =
      old.length - countOf .unchanged (records o old new) := by omega
  have htotal : (records o old new).length =
      old.length + new.length - countOf .unchanged (records o old new) := by
    rw [length_eq_countOf]
    omega
  rw [Statistics.of, Statistics.keeping, hadded, hremoved, htotal]

/-- **Exchanging old and new exchanges additions and removals** and leaves all other statistics as
they are. -/
theorem statistics_exchanged :
    Statistics.of (records o new old) =
      { Statistics.of (records o old new) with
        added := (Statistics.of (records o old new)).deleted
        deleted := (Statistics.of (records o old new)).added } := by
  have hkept : countOf .unchanged (records o new old) = countOf .unchanged (records o old new) := by
    rw [countOf_unchanged_records, countOf_unchanged_records, length_common_comm]
  rw [statistics_records, statistics_records, hkept]
  simp only [Statistics.keeping, Nat.min_comm, Nat.add_comm]

end LineDiff
end Galley
