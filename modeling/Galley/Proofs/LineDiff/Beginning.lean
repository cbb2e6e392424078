/-
# The common beginning

Lines with which both texts begin are never disturbed: a comparison pairs them one by one, and the
first record behind them is a removal or an addition (`takeWhile_records`).

The table is read from the ends of the texts and likes late matches, but it has no choice here.  A
common subsequence that goes without the common first item is a common subsequence of the rests, so
the item can be put before it, and it was not a longest one.  So every longest common subsequence
begins with that item and goes on with a longest one of the rests
(`IsLongestCommon.exists_of_cons`), and the walk finds both partners in front of it.
-/

import Galley.Proofs.LineDiff.Longest
import Galley.Proofs.LineDiff.Script

namespace Galley
namespace LineDiff

section Lists

variable {α : Type} {l a b : List α} {x : α}

/-- Whether a list is a longest common subsequence of two lists. -/
structure IsLongestCommon (l a b : List α) : Prop where
  left : l.Sublist a
  right : l.Sublist b
  longest : ∀ m : List α, m.Sublist a → m.Sublist b → m.length ≤ l.length

/-- **A longest common subsequence begins with the common first item**, and goes on with a longest
one of the rests. -/
theorem IsLongestCommon.exists_of_cons (h : IsLongestCommon l (x :: a) (x :: b)) :
    ∃ m, l = x :: m ∧ IsLongestCommon m a b := by
  cases l with
  | nil =>
    have hx := h.longest [x] (List.singleton_sublist.2 (List.mem_cons_self ..))
      (List.singleton_sublist.2 (List.mem_cons_self ..))
    simp at hx
  | cons y m =>
    by_cases hyx : y = x
    · subst hyx
      refine ⟨m, rfl, List.cons_sublist_cons.1 h.left, List.cons_sublist_cons.1 h.right,
        fun n ha hb => ?_⟩
      have hn := h.longest (y :: n) (ha.cons_cons y) (hb.cons_cons y)
      rwa [List.length_cons, List.length_cons, Nat.add_le_add_iff_right] at hn
    · -- without the first item it can be put before
      have hlong := h.longest (x :: y :: m) ((h.left.of_cons_of_ne hyx).cons_cons x)
        ((h.right.of_cons_of_ne hyx).cons_cons x)
      exact absurd hlong (Nat.not_succ_le_self _)

variable [DecidableEq α]

/-- What two lists have in common is a longest common subsequence. -/
theorem isLongestCommon_common (a b : List α) : IsLongestCommon (common a b) a b where
  left := (common_sublist a b).1
  right := (common_sublist a b).2
  longest _ := length_le_length_common

/-- The longest common beginning of two lists. -/
def sharedPrefix : List α → List α → List α
  | [], _ => []
  | _ :: _, [] => []
  | a :: as, b :: bs => if a = b then a :: sharedPrefix as bs else []

/-- **The common beginnings of two lists are the beginnings of the longest.** -/
theorem isPrefix_sharedPrefix_iff : l <+: sharedPrefix a b ↔ l <+: a ∧ l <+: b := by
  fun_induction sharedPrefix a b generalizing l with
  | case1 bs => exact ⟨fun h => ⟨h, h.trans List.nil_prefix⟩, And.left⟩
  | case2 a as => exact ⟨fun h => ⟨h.trans List.nil_prefix, h⟩, And.right⟩
  | case3 a as bs ih =>
    cases l with
    | nil => simp
    | cons x l => rw [List.cons_prefix_cons, List.cons_prefix_cons, List.cons_prefix_cons, ih,
        and_and_left]
  | case4 a as b bs hab =>
    cases l with
    | nil => simp
    | cons x l =>
      refine iff_of_false (by simp) fun h => hab ?_
      exact (List.cons_prefix_cons.1 h.1).1.symm.trans (List.cons_prefix_cons.1 h.2).1

end Lists

variable {i j : Int} {old new : List KeyedLine} {ks : List Text} {rs : List Record}

/-! ### The walk -/

/-- **Lines with different keys are not paired.** -/
theorem takeWhile_walk_of_ne (h : walk i j old new ks = some rs)
    (hne : ∀ o ∈ old.head?, ∀ n ∈ new.head?, o.key ≠ n.key) :
    (rs.takeWhile fun r => r.fate == .unchanged) = [] := by
  cases rs with
  | nil => rfl
  | cons r rs =>
    refine List.takeWhile_cons_of_neg ?_
    rcases walk_cons_cases h with ⟨o, os, n, ns, ks', rfl, rfl, -, hn, -, -⟩ |
      ⟨o, os, -, -, rfl, -⟩ | ⟨n, ns, -, -, rfl, -⟩
    · exact absurd hn.symm (hne o rfl n rfl)
    · simp [Record.removed]
    · simp [Record.added]

/-- **The walk begins with the pairs of the common beginning**, and goes on with another record. -/
theorem takeWhile_walk (h : walk i j old new ks = some rs)
    (hks : IsLongestCommon ks (old.map KeyedLine.key) (new.map KeyedLine.key)) :
    (rs.takeWhile fun r => r.fate == .unchanged) =
      (((old.map KeyedLine.text).zip (new.map KeyedLine.text)).take
          (sharedPrefix (old.map KeyedLine.key) (new.map KeyedLine.key)).length).mapIdx
        fun m p => .unchanged (m + i) (m + j) p.1 p.2 := by
  induction old generalizing i j new ks rs with
  | nil => exact takeWhile_walk_of_ne h (by simp)
  | cons o old ih =>
    cases new with
    | nil => exact takeWhile_walk_of_ne h (by simp)
    | cons n new =>
      by_cases hkey : o.key = n.key
      · rw [List.map_cons, List.map_cons, ← hkey] at hks
        obtain ⟨ks', rfl, hrest⟩ := hks.exists_of_cons
        rw [walk, if_pos rfl, if_pos hkey.symm] at h
        obtain ⟨rs, hrs, rfl⟩ := Option.map_eq_some_iff.1 h
        have hshift : ∀ (m : Nat) (i : Int), ((m + 1 : Nat) : Int) + i = m + (i + 1) := by
          intro m i
          omega
        rw [List.takeWhile_cons_of_pos rfl, ih hrs hrest]
        simp only [List.map_cons, sharedPrefix, if_pos hkey, List.length_cons, List.zip_cons_cons,
          List.take_succ_cons, List.mapIdx_cons, hshift, Int.natCast_zero, Int.zero_add]
      · simp only [List.map_cons, sharedPrefix, if_neg hkey, List.length_nil, List.take_zero,
          List.mapIdx_nil]
        exact takeWhile_walk_of_ne h (by simpa using hkey)

/-! ### The records of a comparison -/

theorem length_sharedPrefix_le {α : Type} [DecidableEq α] (a b : List α) :
    (sharedPrefix a b).length ≤ min a.length b.length := by
  have h := isPrefix_sharedPrefix_iff.1 (List.prefix_refl (sharedPrefix a b))
  exact Nat.le_min.2 ⟨h.1.length_le, h.2.length_le⟩

/-- **The common beginning is never disturbed.**  With `k` the length of the longest common beginning
of the keys of two texts, a comparison begins with just `k` unchanged records, and they pair the
lines of the texts one by one. -/
theorem takeWhile_records (o : Options) (old new : List Text) :
    let k := (sharedPrefix (old.map o.key) (new.map o.key)).length
    let paired := (records o old new).takeWhile fun r => r.fate == .unchanged
    paired.length = k ∧
      paired = ((old.zip new).take k).mapIdx fun i p => .unchanged (i + 1) (i + 1) p.1 p.2 := by
  intro k paired
  have hpaired : paired =
      ((old.zip new).take k).mapIdx fun i p => .unchanged (i + 1) (i + 1) p.1 p.2 := by
    have h := takeWhile_walk (script_records o old new).1
      (by rw [map_key_keyed, map_key_keyed]; exact isLongestCommon_common _ _)
    rwa [map_key_keyed, map_key_keyed, map_text_keyed, map_text_keyed] at h
  refine ⟨?_, hpaired⟩
  have hk := length_sharedPrefix_le (old.map o.key) (new.map o.key)
  rw [List.length_map, List.length_map] at hk
  rw [hpaired, List.length_mapIdx, List.length_take, List.length_zip, Nat.min_eq_left hk]

end LineDiff
end Galley
