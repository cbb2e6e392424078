/-
# Removals before additions

Between two unchanged records the removed lines come first and the added ones behind them.  The walk
decides line by line, so this is not how it is made but what it keeps: it adds a new line only while
the next old line waits for its partner, and from then on that old line stays where it is until the
partner comes (`fate_ne_removed`).  Where no old line is left none can be removed either.

So an added record is never followed by a removed one (`isChain_walk`), and changed records that
stand together are removals followed by additions (`records_hunks`).
-/

import Galley.Proofs.LineDiff.Script
import Mathlib.Data.List.Chain

namespace Galley
namespace LineDiff

variable {i j : Int} {old new : List KeyedLine} {ks : List Text} {r s : Record}
variable {rs run : List Record}

/-- Whether the second of two records is not a removal behind an addition. -/
def InOrder (r s : Record) : Prop := ¬ (r.fate = .added ∧ s.fate = .removed)

theorem InOrder.of_ne (h : r.fate ≠ .added) : InOrder r s := fun hrs => h hrs.1

/-! ### The walk -/

/-- **A line that waits for its partner is not removed.**  Where the next old line, if there is one,
has the next common key, the first record is no removal. -/
theorem fate_ne_removed (h : walk i j old new ks = some (r :: rs))
    (hwaits : ∀ o ∈ old.head?, ks.head? = some o.key) : r.fate ≠ .removed := by
  rcases walk_cons_cases h with ⟨o, os, n, ns, ks', -, -, -, -, rfl, -⟩ |
    ⟨o, os, rfl, ho, rfl, -⟩ | ⟨n, ns, -, -, rfl, -⟩
  · simp [Record.unchanged]
  · exact absurd (hwaits o rfl) ho
  · simp [Record.added]

/-- **No addition is followed by a removal.** -/
theorem isChain_walk (h : walk i j old new ks = some rs) : rs.IsChain InOrder := by
  induction rs generalizing i j old new ks with
  | nil => exact .nil
  | cons r rs ih =>
    rcases walk_cons_cases h with ⟨o, os, n, ns, ks', rfl, rfl, rfl, -, rfl, hrs⟩ |
      ⟨o, os, rfl, -, rfl, hrs⟩ | ⟨n, ns, rfl, hwaits, rfl, hrs⟩
    · exact (ih hrs).cons fun s _ => .of_ne (by simp [Record.unchanged])
    · exact (ih hrs).cons fun s _ => .of_ne (by simp [Record.removed])
    · -- the addition leaves the old line that waits, and the key it waits for
      refine (ih hrs).cons fun s hs hrs' => ?_
      obtain ⟨rs, rfl⟩ := List.head?_eq_some_iff.1 hs
      exact fate_ne_removed hrs hwaits hrs'.2

/-! ### Runs of changed records -/

/-- A changed record is a removal or an addition. -/
theorem Record.fate_of_isChanged (h : r.isChanged = true) : r.fate = .removed ∨ r.fate = .added := by
  unfold isChanged at h
  cases hr : r.fate with
  | added => exact Or.inr rfl
  | removed => exact Or.inl rfl
  | unchanged => simp [hr] at h

/-- **Changed records in order are removals followed by additions.** -/
theorem exists_removals_append (h : run.IsChain InOrder) (hrun : ∀ r ∈ run, r.isChanged = true) :
    ∃ removals additions, run = removals ++ additions ∧ (∀ r ∈ removals, r.fate = .removed) ∧
      ∀ r ∈ additions, r.fate = .added := by
  induction run with
  | nil => exact ⟨[], [], rfl, by simp, by simp⟩
  | cons r run ih =>
    obtain ⟨hr, hrun⟩ := List.forall_mem_cons.1 hrun
    obtain ⟨removals, additions, rfl, hremovals, hadditions⟩ := ih h.tail hrun
    rcases Record.fate_of_isChanged hr with hr | hr
    · exact ⟨r :: removals, additions, rfl, List.forall_mem_cons.2 ⟨hr, hremovals⟩, hadditions⟩
    · -- no removal stands behind the addition
      cases removals with
      | nil => exact ⟨[], r :: additions, rfl, by simp, List.forall_mem_cons.2 ⟨hr, hadditions⟩⟩
      | cons s removals =>
        exact absurd ⟨hr, hremovals s (List.mem_cons_self ..)⟩ (List.isChain_cons_cons.1 h).1

/-- **A hunk is a block of removals followed by a block of additions.**  In the records of a
comparison no addition is followed by a removal; records that stand together and are all changed are
removals, if any, and behind them additions, if any. -/
theorem records_hunks (o : Options) (old new : List Text) :
    (records o old new).IsChain InOrder ∧
      ∀ run, run <:+: records o old new → (∀ r ∈ run, r.isChanged = true) →
        ∃ removals additions, run = removals ++ additions ∧ (∀ r ∈ removals, r.fate = .removed) ∧
          ∀ r ∈ additions, r.fate = .added := by
  have hchain : (records o old new).IsChain InOrder := isChain_walk (script_records o old new).1
  refine ⟨hchain, fun run hrun => ?_⟩
  have hinside : run.IsChain InOrder := List.IsChain.infix hchain hrun
  exact exists_removals_append hinside

/-- Two removed lines before two added ones, between lines that differ in case only. -/
theorem records_hunks_replaced :
    let o : Options := { Options.standard with ignoreCase := true }
    let old := ["a".toList, "b".toList, "c".toList, "d".toList]
    let new := ["A".toList, "e".toList, "a".toList, "D".toList]
    let run : List Record :=
      [.removed 2 "b".toList, .removed 3 "c".toList, .added 2 "e".toList, .added 3 "a".toList]
    run <:+: records o old new ∧ (∀ r ∈ run, r.isChanged = true) ∧
      ∃ removals additions, run = removals ++ additions ∧ (∀ r ∈ removals, r.fate = .removed) ∧
        ∀ r ∈ additions, r.fate = .added := by
  intro o old new run
  have hrun : run <:+: records o old new :=
    ⟨[.unchanged 1 1 "a".toList "A".toList], [.unchanged 4 4 "d".toList "D".toList],
      by decide +kernel⟩
  have hchanged : ∀ r ∈ run, r.isChanged = true := by decide
  exact ⟨hrun, hchanged, (records_hunks o old new).2 run hrun hchanged⟩

end LineDiff
end Galley
