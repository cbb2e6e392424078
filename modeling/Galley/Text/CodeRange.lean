/-
# Ranges of code points

A class of characters that a standard lists is kept as a table of code point ranges in rising
order.  `CodeRange.covers` reads such a table and stops at the first range beyond the code point.
-/

namespace Galley

/-- The code points from `first` to `last`, both included. -/
structure CodeRange where
  first : Nat
  last : Nat
  deriving DecidableEq, Repr

namespace CodeRange

/-- The range of a table that holds a code point, for a table in rising order. -/
def find? : List CodeRange → Nat → Option CodeRange
  | [], _ => none
  | r :: rs, n => if n < r.first then none else if n ≤ r.last then some r else find? rs n

/-- Whether some range of a table in rising order holds a code point. -/
def covers (table : List CodeRange) (n : Nat) : Bool := (find? table n).isSome

/-- A range that is found holds the code point. -/
theorem find?_some {table : List CodeRange} {n : Nat} {r : CodeRange}
    (h : find? table n = some r) : r ∈ table ∧ r.first ≤ n ∧ n ≤ r.last := by
  induction table with
  | nil => simp [find?] at h
  | cons a rs ih =>
    unfold find? at h
    split at h
    · simp at h
    · split at h
      · rename_i h₁ h₂
        obtain rfl : a = r := by simpa using h
        exact ⟨by simp, by omega, h₂⟩
      · exact ⟨by simp [(ih h).1], (ih h).2⟩

end CodeRange
end Galley
