/-
# Texts

A text is the sequence of its characters, so lengths, columns and positions count code points and
every operation on a text is an operation on a list.  This module holds what the other modules
share: the order of texts, the search for one text inside another, and numerals.

`Text.le` is the dictionary order by code point, the order in which declarations and names are
sorted.
-/

namespace Galley

/-- A text, character by character. -/
abbrev Text := List Char

namespace Text

/-- The dictionary order by code point: a proper beginning of a text comes before it. -/
def le : Text → Text → Bool
  | [], _ => true
  | _ :: _, [] => false
  | a :: as, b :: bs => if a = b then le as bs else decide (a.toNat < b.toNat)

/-- Whether `needle` stands somewhere in a text; the empty text stands everywhere. -/
def occursIn (needle : Text) : Text → Bool
  | [] => needle.isEmpty
  | c :: cs => needle.isPrefixOf (c :: cs) || occursIn needle cs

/-- The decimal numeral of a natural number. -/
def ofNat (n : Nat) : Text := Nat.toDigits 10 n

/-- The decimal numeral of an integer, with a minus sign before a negative one. -/
def ofInt : Int → Text
  | .ofNat n => ofNat n
  | .negSucc n => '-' :: ofNat (n + 1)

/-- Joins texts, `separator` standing between neighbours. -/
def join (separator : Text) (parts : List Text) : Text := separator.intercalate parts

/-- Drops one copy of `tail` from the end of a text that ends in it. -/
def dropEnd (tail text : Text) : Text := text.take (text.length - tail.length)

/-- The part before the first `mark` and the part after it, when there is one. -/
def splitFirst (mark : Char) : Text → Option (Text × Text)
  | [] => none
  | c :: cs =>
    if c = mark then some ([], cs) else (splitFirst mark cs).map fun p => (c :: p.1, p.2)

/-- Cuts a text at every `mark`; the marks are dropped, and there is one piece more than marks. -/
def splitAll (mark : Char) : Text → List Text
  | [] => [[]]
  | c :: cs =>
    match splitAll mark cs with
    | [] => [[c]]
    | piece :: pieces => if c = mark then [] :: piece :: pieces else (c :: piece) :: pieces

theorem le_refl : ∀ t : Text, le t t = true
  | [] => rfl
  | c :: cs => by simp [le, le_refl cs]

theorem le_total (s t : Text) : le s t = true ∨ le t s = true := by
  induction s generalizing t with
  | nil => exact Or.inl rfl
  | cons a as ih =>
    cases t with
    | nil => exact Or.inr rfl
    | cons b bs =>
      by_cases h : a = b
      · simpa [le, h] using ih bs
      · have hn : a.toNat ≠ b.toNat := fun hn => h (Char.toNat_inj.1 hn)
        simp only [le, h, Ne.symm h, if_false, decide_eq_true_eq]
        omega

theorem le_trans {r s t : Text} (h₁ : le r s = true) (h₂ : le s t = true) : le r t = true := by
  induction r generalizing s t with
  | nil => rfl
  | cons a as ih =>
    cases s with
    | nil => simp [le] at h₁
    | cons b bs =>
      cases t with
      | nil => simp [le] at h₂
      | cons c cs =>
        simp only [le] at h₁ h₂ ⊢
        split at h₁ <;> split at h₂
        · rename_i hab hbc
          rw [if_pos (hab.trans hbc)]
          exact ih h₁ h₂
        · rename_i hab hbc
          rw [if_neg (hab ▸ hbc), hab]
          exact h₂
        · rename_i hab hbc
          rw [if_neg (hbc ▸ hab), ← hbc]
          exact h₁
        · rw [decide_eq_true_eq] at h₁ h₂
          have hac : a ≠ c := by rintro rfl; omega
          rw [if_neg hac, decide_eq_true_eq]
          omega

theorem dropEnd_append (t tail : Text) : dropEnd tail (t ++ tail) = t := by
  simp [dropEnd]

@[simp] theorem occursIn_nil : ∀ t : Text, occursIn [] t = true
  | [] => rfl
  | _ :: _ => by simp [occursIn]

end Text
end Galley
