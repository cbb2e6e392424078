/-
# Wide texts

A text that is written with escapes may hold surrogates that stand on their own.  They are code
points and no characters: two texts may differ in them alone, but they cannot be encoded.  A wide
text is a sequence of characters and surrogates.

A text is a wide text, and a wide text without surrogates is a text (`WideText.narrow?`).
-/

import Galley.Text.Basic

namespace Galley

/-- A character, or the surrogate with a number, counted from the first one. -/
inductive CodePoint where
  | char (c : Char)
  | surrogate (n : Fin 0x800)
  deriving DecidableEq, Repr

/-- A wide text, code point by code point. -/
abbrev WideText := List CodePoint

namespace CodePoint

/-- The number of a code point. -/
def toNat : CodePoint → Nat
  | .char c => c.toNat
  | .surrogate n => 0xD800 + n

/-- The code point with a number. -/
def ofNat (n : Nat) : CodePoint :=
  if h : 0xD800 ≤ n ∧ n ≤ 0xDFFF then .surrogate ⟨n - 0xD800, by omega⟩ else .char (Char.ofNat n)

/-- A code point where only characters can be shown: a surrogate is shown by its number. -/
def printed : CodePoint → Text
  | .char c => [c]
  | .surrogate n => ['\\', 'u'] ++ Nat.toDigits 16 (0xD800 + n)

end CodePoint

/-- A text as a wide text. -/
def Text.wide (t : Text) : WideText := t.map CodePoint.char

instance : Coe Text WideText := ⟨Text.wide⟩

namespace WideText

/-- The dictionary order by the numbers of the code points. -/
def le : WideText → WideText → Bool
  | [], _ => true
  | _ :: _, [] => false
  | a :: as, b :: bs => if a = b then le as bs else decide (a.toNat < b.toNat)

/-- The text that a wide text is, if it holds no surrogates. -/
def narrow? : WideText → Option Text
  | [] => some []
  | .char c :: t => (narrow? t).map (c :: ·)
  | .surrogate _ :: _ => none

/-- A wide text where only characters can be shown. -/
def printed (t : WideText) : Text := t.flatMap CodePoint.printed

/-- A list of wide texts as lines, each ended by a line feed. -/
def unlines (lines : List WideText) : WideText := (lines.map (· ++ [.char '\n'])).flatten

end WideText

namespace Text

@[simp] theorem wide_nil : wide [] = [] := rfl

theorem wide_cons (c : Char) (t : Text) : wide (c :: t) = .char c :: wide t := rfl

@[simp] theorem wide_append (s t : Text) : wide (s ++ t) = wide s ++ wide t :=
  List.map_append

@[simp] theorem wide_inj {s t : Text} : wide s = wide t ↔ s = t :=
  List.map_inj_right fun _ _ => CodePoint.char.inj

end Text

namespace WideText

theorem narrow?_wide (t : Text) : narrow? t = some t := by
  induction t with
  | nil => rfl
  | cons c t ih => rw [Text.wide_cons, narrow?, ih, Option.map_some]

/-- **The wide texts without surrogates are the texts.** -/
theorem narrow?_eq_some_iff {t : WideText} {s : Text} : t.narrow? = some s ↔ t = s := by
  constructor
  · intro h
    induction t generalizing s with
    | nil =>
      obtain rfl := Option.some.inj h
      rfl
    | cons p t ih =>
      cases p with
      | surrogate n => cases h
      | char c =>
        obtain ⟨rest, hrest, rfl⟩ := Option.map_eq_some_iff.1 h
        rw [Text.wide_cons, ih hrest]
  · rintro rfl
    exact narrow?_wide s

end WideText
end Galley
