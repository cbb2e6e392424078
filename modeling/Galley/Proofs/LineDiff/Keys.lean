/-
# Lines compared by their words

Where blanks are ignored and case is not, the key of a line is its words with single spaces between
them (`Options.key_eq_join`).  From the key the words can be read again, so two lines count as equal
if and only if they have the same words, and a key is its own key (`Options.key_words`).
-/

import Galley.LineDiff.Options
import Galley.Proofs.Text.Words

namespace Galley
namespace LineDiff
namespace Options

open Text (words join HasWords)

variable {o : Options}

/-- The key where blanks are ignored and case is not. -/
theorem key_eq_join (hspace : o.ignoreWhitespace = true) (hcase : o.ignoreCase = false)
    (line : Text) : o.key line = join [' '] (words line) := by
  rw [key, if_pos hspace, hcase, if_neg (by decide), Text.trim_collapse]

/-- **Where blanks are ignored, lines are compared by their words**, which are the runs of what is
not blank; a key is those words with single spaces between them, and its own key. -/
theorem key_words (hspace : o.ignoreWhitespace = true) (hcase : o.ignoreCase = false)
    (x y : Text) :
    (o.key x = o.key y ↔ words x = words y) ∧ o.key x = join [' '] (words x) ∧
      o.key (o.key x) = o.key x ∧ ∀ ws, HasWords x ws ↔ ws = words x := by
  have hkey := key_eq_join hspace hcase
  refine ⟨?_, hkey x, ?_, fun ws => Text.hasWords_iff⟩
  · rw [hkey x, hkey y]
    constructor
    · intro h
      -- the words of both lines are read back from the one key
      calc words x = words (join [' '] (words x)) := (Text.words_join_words x).symm
        _ = words (join [' '] (words y)) := congrArg words h
        _ = words y := Text.words_join_words y
    · exact congrArg (join [' '])
  · rw [hkey (o.key x), hkey x, Text.words_join_words]

/-- Blanks of several kinds at both ends and in between, against single spaces. -/
theorem key_words_wide :
    let o : Options := { standard with ignoreWhitespace := true }
    let x := "\t\u2003a:\u3000\u00A0b \r".toList
    let y := "a: b".toList
    o.ignoreWhitespace = true ∧ o.ignoreCase = false ∧ words x = ["a:".toList, "b".toList] ∧
      o.key x = o.key y ∧ o.key x = y ∧ o.key (o.key x) = o.key x := by
  intro o x y
  have hx : words x = ["a:".toList, "b".toList] := by decide +kernel
  have hy : words y = ["a:".toList, "b".toList] := by decide +kernel
  obtain ⟨hiff, hkey, hagain, -⟩ := key_words (o := o) rfl rfl x y
  exact ⟨rfl, rfl, hx, hiff.2 (hx.trans hy.symm), hkey.trans (congrArg _ hx), hagain⟩

end Options
end LineDiff
end Galley
