/-
# Records as scripts

A list of records is a script if it goes through all old lines and all new lines, each once and in
order, and pairs lines with equal keys only.  The walk along the common keys yields a script: its
invariant is that the keys not yet met are a subsequence of the keys of the old lines left and of
those of the new lines left.  So a new line is left wherever the walk wants one (`walk_eq_some`).

A script has both texts in it, line by line with their numbers (`Script.map_old`,
`Script.map_new`), and the records of a comparison are one (`script_records`).
-/

import Galley.LineDiff.Record
import Galley.Proofs.LineDiff.Subsequence
import Mathlib.Data.List.Basic

namespace Galley
namespace LineDiff

variable {key : Text → Text} {i j : Int} {old new : List KeyedLine} {ks : List Text}
variable {rs : List Record}

/-! ### Scripts -/

/-- Whether records go through old lines, counted from `i`, and new lines, counted from `j`. -/
inductive Script : Int → Int → List KeyedLine → List KeyedLine → List Record → Prop where
  | done (i j : Int) : Script i j [] [] []
  | unchanged {i j : Int} {o n : KeyedLine} {old new : List KeyedLine} {rs : List Record}
      (hkey : o.key = n.key) (h : Script (i + 1) (j + 1) old new rs) :
      Script i j (o :: old) (n :: new) (.unchanged i j o.text n.text :: rs)
  | removed {i j : Int} {o : KeyedLine} {old new : List KeyedLine} {rs : List Record}
      (h : Script (i + 1) j old new rs) : Script i j (o :: old) new (.removed i o.text :: rs)
  | added {i j : Int} {n : KeyedLine} {old new : List KeyedLine} {rs : List Record}
      (h : Script i (j + 1) old new rs) : Script i j old (n :: new) (.added j n.text :: rs)

/-- **The walk finds a script.**  The keys not yet met are keys of the old lines left and of the
new lines left, in order. -/
theorem walk_eq_some (hold : ks.Sublist (old.map KeyedLine.key))
    (hnew : ks.Sublist (new.map KeyedLine.key)) :
    ∃ rs, walk i j old new ks = some rs ∧ Script i j old new rs := by
  fun_induction walk i j old new ks with
  | case1 i j ks => exact ⟨[], rfl, .done i j⟩
  | case2 i j o os ns ih =>
    -- no common keys are left, old lines are
    obtain ⟨rs, hrs, h⟩ := ih (List.nil_sublist _) (List.nil_sublist _)
    exact ⟨_, by rw [hrs]; rfl, .removed h⟩
  | case3 i j n ns ks ih =>
    -- no old lines are left, so there are no common keys left either
    rw [List.map_nil, List.sublist_nil] at hold
    subst hold
    obtain ⟨rs, hrs, h⟩ := ih (List.nil_sublist _) (List.nil_sublist _)
    exact ⟨_, by rw [hrs]; rfl, .added h⟩
  | case4 i j o os ks =>
    -- a common key stands for a new line, and none is left
    rw [List.map_nil, List.sublist_nil] at hnew
    exact absurd hnew (List.cons_ne_nil _ ks)
  | case5 i j o os k ks hk ih =>
    rw [List.map_nil, List.sublist_nil] at hnew
    exact absurd hnew (List.cons_ne_nil k ks)
  | case6 i j o os n ns ks hn ih =>
    rw [List.map_cons, List.cons_sublist_cons] at hold
    rw [List.map_cons, hn, List.cons_sublist_cons] at hnew
    obtain ⟨rs, hrs, h⟩ := ih hold hnew
    exact ⟨_, by rw [hrs]; rfl, .unchanged hn.symm h⟩
  | case7 i j o os n ns ks hn ih =>
    obtain ⟨rs, hrs, h⟩ := ih hold (List.Sublist.of_cons_of_ne (Ne.symm hn) hnew)
    exact ⟨_, by rw [hrs]; rfl, .added h⟩
  | case8 i j o os n ns k ks ho ih =>
    obtain ⟨rs, hrs, h⟩ := ih (List.Sublist.of_cons_of_ne (Ne.symm ho) hold) hnew
    exact ⟨_, by rw [hrs]; rfl, .removed h⟩

/-- **The first step of a walk.**  A pair of lines with the next common key is unchanged, an old line
with another key is removed, and a new line is added where the next old line, if there is one, has
the next common key. -/
theorem walk_cons_cases {r : Record} (h : walk i j old new ks = some (r :: rs)) :
    (∃ o os n ns ks', old = o :: os ∧ new = n :: ns ∧ ks = o.key :: ks' ∧ n.key = o.key ∧
        r = .unchanged i j o.text n.text ∧ walk (i + 1) (j + 1) os ns ks' = some rs) ∨
      (∃ o os, old = o :: os ∧ ks.head? ≠ some o.key ∧ r = .removed i o.text ∧
        walk (i + 1) j os new ks = some rs) ∨
      ∃ n ns, new = n :: ns ∧ (∀ o ∈ old.head?, ks.head? = some o.key) ∧
        r = .added j n.text ∧ walk i (j + 1) old ns ks = some rs := by
  have inv : ∀ {x : Option (List Record)} {s : Record}, x.map (s :: ·) = some (r :: rs) →
      r = s ∧ x = some rs := by
    intro x s hx
    obtain ⟨ss, hss, hcons⟩ := Option.map_eq_some_iff.1 hx
    obtain ⟨rfl, rfl⟩ := List.cons.inj hcons
    exact ⟨rfl, hss⟩
  fun_cases walk i j old new ks with
  | case1 => simp [walk] at h
  | case2 o os ns =>
    rw [walk] at h
    exact Or.inr (Or.inl ⟨o, os, rfl, by simp, inv h⟩)
  | case3 n ns =>
    rw [walk] at h
    exact Or.inr (Or.inr ⟨n, ns, rfl, by simp, inv h⟩)
  | case4 o os ks => simp [walk] at h
  | case5 o os k ks ho =>
    rw [walk, if_neg ho] at h
    exact Or.inr (Or.inl ⟨o, os, rfl, by simpa using Ne.symm ho, inv h⟩)
  | case6 o os n ns ks hn =>
    rw [walk, if_pos rfl, if_pos hn] at h
    exact Or.inl ⟨o, os, n, ns, ks, rfl, rfl, rfl, hn, inv h⟩
  | case7 o os n ns ks hn =>
    rw [walk, if_pos rfl, if_neg hn] at h
    exact Or.inr (Or.inr ⟨n, ns, rfl, by simp, inv h⟩)
  | case8 o os n ns k ks ho =>
    rw [walk, if_neg ho] at h
    exact Or.inr (Or.inl ⟨o, os, rfl, by simpa using Ne.symm ho, inv h⟩)

/-! ### The two texts in a script -/

/-- Lines with their numbers, counted from `i`. -/
def numbered (i : Int) (lines : List Text) : List (Option Int × Text) :=
  lines.mapIdx fun m line => (some (i + m), line)

theorem numbered_cons (i : Int) (line : Text) (lines : List Text) :
    numbered i (line :: lines) = (some i, line) :: numbered (i + 1) lines := by
  unfold numbered
  rw [List.mapIdx_cons]
  congr 1
  · simp
  · congr 1
    funext m line
    have hm : i + ((m + 1 : Nat) : Int) = i + 1 + m := by omega
    rw [hm]

namespace Script

/-- **The old text is in a script**, line by line with its numbers. -/
theorem map_old (h : Script i j old new rs) :
    (rs.filter fun r => r.fate != .added).map (fun r => (r.oldLine, r.content)) =
      numbered i (old.map KeyedLine.text) := by
  induction h with
  | done i j => rfl
  | unchanged hkey h ih => rw [List.map_cons, numbered_cons, ← ih]; rfl
  | removed h ih => rw [List.map_cons, numbered_cons, ← ih]; rfl
  | added h ih => exact ih

/-- **The new text is in a script**, line by line with its numbers. -/
theorem map_new (h : Script i j old new rs) :
    (rs.filter fun r => r.fate != .removed).map (fun r => (r.newLine, r.newText)) =
      numbered j (new.map KeyedLine.text) := by
  induction h with
  | done i j => rfl
  | unchanged hkey h ih => rw [List.map_cons, numbered_cons, ← ih]; rfl
  | removed h ih => exact ih
  | added h ih => rw [List.map_cons, numbered_cons, ← ih]; rfl

/-- **An unchanged record pairs lines with equal keys.** -/
theorem key_eq (h : Script i j old new rs) (hold : ∀ o ∈ old, o.key = key o.text)
    (hnew : ∀ n ∈ new, n.key = key n.text) :
    ∀ r ∈ rs, r.fate = .unchanged → key r.content = key r.newText := by
  induction h with
  | done i j => simp
  | unchanged hkey h ih =>
    obtain ⟨ho, hold⟩ := List.forall_mem_cons.1 hold
    obtain ⟨hn, hnew⟩ := List.forall_mem_cons.1 hnew
    refine List.forall_mem_cons.2 ⟨fun _ => ?_, ih hold hnew⟩
    exact ho.symm.trans (hkey.trans hn)
  | removed h ih =>
    refine List.forall_mem_cons.2 ⟨fun hr => ?_, ih (List.forall_mem_cons.1 hold).2 hnew⟩
    simp [Record.removed] at hr
  | added h ih =>
    refine List.forall_mem_cons.2 ⟨fun hr => ?_, ih hold (List.forall_mem_cons.1 hnew).2⟩
    simp [Record.added] at hr

end Script

/-! ### The records of a comparison -/

theorem map_text_keyed (key : Text → Text) (lines : List Text) :
    (keyed key lines).map KeyedLine.text = lines := by
  simp [keyed, Function.comp_def]

theorem map_key_keyed (key : Text → Text) (lines : List Text) :
    (keyed key lines).map KeyedLine.key = lines.map key := by
  simp [keyed, Function.comp_def]

/-- **The records of a comparison are a script.** -/
theorem script_records (o : Options) (old new : List Text) :
    records? o old new = some (records o old new) ∧
      Script 1 1 (keyed o.key old) (keyed o.key new) (records o old new) := by
  obtain ⟨hold, hnew⟩ := common_sublist (old.map o.key) (new.map o.key)
  obtain ⟨rs, hrs, h⟩ : ∃ rs, records? o old new = some rs ∧
      Script 1 1 (keyed o.key old) (keyed o.key new) rs :=
    walk_eq_some (by rwa [map_key_keyed]) (by rwa [map_key_keyed])
  have hrecords : records o old new = rs := by
    rw [records, recordsWith, ← records?, hrs, Option.getD_some]
  rw [hrecords]
  exact ⟨hrs, h⟩

/-- **A comparison has both texts in it.**  No line is wanted that is not there; the lines of the
old text are those of the unchanged and the removed records, the lines of the new text those of the
unchanged and the added ones, in order and with their numbers; and an unchanged record pairs two
lines with equal keys. -/
theorem records_reconstruct (o : Options) (old new : List Text) :
    records? o old new = some (records o old new) ∧
      ((records o old new).filter fun r => r.fate != .added).map
        (fun r => (r.oldLine, r.content)) = numbered 1 old ∧
      ((records o old new).filter fun r => r.fate != .removed).map
        (fun r => (r.newLine, r.newText)) = numbered 1 new ∧
      ∀ r ∈ records o old new, r.fate = .unchanged → o.key r.content = o.key r.newText := by
  obtain ⟨hsome, h⟩ := script_records o old new
  have hkeyed : ∀ lines, ∀ l ∈ keyed o.key lines, l.key = o.key l.text := by
    intro lines l hl
    obtain ⟨line, -, rfl⟩ := List.mem_map.1 hl
    rfl
  refine ⟨hsome, ?_, ?_, h.key_eq (hkeyed old) (hkeyed new)⟩
  · rw [h.map_old, map_text_keyed]
  · rw [h.map_new, map_text_keyed]

end LineDiff
end Galley
