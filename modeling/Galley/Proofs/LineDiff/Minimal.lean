/-
# Shortest edits

Records are an edit of one text into another if they have both texts in them and pair lines with
equal keys only (`Edit`); nothing is asked of line numbers, nor of the order of removals and
additions.  The keys of the unchanged records are common to the texts, every old line is unchanged
or removed, and every new line is unchanged or added:

    removed + unchanged = old lines,    added + unchanged = new lines

so an edit has the fewer removals and additions the more lines it keeps, and none keeps more than
the texts have in common.  The walk along the common keys keeps all of them
(`sharedKeys_walk`): an old line with the next common key waits for its partner, so a key that is
met out of turn on one side does not use up the other.
-/

import Galley.LineDiff.Report
import Galley.Proofs.LineDiff.Longest
import Galley.Proofs.LineDiff.Script

namespace Galley
namespace LineDiff

variable {key : Text → Text} {old new : List Text} {rs : List Record}

/-! ### Edits -/

/-- Whether records turn one text into another, lines with equal keys counting as equal. -/
structure Edit (key : Text → Text) (old new : List Text) (rs : List Record) : Prop where
  old_eq : (rs.filter fun r => r.fate != .added).map Record.content = old
  new_eq : (rs.filter fun r => r.fate != .removed).map Record.newText = new
  key_eq : ∀ r ∈ rs, r.fate = .unchanged → key r.content = key r.newText

/-- The keys of the unchanged records. -/
def sharedKeys (key : Text → Text) (rs : List Record) : List Text :=
  (rs.filter fun r => r.fate == .unchanged).map fun r => key r.content

theorem length_sharedKeys (key : Text → Text) (rs : List Record) :
    (sharedKeys key rs).length = countOf .unchanged rs := by
  rw [sharedKeys, List.length_map, countOf, List.countP_eq_length_filter]

theorem sharedKeys_unchanged (i j : Int) (line line' : Text) (rs : List Record) :
    sharedKeys key (.unchanged i j line line' :: rs) = key line :: sharedKeys key rs := rfl

theorem sharedKeys_removed (i : Int) (line : Text) (rs : List Record) :
    sharedKeys key (.removed i line :: rs) = sharedKeys key rs := rfl

theorem sharedKeys_added (j : Int) (line : Text) (rs : List Record) :
    sharedKeys key (.added j line :: rs) = sharedKeys key rs := rfl

/-- The records that are not of some fate are those of the other two. -/
theorem length_filter_fate {a b c : Fate} (hab : a ≠ b) (hac : a ≠ c) (hbc : b ≠ c)
    (rs : List Record) :
    (rs.filter fun r => r.fate != a).length = countOf b rs + countOf c rs := by
  unfold countOf
  rw [← List.countP_eq_length_filter]
  induction rs with
  | nil => rfl
  | cons r rs ih =>
    have hone : (if r.fate != a then 1 else 0) =
        (if r.fate == b then 1 else 0) + (if r.fate == c then 1 else 0) := by
      revert hab hac hbc
      cases r.fate <;> cases a <;> cases b <;> cases c <;> decide
    rw [List.countP_cons, List.countP_cons, List.countP_cons, ih, hone]
    omega

namespace Edit

/-- Every old line is removed or unchanged. -/
theorem length_old (h : Edit key old new rs) :
    countOf .removed rs + countOf .unchanged rs = old.length := by
  rw [← h.old_eq, List.length_map, length_filter_fate] <;> decide

/-- Every new line is added or unchanged. -/
theorem length_new (h : Edit key old new rs) :
    countOf .added rs + countOf .unchanged rs = new.length := by
  rw [← h.new_eq, List.length_map, length_filter_fate] <;> decide

/-- **What an edit keeps is common to both texts.** -/
theorem sharedKeys_sublist (h : Edit key old new rs) :
    (sharedKeys key rs).Sublist (old.map key) ∧ (sharedKeys key rs).Sublist (new.map key) := by
  have hnew : sharedKeys key rs =
      (rs.filter fun r => r.fate == .unchanged).map fun r => key r.newText := by
    refine List.map_congr_left fun r hr => ?_
    rw [List.mem_filter, beq_iff_eq] at hr
    exact h.key_eq r hr.1 hr.2
  constructor
  · rw [← h.old_eq, List.map_map]
    refine (List.monotone_filter_right rs fun r hr => ?_).map _
    simp [eq_of_beq hr]
  · rw [hnew, ← h.new_eq, List.map_map]
    refine (List.monotone_filter_right rs fun r hr => ?_).map _
    simp [eq_of_beq hr]

/-- **No edit keeps more than the texts have in common.** -/
theorem countOf_unchanged_le (h : Edit key old new rs) :
    countOf .unchanged rs ≤ (common (old.map key) (new.map key)).length := by
  rw [← length_sharedKeys key]
  exact length_le_length_common h.sharedKeys_sublist.1 h.sharedKeys_sublist.2

end Edit

/-! ### The walk -/

theorem map_snd_numbered (i : Int) (lines : List Text) :
    (numbered i lines).map Prod.snd = lines := by
  induction lines generalizing i with
  | nil => rfl
  | cons line lines ih => rw [numbered_cons, List.map_cons, ih]

/-- A script is an edit. -/
theorem Script.edit {i j : Int} {old new : List KeyedLine} (h : Script i j old new rs)
    (hold : ∀ o ∈ old, o.key = key o.text) (hnew : ∀ n ∈ new, n.key = key n.text) :
    Edit key (old.map KeyedLine.text) (new.map KeyedLine.text) rs where
  old_eq := by
    have hmap := congrArg (List.map Prod.snd) h.map_old
    rwa [map_snd_numbered, List.map_map] at hmap
  new_eq := by
    have hmap := congrArg (List.map Prod.snd) h.map_new
    rwa [map_snd_numbered, List.map_map] at hmap
  key_eq := h.key_eq hold hnew

/-- **The walk keeps every common key**, in order. -/
theorem sharedKeys_walk {i j : Int} {old new : List KeyedLine} {ks : List Text}
    (h : walk i j old new ks = some rs) (hold : ∀ o ∈ old, o.key = key o.text)
    (hks : ks.Sublist (old.map KeyedLine.key)) : sharedKeys key rs = ks := by
  fun_induction walk i j old new ks generalizing rs with
  | case1 i j ks =>
    obtain rfl := Option.some.inj h
    exact (List.sublist_nil.1 hks).symm
  | case2 i j o os ns ih =>
    obtain ⟨rs, hrs, rfl⟩ := Option.map_eq_some_iff.1 h
    rw [sharedKeys_removed]
    exact ih hrs (List.forall_mem_cons.1 hold).2 (List.nil_sublist _)
  | case3 i j n ns ks ih =>
    obtain ⟨rs, hrs, rfl⟩ := Option.map_eq_some_iff.1 h
    rw [sharedKeys_added]
    exact ih hrs hold hks
  | case4 i j o os ks => simp at h
  | case5 i j o os k ks ho ih =>
    obtain ⟨rs, hrs, rfl⟩ := Option.map_eq_some_iff.1 h
    rw [sharedKeys_removed]
    exact ih hrs (List.forall_mem_cons.1 hold).2 (List.Sublist.of_cons_of_ne (Ne.symm ho) hks)
  | case6 i j o os n ns ks hn ih =>
    obtain ⟨rs, hrs, rfl⟩ := Option.map_eq_some_iff.1 h
    obtain ⟨ho, hold⟩ := List.forall_mem_cons.1 hold
    rw [List.map_cons, List.cons_sublist_cons] at hks
    rw [sharedKeys_unchanged, ih hrs hold hks, ho]
  | case7 i j o os n ns ks hn ih =>
    -- the old line waits for its partner
    obtain ⟨rs, hrs, rfl⟩ := Option.map_eq_some_iff.1 h
    rw [sharedKeys_added]
    exact ih hrs hold hks
  | case8 i j o os n ns k ks ho ih =>
    obtain ⟨rs, hrs, rfl⟩ := Option.map_eq_some_iff.1 h
    rw [sharedKeys_removed]
    exact ih hrs (List.forall_mem_cons.1 hold).2 (List.Sublist.of_cons_of_ne (Ne.symm ho) hks)

/-! ### The records of a comparison -/

theorem key_of_mem_keyed {l : KeyedLine} {lines : List Text} (hl : l ∈ keyed key lines) :
    l.key = key l.text := by
  obtain ⟨line, -, rfl⟩ := List.mem_map.1 hl
  rfl

/-- The records of a comparison are an edit. -/
theorem edit_records (o : Options) (old new : List Text) :
    Edit o.key old new (records o old new) := by
  have h := (script_records o old new).2.edit (fun _ => key_of_mem_keyed) (fun _ => key_of_mem_keyed)
  rwa [map_text_keyed, map_text_keyed] at h

/-- The records of a comparison keep the common keys. -/
theorem sharedKeys_records (o : Options) (old new : List Text) :
    sharedKeys o.key (records o old new) = common (old.map o.key) (new.map o.key) := by
  refine sharedKeys_walk (script_records o old new).1 (fun _ => key_of_mem_keyed) ?_
  rw [map_key_keyed]
  exact (common_sublist _ _).1

/-- **A comparison is a shortest edit.**  The keys of its unchanged records are those of the longest
common subsequence, in order, and no records that turn the old text into the new one have fewer
removals and additions. -/
theorem records_shortest (o : Options) (old new : List Text) :
    sharedKeys o.key (records o old new) = common (old.map o.key) (new.map o.key) ∧
      Edit o.key old new (records o old new) ∧
      ∀ rs, Edit o.key old new rs →
        countOf .removed (records o old new) + countOf .added (records o old new) ≤
          countOf .removed rs + countOf .added rs := by
  refine ⟨sharedKeys_records o old new, edit_records o old new, fun rs h => ?_⟩
  have hkept : countOf .unchanged rs ≤ countOf .unchanged (records o old new) := by
    rw [← length_sharedKeys o.key (records o old new), sharedKeys_records]
    exact h.countOf_unchanged_le
  have hold := h.length_old
  have hnew := h.length_new
  have hold' := (edit_records o old new).length_old
  have hnew' := (edit_records o old new).length_new
  omega

/-- An edit that keeps one line where the comparison keeps two. -/
theorem records_shortest_ignoring_case :
    let o : Options := { Options.standard with ignoreCase := true }
    let old := ["a".toList, "b".toList, "a".toList]
    let new := ["B".toList, "A".toList, "b".toList]
    let rs : List Record :=
      [.added 1 "B".toList, .unchanged 1 2 "a".toList "A".toList, .removed 2 "b".toList,
        .removed 3 "a".toList, .added 3 "b".toList]
    Edit o.key old new rs ∧
      countOf .removed (records o old new) + countOf .added (records o old new) ≤
        countOf .removed rs + countOf .added rs := by
  intro o old new rs
  have h : Edit o.key old new rs := ⟨rfl, rfl, by decide⟩
  exact ⟨h, (records_shortest o old new).2.2 rs h⟩

end LineDiff
end Galley
