/-
# The documents exchanged

Comparing two documents the other way round reports the mirror images of the changes: what was
added was removed, and old and new values are exchanged (`differences_exchanged`).  The changes
stand in another order, because the members of the old object are compared first; as multisets they
are the mirror images, also where several changes have one path.
-/

import Galley.Proofs.Json.Walk
import Mathlib.Data.Multiset.MapFold

namespace Galley
namespace Json

variable {path : WideText} {s : Step} {old new : Json} {old? new? : Option Json}

/-- The kind of a change seen from the other document. -/
def ChangeKind.mirror : ChangeKind → ChangeKind
  | .added => .removed
  | .removed => .added
  | kind => kind

/-- A change seen from the other document. -/
def Change.mirror (c : Change) : Change := ⟨c.path, c.kind.mirror, c.new, c.old⟩

theorem sameScalar_comm (hold : old.isScalar = true) (hnew : new.isScalar = true) :
    sameScalar new old = sameScalar old new := by
  rw [Bool.eq_iff_iff, sameScalar_iff hnew, sameScalar_iff hold]
  exact ⟨Same.symm, Same.symm⟩

/-- What is reported of two values themselves is mirrored. -/
theorem ownChanges_exchanged (path : WideText) (old new : Json) :
    ownChanges path new old = (ownChanges path old new).map Change.mirror := by
  rcases kind_cases old new with hkind | ⟨hkind, hold, hnew⟩ | ⟨xs, ys, rfl, rfl⟩ |
    ⟨ms, ns, rfl, rfl⟩
  · rw [ownChanges_of_kind_ne hkind, ownChanges_of_kind_ne hkind.symm]
    rfl
  · rw [ownChanges_of_isScalar hold hkind, ownChanges_of_isScalar hnew hkind.symm,
      sameScalar_comm hold hnew]
    cases sameScalar old new <;> rfl
  · by_cases hlength : xs.length = ys.length
    · rw [ownChanges, ownChanges, lengthChange, lengthChange, if_pos hlength, if_pos hlength.symm]
      rfl
    · rw [ownChanges, ownChanges, lengthChange, lengthChange, if_neg hlength,
        if_neg (Ne.symm hlength)]
      rfl
  · rfl

/-- The same steps are taken, in some order. -/
theorem branches_exchanged (hold : old.WellFormed) (hnew : new.WellFormed) :
    (branches new old).Perm (branches old new) := by
  refine (List.perm_ext_iff_of_nodup (nodup_branches hnew hold) (nodup_branches hold hnew)).2 ?_
  intro s
  rw [mem_branches, mem_branches, eq_comm, or_comm]

/-- **What is reported at a place is mirrored**, in some order. -/
theorem changesAt_exchanged (path : WideText) (hold : ∀ v ∈ old?, v.WellFormed)
    (hnew : ∀ v ∈ new?, v.WellFormed) :
    (changesAt path new? old?).Perm ((changesAt path old? new?).map Change.mirror) := by
  induction old?, hold using WellFormed.step_induction generalizing path new? with
  | absent => cases new? <;> rfl
  | present old hold ih =>
    cases new? with
    | none => rfl
    | some new =>
      have hnew : new.WellFormed := hnew new rfl
      rw [changesAt, changesAt, differences_eq path hnew hold, differences_eq path hold hnew,
        List.map_append, List.map_flatMap, ownChanges_exchanged]
      refine List.Perm.append_left _ ?_
      refine (branches_exchanged hold hnew).flatMap fun s _ => ?_
      exact ih s (s.extend path) fun _ => hnew.get?

/-- **The mirror law**: the changes from the new document to the old one are the changes from the
old to the new, with what was added and what was removed exchanged, and the old and the new
values. -/
theorem differences_exchanged (path : WideText) (hold : old.WellFormed) (hnew : new.WellFormed) :
    (differences path new old : Multiset Change) =
      (differences path old new : Multiset Change).map Change.mirror := by
  rw [Multiset.map_coe, Multiset.coe_eq_coe]
  have hold' : ∀ v ∈ some old, v.WellFormed := by simpa using hold
  have hnew' : ∀ v ∈ some new, v.WellFormed := by simpa using hnew
  exact changesAt_exchanged path hold' hnew'

/-- One change reported twice, and another order of the members. -/
theorem differences_exchanged_twice :
    let old : Json := .object [("a.b".toList, .int 1), ("a".toList, .object [("b".toList, .int 1)]),
      ("t".toList, .null)]
    let new : Json := .object [("t".toList, .text []), ("a".toList, .object [])]
    old.WellFormed ∧ new.WellFormed ∧
      (differences [] old new).map (fun c => (String.ofList c.path.printed, c.kind)) =
        [("a.b", .removed), ("a.b", .removed), ("t", .typeChanged)] ∧
      (differences [] new old).map (fun c => (String.ofList c.path.printed, c.kind)) =
        [("t", .typeChanged), ("a.b", .added), ("a.b", .added)] ∧
      (differences [] new old : Multiset Change) =
        (differences [] old new : Multiset Change).map Change.mirror := by
  intro old new
  have hold : old.WellFormed := by
    refine .object (by decide) (List.forall_mem_cons.2 ⟨.int 1, List.forall_mem_cons.2 ⟨?_, ?_⟩⟩)
    · exact .object (by decide) (List.forall_mem_singleton.2 (.int 1))
    · exact List.forall_mem_singleton.2 .null
  have hnew : new.WellFormed := by
    refine .object (by decide) (List.forall_mem_cons.2 ⟨.text [], ?_⟩)
    exact List.forall_mem_singleton.2 wellFormed_empty
  exact ⟨hold, hnew, by decide, by decide, differences_exchanged [] hold hnew⟩

end Json
end Galley
