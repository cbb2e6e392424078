/-
# A comparison step by step

A comparison is told by the steps it takes, for arrays and objects alike.  It reports what it sees
of the two values themselves (`ownChanges`), and then, for every step that can be taken from one of
them, what is behind the step on the two sides (`changesAt`): where one side has nothing, the value
of the other was added or removed.  That is what a comparison reports (`differences_eq`); all facts
about reports are proved from it.

Each step is taken once (`nodup_branches`), and which are taken depends on what is there and not on
the order in which it stands (`mem_branches`).
-/

import Galley.Proofs.Json.Step

namespace Galley
namespace Json

variable {path : WideText} {s : Step} {old new : Json}
variable {xs ys : List Json} {ms ns : List (WideText × Json)}

/-! ### What is reported -/

/-- What a comparison reports of two values themselves. -/
def ownChanges (path : WideText) : Json → Json → List Change
  | .array xs, .array ys => lengthChange path xs.length ys.length
  | .object _, .object _ => []
  | old, new =>
    if old.kind = new.kind then
      if sameScalar old new then [] else [⟨path, .changed, old, new⟩]
    else [typeChange path old new]

/-- The steps that a comparison takes from two values: to the indices of the longer of two arrays,
or to the members of the old object and then to those of the new object alone. -/
def branches : Json → Json → List Step
  | .array xs, .array ys => (List.range (max xs.length ys.length)).map .item
  | .object ms, .object ns =>
    (ms.map Prod.fst ++ (ns.map Prod.fst).filter fun key => (find? key ms).isNone).map .member
  | _, _ => []

/-- What a comparison reports at a path that leads to a value in both documents, in one or in
none. -/
def changesAt (path : WideText) : Option Json → Option Json → List Change
  | some old, some new => differences path old new
  | some old, none => [⟨path, .removed, old, .null⟩]
  | none, some new => [⟨path, .added, .null, new⟩]
  | none, none => []

theorem addedItems_eq (path : WideText) (index : Nat) (ys : List Json) :
    addedItems path index ys =
      (List.range ys.length).flatMap fun i =>
        changesAt (Path.item path (index + i)) none ys[i]? := by
  induction ys generalizing index with
  | nil => rfl
  | cons y ys ih =>
    rw [addedItems, ih, List.length_cons, List.range_succ_eq_map, List.flatMap_cons,
      List.flatMap_map]
    simp only [List.getElem?_cons_succ, Nat.succ_eq_add_one, Nat.add_assoc, Nat.add_comm 1]
    rfl

/-- Items are compared index by index, up to the end of the longer array. -/
theorem itemDifferences_eq (path : WideText) (index : Nat) (xs ys : List Json) :
    itemDifferences path index xs ys =
      (List.range (max xs.length ys.length)).flatMap fun i =>
        changesAt (Path.item path (index + i)) xs[i]? ys[i]? := by
  induction xs generalizing index ys with
  | nil =>
    rw [itemDifferences, addedItems_eq, List.length_nil, Nat.zero_max]
    rfl
  | cons x xs ih =>
    have hsucc : ∀ i, index + 1 + i = index + (i + 1) := by omega
    cases ys with
    | nil =>
      rw [itemDifferences, ih, List.length_cons, List.length_nil, Nat.max_zero, Nat.max_zero,
        List.range_succ_eq_map, List.flatMap_cons, List.flatMap_map]
      simp only [hsucc]
      rfl
    | cons y ys =>
      rw [itemDifferences, ih, List.length_cons, List.length_cons, Nat.add_max_add_right,
        List.range_succ_eq_map, List.flatMap_cons, List.flatMap_map]
      simp only [hsucc]
      rfl

/-- The members of the old object are compared with what stands under their keys. -/
theorem memberDifferences_eq (path : WideText) (ms ns : List (WideText × Json)) :
    memberDifferences path ms ns =
      ms.flatMap fun m => changesAt (Path.member path m.1) (some m.2) (find? m.1 ns) := by
  induction ms with
  | nil => rfl
  | cons m ms ih =>
    obtain ⟨key, v⟩ := m
    rw [memberDifferences, ih, List.flatMap_cons]
    cases find? key ns <;> rfl

theorem addedMembers_eq (path : WideText) (ms ns : List (WideText × Json)) :
    addedMembers path ms ns =
      (ns.filter fun m => (find? m.1 ms).isNone).flatMap fun m =>
        changesAt (Path.member path m.1) none (some m.2) :=
  List.map_eq_flatMap ..

/-- Objects are compared key by key. -/
theorem differences_object_eq (path : WideText) (hms : (ms.map Prod.fst).Nodup)
    (hns : (ns.map Prod.fst).Nodup) :
    differences path (.object ms) (.object ns) =
      (ms.map Prod.fst ++ (ns.map Prod.fst).filter fun key => (find? key ms).isNone).flatMap
        fun key => changesAt (Path.member path key) (find? key ms) (find? key ns) := by
  rw [differences, memberDifferences_eq, addedMembers_eq, List.flatMap_append, List.filter_map,
    List.flatMap_map, List.flatMap_map]
  congr 1
  · refine List.flatMap_congr fun m hm => ?_
    rw [find?_of_mem hms hm]
  · refine List.flatMap_congr fun m hm => ?_
    obtain ⟨hmem, hnone⟩ := List.mem_filter.1 hm
    rw [find?_of_mem hns hmem, Option.isNone_iff_eq_none.1 hnone]

/-- **A comparison goes by steps**: it reports what it sees of the two values, and then what it
sees behind each step that can be taken from one of them. -/
theorem differences_eq (path : WideText) (hold : old.WellFormed) (hnew : new.WellFormed) :
    differences path old new =
      ownChanges path old new ++
        (branches old new).flatMap fun s =>
          changesAt (s.extend path) (s.get? old) (s.get? new) := by
  cases hold with
  | array =>
    cases hnew with
    | array =>
      rw [differences, itemDifferences_eq, ownChanges, branches, List.flatMap_map]
      simp only [Nat.zero_add]
      rfl
    | _ => rfl
  | object hms =>
    cases hnew with
    | object hns =>
      rw [differences_object_eq path hms hns, ownChanges, branches, List.flatMap_map]
      rfl
    | _ => rfl
  | _ => exact (List.append_nil _).symm

/-! ### Two values themselves -/

theorem ownChanges_of_kind_ne (hkind : old.kind ≠ new.kind) :
    ownChanges path old new = [typeChange path old new] := by
  cases old <;> cases new <;> first | rfl | exact absurd rfl hkind

theorem ownChanges_of_isScalar (hold : old.isScalar = true) (hkind : old.kind = new.kind) :
    ownChanges path old new = if sameScalar old new then [] else [⟨path, .changed, old, new⟩] := by
  cases old <;> first | exact if_pos hkind | simp [isScalar] at hold

/-- At most one change is reported of two values themselves: their types differ, their lengths as
arrays differ, or they are scalars of one type and differ. -/
theorem ownChanges_cases (path : WideText) (old new : Json) :
    ownChanges path old new = [] ∨
      (old.kind ≠ new.kind ∧ ownChanges path old new = [typeChange path old new]) ∨
      (∃ xs ys, old = .array xs ∧ new = .array ys ∧ xs.length ≠ ys.length ∧
        ownChanges path old new = [⟨path, .lengthChanged, .int xs.length, .int ys.length⟩]) ∨
      (old.kind = new.kind ∧ old.isScalar = true ∧ new.isScalar = true ∧ ¬ Same old new ∧
        ownChanges path old new = [⟨path, .changed, old, new⟩]) := by
  rcases kind_cases old new with hkind | ⟨hkind, hold, hnew⟩ | ⟨xs, ys, rfl, rfl⟩ |
    ⟨ms, ns, rfl, rfl⟩
  · exact Or.inr (Or.inl ⟨hkind, ownChanges_of_kind_ne hkind⟩)
  · rw [ownChanges_of_isScalar hold hkind, ← sameScalar_iff hold]
    cases sameScalar old new <;> simp [hkind, hold, hnew]
  · by_cases hlength : xs.length = ys.length
    · exact Or.inl (if_pos hlength)
    · exact Or.inr (Or.inr (Or.inl ⟨xs, ys, rfl, rfl, hlength, if_neg hlength⟩))
  · exact Or.inl rfl

/-! ### The steps taken -/

theorem branches_of_kind_ne (hkind : old.kind ≠ new.kind) : branches old new = [] := by
  cases old <;> cases new <;> first | rfl | exact absurd rfl hkind

theorem branches_of_isScalar (hold : old.isScalar = true) : branches old new = [] := by
  cases old <;> first | rfl | simp [isScalar] at hold

/-- **The steps taken** from two values of one type are those behind which there is a value on
either side. -/
theorem mem_branches :
    s ∈ branches old new ↔
      old.kind = new.kind ∧ ((s.get? old).isSome = true ∨ (s.get? new).isSome = true) := by
  rcases kind_cases old new with hkind | ⟨-, hold, hnew⟩ | ⟨xs, ys, rfl, rfl⟩ | ⟨ms, ns, rfl, rfl⟩
  · rw [branches_of_kind_ne hkind]
    simp [hkind]
  · rw [branches_of_isScalar hold, get?_of_isScalar hold, get?_of_isScalar hnew]
    simp
  · rw [branches, List.mem_map, isSome_get?_array, isSome_get?_array]
    simp only [List.mem_range, lt_max_iff, kind, true_and, or_and_right, exists_or]
  · have hmem : ∀ key, key ∈ ms.map Prod.fst ++
        (ns.map Prod.fst).filter (fun key => (find? key ms).isNone) ↔
          key ∈ ms.map Prod.fst ∨ key ∈ ns.map Prod.fst := by
      intro key
      have hms : (find? key ms).isSome = true ↔ key ∈ ms.map Prod.fst := isSome_find?_iff
      rw [List.mem_append, List.mem_filter, ← Option.not_isSome, ← hms]
      cases (find? key ms).isSome <;> simp
    rw [branches, List.mem_map, isSome_get?_object, isSome_get?_object]
    simp only [hmem, kind, true_and, or_and_right, exists_or]

theorem nodup_branches (hold : old.WellFormed) (hnew : new.WellFormed) :
    (branches old new).Nodup := by
  cases hold with
  | array =>
    cases hnew with
    | array => exact List.nodup_range.map fun _ _ => Step.item.inj
    | _ => exact List.nodup_nil
  | object hms =>
    cases hnew with
    | object hns =>
      refine List.Nodup.map (fun _ _ => Step.member.inj) ?_
      refine List.nodup_append.2 ⟨hms, hns.filter _, fun key hkey key' hkey' => ?_⟩
      rintro rfl
      have hnone := (List.mem_filter.1 hkey').2
      rw [← Option.not_isSome, isSome_find?_iff.2 hkey] at hnone
      cases hnone
    | _ => exact List.nodup_nil
  | _ => exact List.nodup_nil

end Json
end Galley
