/-
# Same documents

When are two documents the same?  The types of their values agree at every place; numbers are the
same if they have one amount, however they are written, so `1` and `1.0` are and what is no number
is not the same as itself; arrays are the same item by item and objects member by member, in
whatever order the members stand (`Same`).

A comparison of two documents finds no difference exactly when they are the same
(`differences_eq_nil_iff`), at whatever path it starts.
-/

import Galley.Json.Compare
import Galley.Proofs.Json.WellFormed
import Galley.Proofs.Number.Amount

namespace Galley
namespace Json

variable {path : WideText} {index : Nat} {a b v w : Json}
variable {xs ys : List Json} {ms ns : List (WideText × Json)}

/-- The amount of a value, if it is a number. -/
def amount? : Json → Option Amount
  | .int i => some (.finite i)
  | .float x => x.amount?
  | _ => none

/-- Whether two documents are the same but for the writing of numbers and the order of members. -/
inductive Same : Json → Json → Prop where
  | null : Same .null .null
  | bool (b : Bool) : Same (.bool b) (.bool b)
  | number {a b : Json} {q : Amount} (ha : a.amount? = some q) (hb : b.amount? = some q) : Same a b
  | text (t : WideText) : Same (.text t) (.text t)
  | array {xs ys : List Json} (hlength : xs.length = ys.length)
      (hitems : ∀ (i : Nat) v w, xs[i]? = some v → ys[i]? = some w → Same v w) :
      Same (.array xs) (.array ys)
  | object {ms ns : List (WideText × Json)}
      (hkeys : ∀ key, (find? key ms).isSome = (find? key ns).isSome)
      (hvalues : ∀ key v w, find? key ms = some v → find? key ns = some w → Same v w) :
      Same (.object ms) (.object ns)

theorem kind_of_amount? {q : Amount} (h : a.amount? = some q) : a.kind = .number := by
  cases a <;> first | rfl | simp [amount?] at h

/-- The types of the same values agree. -/
theorem Same.kind_eq (h : Same a b) : a.kind = b.kind := by
  cases h with
  | number ha hb => rw [kind_of_amount? ha, kind_of_amount? hb]
  | _ => rfl

/-- Whether a value holds no other values. -/
def isScalar : Json → Bool
  | .array _ => false
  | .object _ => false
  | _ => true

/-! ### What is the same as a value -/

/-- A scalar that is no number is the same as itself only. -/
theorem same_iff_eq (ha : a.isScalar = true) (hkind : a.kind ≠ .number) : Same a b ↔ a = b := by
  constructor
  · intro h
    cases h with
    | null | bool | text => rfl
    | number hq => exact absurd (kind_of_amount? hq) hkind
    | array | object => simp [isScalar] at ha
  · rintro rfl
    cases a with
    | null => exact .null
    | bool x => exact .bool x
    | text t => exact .text t
    | int | float => exact absurd rfl hkind
    | array | object => simp [isScalar] at ha

/-- A number is the same as those of its amount. -/
theorem same_number_iff (hkind : a.kind = .number) :
    Same a b ↔ ∃ q, a.amount? = some q ∧ b.amount? = some q := by
  constructor
  · intro h
    cases h with
    | number ha hb => exact ⟨_, ha, hb⟩
    | _ => cases hkind
  · rintro ⟨q, ha, hb⟩
    exact .number ha hb

theorem same_array_iff :
    Same (.array xs) (.array ys) ↔
      xs.length = ys.length ∧
        ∀ (i : Nat) v w, xs[i]? = some v → ys[i]? = some w → Same v w := by
  constructor
  · intro h
    cases h with
    | number ha hb => simp [amount?] at ha
    | array hlength hitems => exact ⟨hlength, hitems⟩
  · rintro ⟨hlength, hitems⟩
    exact .array hlength hitems

theorem same_object_iff :
    Same (.object ms) (.object ns) ↔
      (∀ key, (find? key ms).isSome = (find? key ns).isSome) ∧
        ∀ key v w, find? key ms = some v → find? key ns = some w → Same v w := by
  constructor
  · intro h
    cases h with
    | number ha hb => simp [amount?] at ha
    | object hkeys hvalues => exact ⟨hkeys, hvalues⟩
  · rintro ⟨hkeys, hvalues⟩
    exact .object hkeys hvalues

/-! ### An equivalence -/

theorem Same.symm (h : Same a b) : Same b a := by
  induction h with
  | null => exact .null
  | bool x => exact .bool x
  | number ha hb => exact .number hb ha
  | text t => exact .text t
  | array hlength _ ih => exact .array hlength.symm fun i v w hv hw => ih i w v hw hv
  | object hkeys _ ih =>
    exact .object (fun key => (hkeys key).symm) fun key v w hv hw => ih key w v hw hv

theorem Same.trans {c : Json} (hab : Same a b) (hbc : Same b c) : Same a c := by
  induction hab generalizing c with
  | null | bool | text => exact hbc
  | number ha hb =>
    obtain ⟨q, hb', hc⟩ := (same_number_iff (kind_of_amount? hb)).1 hbc
    obtain rfl := Option.some.inj (hb.symm.trans hb')
    exact .number ha hc
  | @array xs ys hlength _ ih =>
    cases c with
    | array zs =>
      obtain ⟨hlength', hitems'⟩ := same_array_iff.1 hbc
      refine .array (hlength.trans hlength') fun i v u hv hu => ?_
      obtain ⟨hi, -⟩ := List.getElem?_eq_some_iff.1 hv
      have hw : ys[i]? = some ys[i] := List.getElem?_eq_getElem (hlength ▸ hi)
      exact ih i v _ hv hw (hitems' i _ u hw hu)
    | _ => cases hbc.kind_eq
  | @object ms ns hkeys _ ih =>
    cases c with
    | object ls =>
      obtain ⟨hkeys', hvalues'⟩ := same_object_iff.1 hbc
      refine .object (fun key => (hkeys key).trans (hkeys' key)) fun key v u hv hu => ?_
      obtain ⟨w, hw⟩ : ∃ w, find? key ns = some w := by
        rw [← Option.isSome_iff_exists, ← hkeys, hv]
        rfl
      exact ih key v w hv hw (hvalues' key w u hw hu)
    | _ => cases hbc.kind_eq

/-! ### Scalars -/

/-- **Scalars are compared by their values.** -/
theorem sameScalar_iff (ha : a.isScalar = true) : sameScalar a b = true ↔ Same a b := by
  cases a with
  | null | bool | text =>
    rw [same_iff_eq rfl (by simp [kind])]
    cases b <;> simp [sameScalar]
  | int i =>
    rw [same_number_iff rfl]
    cases b with
    | int j => simpa [sameScalar, amount?] using eq_comm
    | _ => simp [sameScalar, amount?, Binary64.equalsInt_iff]
  | float x =>
    rw [same_number_iff rfl]
    cases b <;> simp [sameScalar, amount?, Binary64.equalsInt_iff, Binary64.sameValue_iff]
  | array xs => simp [isScalar] at ha
  | object ms => simp [isScalar] at ha

theorem differences_of_isScalar (ha : a.isScalar = true) :
    differences path a b =
      if a.kind = b.kind then if sameScalar a b then [] else [⟨path, .changed, a, b⟩]
      else [typeChange path a b] := by
  cases a <;> first | rfl | simp [isScalar] at ha

/-- No difference is found between a scalar and what is the same. -/
theorem differences_scalar_eq_nil_iff (ha : a.isScalar = true) :
    differences path a b = [] ↔ Same a b := by
  rw [differences_of_isScalar ha]
  split
  · rw [← sameScalar_iff ha]
    split <;> simp [*]
  · rename_i hkind
    exact iff_of_false (List.cons_ne_nil _ _) fun h => hkind h.kind_eq

/-! ### Items and members -/

theorem lengthChange_eq_nil_iff {m n : Nat} : lengthChange path m n = [] ↔ m = n := by
  unfold lengthChange
  split <;> simp [*]

theorem addedItems_eq_nil_iff : addedItems path index ys = [] ↔ ys = [] := by
  cases ys <;> simp [addedItems]

/-- No item differs exactly when the arrays are as long and their items do not differ one by one. -/
theorem itemDifferences_eq_nil_iff :
    itemDifferences path index xs ys = [] ↔
      xs.length = ys.length ∧ ∀ (i : Nat) v w, xs[i]? = some v → ys[i]? = some w →
        differences (Path.item path (index + i)) v w = [] := by
  induction xs generalizing index ys with
  | nil =>
    rw [itemDifferences, addedItems_eq_nil_iff, List.length_nil, eq_comm (a := 0),
      List.length_eq_zero_iff]
    simp
  | cons x xs ih =>
    cases ys with
    | nil => simp [itemDifferences]
    | cons y ys =>
      rw [itemDifferences, List.append_eq_nil_iff, ih, List.length_cons, List.length_cons,
        Nat.add_right_cancel_iff]
      constructor
      · rintro ⟨hxy, hlength, hitems⟩
        refine ⟨hlength, fun i v w hv hw => ?_⟩
        cases i with
        | zero =>
          obtain rfl : x = v := by simpa using hv
          obtain rfl : y = w := by simpa using hw
          exact hxy
        | succ i =>
          have h := hitems i v w (by simpa using hv) (by simpa using hw)
          rwa [Nat.add_assoc, Nat.add_comm 1 i] at h
      · rintro ⟨hlength, hitems⟩
        refine ⟨hitems 0 x y rfl rfl, hlength, fun i v w hv hw => ?_⟩
        rw [Nat.add_assoc, Nat.add_comm 1 i]
        exact hitems (i + 1) v w (by simpa using hv) (by simpa using hw)

/-- No member of the old object differs exactly when each has a counterpart and does not differ
from it. -/
theorem memberDifferences_eq_nil_iff :
    memberDifferences path ms ns = [] ↔
      ∀ m ∈ ms, ∃ w, find? m.1 ns = some w ∧
        differences (Path.member path m.1) m.2 w = [] := by
  induction ms with
  | nil => simp [memberDifferences]
  | cons m ms ih =>
    obtain ⟨k, v⟩ := m
    rw [memberDifferences, List.append_eq_nil_iff, ih, List.forall_mem_cons]
    refine and_congr_left fun _ => ?_
    cases find? k ns <;> simp

theorem addedMembers_eq_nil_iff :
    addedMembers path ms ns = [] ↔ ∀ m ∈ ns, (find? m.1 ms).isSome = true := by
  simp [addedMembers, Option.isSome_iff_ne_none]

/-! ### Documents -/

/-- Two arrays, comparisons of the old items being exact. -/
theorem differences_array_eq_nil_iff
    (hitems : ∀ v ∈ xs, ∀ path w, differences path v w = [] ↔ Same v w) :
    differences path (.array xs) (.array ys) = [] ↔ Same (.array xs) (.array ys) := by
  rw [differences, List.append_eq_nil_iff, itemDifferences_eq_nil_iff, lengthChange_eq_nil_iff,
    same_array_iff, and_iff_right_of_imp And.left]
  refine and_congr_right fun _ => ?_
  constructor
  · intro h i v w hv hw
    exact (hitems v (List.mem_of_getElem? hv) _ w).1 (h i v w hv hw)
  · intro h i v w hv hw
    exact (hitems v (List.mem_of_getElem? hv) _ w).2 (h i v w hv hw)

/-- Two objects, comparisons of the old values being exact. -/
theorem differences_object_eq_nil_iff (hkeys : (ms.map Prod.fst).Nodup)
    (hvalues : ∀ m ∈ ms, ∀ path w, differences path m.2 w = [] ↔ Same m.2 w) :
    differences path (.object ms) (.object ns) = [] ↔ Same (.object ms) (.object ns) := by
  rw [differences, List.append_eq_nil_iff, memberDifferences_eq_nil_iff, addedMembers_eq_nil_iff,
    same_object_iff]
  constructor
  · rintro ⟨hms, hns⟩
    refine ⟨fun key => Bool.eq_iff_iff.2 ⟨fun h => ?_, fun h => ?_⟩, fun key v w hv hw => ?_⟩
    · obtain ⟨v, hv⟩ := Option.isSome_iff_exists.1 h
      obtain ⟨w, hw, -⟩ := hms _ (mem_of_find? hv)
      exact Option.isSome_iff_exists.2 ⟨w, hw⟩
    · obtain ⟨w, hw⟩ := Option.isSome_iff_exists.1 h
      exact hns _ (mem_of_find? hw)
    · obtain ⟨w', hw', hdiff⟩ := hms _ (mem_of_find? hv)
      obtain rfl : w' = w := Option.some.inj (hw'.symm.trans hw)
      exact (hvalues _ (mem_of_find? hv) _ w').1 hdiff
  · rintro ⟨hsome, hsame⟩
    refine ⟨fun m hm => ?_, fun m hm => ?_⟩
    · have hv : find? m.1 ms = some m.2 := find?_of_mem hkeys hm
      obtain ⟨w, hw⟩ : ∃ w, find? m.1 ns = some w := by
        rw [← Option.isSome_iff_exists, ← hsome, hv]
        rfl
      exact ⟨w, hw, (hvalues m hm _ w).2 (hsame m.1 m.2 w hv hw)⟩
    · rw [hsome]
      exact isSome_find?_iff.2 (List.mem_map_of_mem hm)

/-- **A comparison finds no difference exactly when the documents are the same**, at whatever path
it starts. -/
theorem differences_eq_nil_iff (path : WideText) {old new : Json} (hold : old.WellFormed) :
    differences path old new = [] ↔ Same old new := by
  induction hold generalizing path new with
  | null => exact differences_scalar_eq_nil_iff rfl
  | bool b => exact differences_scalar_eq_nil_iff rfl
  | int i => exact differences_scalar_eq_nil_iff rfl
  | float x => exact differences_scalar_eq_nil_iff rfl
  | text t => exact differences_scalar_eq_nil_iff rfl
  | array _ ih =>
    cases new with
    | array ys => exact differences_array_eq_nil_iff fun v hv path w => ih v hv path
    | _ => exact iff_of_false (List.cons_ne_nil _ _) fun h => nomatch h.kind_eq
  | object hkeys _ ih =>
    cases new with
    | object ns => exact differences_object_eq_nil_iff hkeys fun m hm path w => ih m hm path
    | _ => exact iff_of_false (List.cons_ne_nil _ _) fun h => nomatch h.kind_eq

/-- Members in another order, and a one with and without a fraction. -/
theorem differences_eq_nil_iff_reordered :
    let old : Json := .object [("n".toList, .array [.int 1, .bool true]),
      ("far".toList, .float (.infinite true))]
    let new : Json := .object [("far".toList, .float (.infinite true)),
      ("n".toList, .array [.float (.finite false 0x10000000000000 (-52)), .bool true])]
    old.WellFormed ∧ (differences "at".toList old new = [] ↔ Same old new) ∧ Same old new := by
  intro old new
  have hold : old.WellFormed := by
    refine .object (by decide) (List.forall_mem_cons.2 ⟨.array ?_, ?_⟩)
    · exact List.forall_mem_cons.2 ⟨.int 1, by simpa using WellFormed.bool true⟩
    · simpa using WellFormed.float (.infinite true)
  have h : differences "at".toList old new = [] ↔ Same old new :=
    differences_eq_nil_iff "at".toList hold
  exact ⟨hold, h, h.1 rfl⟩

end Json
end Galley
