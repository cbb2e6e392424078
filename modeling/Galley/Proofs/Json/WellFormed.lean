/-
# Well-formed documents

A document is well-formed if the keys of every object in it are distinct.  Then a member is found
under its key (`find?_of_mem`), and an object is what is found in it.

Every document that is read is well-formed (`wellFormed_decode`), also where a text names a key
twice: members are put under their keys, and a second member with a key takes the place of the
first.  The reader's three routines are followed together, by induction on what bounds their depth.
-/

import Galley.Json.Decode
import Mathlib.Data.List.Nodup

namespace Galley
namespace Json

variable {key k : WideText} {value v w : Json} {ms : List (WideText × Json)}

/-- Whether the keys of every object of a document are distinct. -/
inductive WellFormed : Json → Prop where
  | null : WellFormed .null
  | bool (b : Bool) : WellFormed (.bool b)
  | int (i : Int) : WellFormed (.int i)
  | float (x : Binary64) : WellFormed (.float x)
  | text (t : WideText) : WellFormed (.text t)
  | array {items : List Json} (hitems : ∀ v ∈ items, WellFormed v) : WellFormed (.array items)
  | object {members : List (WideText × Json)} (hkeys : (members.map Prod.fst).Nodup)
      (hvalues : ∀ m ∈ members, WellFormed m.2) : WellFormed (.object members)

theorem wellFormed_empty : WellFormed (.object []) := .object List.nodup_nil (by simp)

/-! ### Members under their keys -/

/-- What is found is a member. -/
theorem mem_of_find? (h : find? k ms = some v) : (k, v) ∈ ms := by
  induction ms with
  | nil => simp [find?] at h
  | cons m ms ih =>
    obtain ⟨k', v'⟩ := m
    rw [find?] at h
    split at h
    · rename_i hk
      rw [hk, Option.some.inj h]
      exact List.mem_cons_self ..
    · exact List.mem_cons_of_mem _ (ih h)

/-- Something is found under the keys of the members and under no other. -/
theorem isSome_find?_iff : (find? k ms).isSome = true ↔ k ∈ ms.map Prod.fst := by
  induction ms with
  | nil => simp [find?]
  | cons m ms ih =>
    obtain ⟨k', v'⟩ := m
    rw [find?, List.map_cons, List.mem_cons]
    split
    · rename_i hk
      exact iff_of_true rfl (Or.inl hk.symm)
    · rename_i hk
      rw [ih, or_iff_right (Ne.symm hk)]

/-- **A member is found under its key.** -/
theorem find?_of_mem (hkeys : (ms.map Prod.fst).Nodup) (h : (k, v) ∈ ms) :
    find? k ms = some v := by
  induction ms with
  | nil => simp at h
  | cons m ms ih =>
    obtain ⟨k', v'⟩ := m
    rw [List.map_cons, List.nodup_cons] at hkeys
    rw [find?]
    rcases List.mem_cons.1 h with heq | h
    · obtain ⟨rfl, rfl⟩ := Prod.mk.inj heq
      rw [if_pos rfl]
    · have hmem : k ∈ ms.map Prod.fst := List.mem_map.2 ⟨(k, v), h, rfl⟩
      have hne : k' ≠ k := by
        rintro rfl
        exact hkeys.1 hmem
      rw [if_neg hne, ih hkeys.2 h]

/-! ### Putting a member -/

theorem keys_put (key : WideText) (value : Json) (ms : List (WideText × Json)) :
    (put key value ms).map Prod.fst =
      if key ∈ ms.map Prod.fst then ms.map Prod.fst else ms.map Prod.fst ++ [key] := by
  induction ms with
  | nil => rfl
  | cons m ms ih =>
    obtain ⟨k', v'⟩ := m
    rw [put]
    split
    · rename_i hk
      rw [if_pos (by simp [hk])]
      rfl
    · rename_i hk
      simp only [List.map_cons, ih, List.mem_cons, Ne.symm hk, false_or]
      split <;> rfl

theorem mem_put {m : WideText × Json} (h : m ∈ put key value ms) : m = (key, value) ∨ m ∈ ms := by
  induction ms with
  | nil => exact Or.inl (List.mem_singleton.1 h)
  | cons m' ms ih =>
    obtain ⟨k', v'⟩ := m'
    rw [put] at h
    split at h
    · rename_i hk
      rw [hk] at h
      exact (List.mem_cons.1 h).imp_right (List.mem_cons_of_mem _)
    · rcases List.mem_cons.1 h with rfl | h
      · exact Or.inr (List.mem_cons_self ..)
      · exact (ih h).imp_right (List.mem_cons_of_mem _)

/-- **Putting a member keeps an object well-formed.** -/
theorem WellFormed.put (h : WellFormed (.object ms)) (hv : value.WellFormed) (key : WideText) :
    WellFormed (.object (put key value ms)) := by
  cases h with
  | object hkeys hvalues =>
    refine .object ?_ fun m hm => ?_
    · rw [keys_put]
      split
      · exact hkeys
      · rename_i hnew
        exact List.nodup_append.2 ⟨hkeys, List.nodup_singleton key, by
          rintro k hk _ hkey rfl
          exact hnew (List.mem_singleton.1 hkey ▸ hk)⟩
    · rcases mem_put hm with rfl | hm
      · exact hv
      · exact hvalues m hm

/-! ### Reading -/

section Steps

variable {ε α β : Type} {x : Except ε α} {b : β}

theorem exists_of_map_eq_ok {f : α → β} (h : x.map f = .ok b) : ∃ a, x = .ok a ∧ f a = b := by
  cases x with
  | error e => simp [Except.map] at h
  | ok a => exact ⟨a, rfl, by simpa [Except.map] using h⟩

theorem exists_of_bind_eq_ok {f : α → Except ε β} (h : x >>= f = .ok b) :
    ∃ a, x = .ok a ∧ f a = .ok b := by
  cases x with
  | error e => simp [bind, Except.bind] at h
  | ok a => exact ⟨a, rfl, h⟩

end Steps

/-- What is written as a word has no members. -/
theorem wellFormed_cutWord? {t rest : Text} (h : cutWord? t = some (v, rest)) : v.WellFormed := by
  obtain ⟨word, hword, heq⟩ := Option.map_eq_some_iff.1 h
  obtain rfl : word.2 = v := congrArg Prod.fst heq
  have hmem := List.mem_of_find?_eq_some hword
  simp only [words, List.mem_cons, List.not_mem_nil, or_false] at hmem
  rcases hmem with rfl | rfl | rfl | rfl | rfl | rfl
  · exact .null
  · exact .bool true
  · exact .bool false
  · exact .float .nan
  · exact .float (.infinite false)
  · exact .float (.infinite true)

theorem wellFormed_value {parts : NumberParts} (h : parts.value = .ok v) : v.WellFormed := by
  unfold NumberParts.value at h
  split at h
  · obtain rfl := Except.ok.inj h
    exact .float _
  · split at h
    · simp at h
    · obtain rfl := Except.ok.inj h
      exact .int _

section Routines

variable {fuel : Nat} {t rest : Text} {vs : List Json} {ms' : List (WideText × Json)}

/-- One step of reading a value, the routines for its parts being right. -/
theorem wellFormed_readValue
    (hitems : ∀ t vs rest, readItems fuel t = .ok (vs, rest) → ∀ v ∈ vs, v.WellFormed)
    (hmembers : ∀ ms t ms' rest, WellFormed (.object ms) →
      readMembers fuel ms t = .ok (ms', rest) → WellFormed (.object ms'))
    (h : readValue (fuel + 1) t = .ok (v, rest)) : v.WellFormed := by
  unfold readValue at h
  split at h
  · obtain ⟨p, -, hp⟩ := exists_of_map_eq_ok h
    obtain ⟨rfl, -⟩ := Prod.mk.inj hp
    exact .text _
  · -- an array, empty or with items
    split at h
    · obtain ⟨rfl, -⟩ := Prod.mk.inj (Except.ok.inj h)
      exact .array (by simp)
    · obtain ⟨p, hp, heq⟩ := exists_of_map_eq_ok h
      obtain ⟨rfl, -⟩ := Prod.mk.inj heq
      exact .array (hitems _ _ _ hp)
  · -- an object, empty or with members
    split at h
    · obtain ⟨rfl, -⟩ := Prod.mk.inj (Except.ok.inj h)
      exact wellFormed_empty
    · obtain ⟨p, hp, heq⟩ := exists_of_map_eq_ok h
      obtain ⟨rfl, -⟩ := Prod.mk.inj heq
      exact hmembers _ _ _ _ wellFormed_empty hp
  · -- a word or a number
    split at h
    · rename_i hword
      obtain ⟨rfl, -⟩ := Prod.mk.inj (Except.ok.inj h)
      exact wellFormed_cutWord? hword
    · split at h
      · obtain ⟨v', hv', heq⟩ := exists_of_map_eq_ok h
        obtain ⟨rfl, -⟩ := Prod.mk.inj heq
        exact wellFormed_value hv'
      · simp at h

/-- One step of reading items. -/
theorem wellFormed_readItems
    (hvalue : ∀ t v rest, readValue fuel t = .ok (v, rest) → v.WellFormed)
    (hitems : ∀ t vs rest, readItems fuel t = .ok (vs, rest) → ∀ v ∈ vs, v.WellFormed)
    (h : readItems (fuel + 1) t = .ok (vs, rest)) : ∀ v ∈ vs, v.WellFormed := by
  unfold readItems at h
  obtain ⟨⟨v, rest'⟩, hv, h⟩ := exists_of_bind_eq_ok h
  dsimp only at h
  split at h
  · obtain ⟨rfl, -⟩ := Prod.mk.inj (Except.ok.inj h)
    simpa using hvalue _ _ _ hv
  · obtain ⟨⟨vs', rest''⟩, hvs, h⟩ := exists_of_bind_eq_ok h
    obtain ⟨rfl, -⟩ := Prod.mk.inj (Except.ok.inj h)
    exact List.forall_mem_cons.2 ⟨hvalue _ _ _ hv, hitems _ _ _ hvs⟩
  · simp at h

/-- One step of reading members behind those already read. -/
theorem wellFormed_readMembers
    (hvalue : ∀ t v rest, readValue fuel t = .ok (v, rest) → v.WellFormed)
    (hmembers : ∀ ms t ms' rest, WellFormed (.object ms) →
      readMembers fuel ms t = .ok (ms', rest) → WellFormed (.object ms'))
    (hms : WellFormed (.object ms)) (h : readMembers (fuel + 1) ms t = .ok (ms', rest)) :
    WellFormed (.object ms') := by
  unfold readMembers at h
  split at h
  · obtain ⟨⟨key, rest₁⟩, -, h⟩ := exists_of_bind_eq_ok h
    dsimp only at h
    split at h
    · obtain ⟨⟨v, rest₂⟩, hv, h⟩ := exists_of_bind_eq_ok h
      have hput := hms.put (hvalue _ _ _ hv) key
      dsimp only at h
      split at h
      · obtain ⟨rfl, -⟩ := Prod.mk.inj (Except.ok.inj h)
        exact hput
      · exact hmembers _ _ _ _ hput h
      · simp at h
    · simp at h
  · simp at h

end Routines

/-- **What the routines of the reader return is well-formed.** -/
theorem wellFormed_read (fuel : Nat) :
    (∀ t v rest, readValue fuel t = .ok (v, rest) → v.WellFormed) ∧
      (∀ t vs rest, readItems fuel t = .ok (vs, rest) → ∀ v ∈ vs, v.WellFormed) ∧
      ∀ ms t ms' rest, WellFormed (.object ms) → readMembers fuel ms t = .ok (ms', rest) →
        WellFormed (.object ms') := by
  induction fuel with
  | zero => simp [readValue, readItems, readMembers]
  | succ fuel ih =>
    obtain ⟨hvalue, hitems, hmembers⟩ := ih
    exact ⟨fun _ _ _ h => wellFormed_readValue hitems hmembers h,
      fun _ _ _ h => wellFormed_readItems hvalue hitems h,
      fun _ _ _ _ hms h => wellFormed_readMembers hvalue hmembers hms h⟩

/-- **Every document that is read is well-formed.** -/
theorem wellFormed_decode {t : Text} (h : decode t = .ok v) : v.WellFormed := by
  have hread : readDocument t = .ok v := by
    unfold decode at h
    cases hr : readDocument t with
    | error e => simp [hr, Except.mapError] at h
    | ok w => simpa [hr, Except.mapError] using h
  unfold readDocument at hread
  split at hread
  · simp at hread
  · obtain ⟨⟨v', rest⟩, hv, hread⟩ := exists_of_bind_eq_ok hread
    dsimp only at hread
    split at hread
    · obtain rfl := Except.ok.inj hread
      exact (wellFormed_read _).1 _ _ _ hv
    · simp at hread

end Json
end Galley
