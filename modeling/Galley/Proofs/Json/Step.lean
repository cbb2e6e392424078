/-
# Steps into a document

A step goes from a value to one of its items or members (`Step.get?`).  Steps treat arrays and
objects alike.  What is behind the steps of a value is what decides about it: a property of all
well-formed documents is proved by induction on steps (`WellFormed.step_induction`), and two arrays
or objects are the same if they are so behind every step (`same_of_get?`).
-/

import Galley.Proofs.Json.Same

namespace Galley
namespace Json

/-- A step from a value to one of its members or items. -/
inductive Step where
  | member (key : WideText)
  | item (index : Nat)
  deriving DecidableEq, Repr

namespace Step

/-- The value behind a step, if the step can be taken. -/
def get? : Step → Json → Option Json
  | .member key, .object ms => find? key ms
  | .item index, .array xs => xs[index]?
  | _, _ => none

/-- The path that leads one step further. -/
def extend (path : WideText) : Step → WideText
  | .member key => Path.member path key
  | .item index => Path.item path index

end Step

variable {path : WideText} {s : Step} {v w old new : Json}
variable {xs ys : List Json} {ms ns : List (WideText × Json)}

/-! ### Values behind steps -/

/-- Two values are of different types, scalars of one type, arrays or objects. -/
theorem kind_cases (v w : Json) :
    v.kind ≠ w.kind ∨ (v.kind = w.kind ∧ v.isScalar = true ∧ w.isScalar = true) ∨
      (∃ xs ys, v = .array xs ∧ w = .array ys) ∨ ∃ ms ns, v = .object ms ∧ w = .object ns := by
  by_cases hkind : v.kind = w.kind
  · refine Or.inr ?_
    cases v with
    | array xs =>
      cases w with
      | array ys => exact Or.inr (Or.inl ⟨xs, ys, rfl, rfl⟩)
      | _ => cases hkind
    | object ms =>
      cases w with
      | object ns => exact Or.inr (Or.inr ⟨ms, ns, rfl, rfl⟩)
      | _ => cases hkind
    | _ => cases w <;> first | exact Or.inl ⟨hkind, rfl, rfl⟩ | cases hkind
  · exact Or.inl hkind

/-- Values of one type are scalars together. -/
theorem isScalar_eq_of_kind_eq (h : v.kind = w.kind) : v.isScalar = w.isScalar := by
  rcases kind_cases v w with hne | ⟨-, hv, hw⟩ | ⟨_, _, rfl, rfl⟩ | ⟨_, _, rfl, rfl⟩
  · exact absurd h hne
  · rw [hv, hw]
  · rfl
  · rfl

theorem get?_of_isScalar (hv : v.isScalar = true) : s.get? v = none := by
  cases v <;> first | (cases s <;> rfl) | simp [isScalar] at hv

/-- What is behind a step is an item or the value of a member. -/
theorem mem_of_get? (h : s.get? v = some w) :
    (∃ xs, v = .array xs ∧ w ∈ xs) ∨ ∃ ms key, v = .object ms ∧ (key, w) ∈ ms := by
  cases s with
  | member key =>
    cases v with
    | object ms => exact Or.inr ⟨ms, key, rfl, mem_of_find? h⟩
    | _ => simp [Step.get?] at h
  | item index =>
    cases v with
    | array xs => exact Or.inl ⟨xs, rfl, List.mem_of_getElem? h⟩
    | _ => simp [Step.get?] at h

/-- A step can be taken from an array below its length. -/
theorem isSome_get?_array :
    (s.get? (.array xs)).isSome = true ↔ ∃ i < xs.length, .item i = s := by
  cases s with
  | member key => simp [Step.get?]
  | item i => simp [Step.get?]

/-- A step can be taken from an object to its keys. -/
theorem isSome_get?_object :
    (s.get? (.object ms)).isSome = true ↔ ∃ key ∈ ms.map Prod.fst, .member key = s := by
  cases s with
  | member key =>
    rw [Step.get?, isSome_find?_iff]
    simp
  | item i => simp [Step.get?]

/-- A value behind a step of a well-formed document is well-formed. -/
theorem WellFormed.get? (hv : v.WellFormed) (h : s.get? v = some w) : w.WellFormed := by
  rcases mem_of_get? h with ⟨xs, rfl, hw⟩ | ⟨ms, key, rfl, hw⟩
  · cases hv with
    | array hitems => exact hitems w hw
  · cases hv with
    | object _ hvalues => exact hvalues (key, w) hw

/-- A property that a well-formed document has if all values behind its steps have it belongs to
every well-formed document. -/
theorem WellFormed.get?_induction {P : Json → Prop}
    (h : ∀ v : Json, v.WellFormed → (∀ (s : Step) w, s.get? v = some w → P w) → P v)
    (hv : v.WellFormed) : P v := by
  have hscalar : ∀ v : Json, v.WellFormed → v.isScalar = true → P v := by
    intro v hv hs
    refine h v hv fun s w hw => ?_
    rw [get?_of_isScalar hs] at hw
    cases hw
  induction hv with
  | null => exact hscalar _ .null rfl
  | bool b => exact hscalar _ (.bool b) rfl
  | int i => exact hscalar _ (.int i) rfl
  | float x => exact hscalar _ (.float x) rfl
  | text t => exact hscalar _ (.text t) rfl
  | array hitems ih =>
    refine h _ (.array hitems) fun s w hw => ?_
    rcases mem_of_get? hw with ⟨_, heq, hmem⟩ | ⟨_, _, heq, -⟩
    · cases heq
      exact ih w hmem
    · cases heq
  | object hkeys hvalues ih =>
    refine h _ (.object hkeys hvalues) fun s w hw => ?_
    rcases mem_of_get? hw with ⟨_, heq, -⟩ | ⟨_, key, heq, hmem⟩
    · cases heq
    · cases heq
      exact ih (key, w) hmem

/-- **Induction on steps**, also where a step leads nowhere: what holds where there is nothing, and
of a well-formed document whenever it holds behind each of its steps, holds everywhere. -/
theorem WellFormed.step_induction
    {motive : ∀ v? : Option Json, (∀ v ∈ v?, v.WellFormed) → Prop}
    (absent : motive none (by simp))
    (present : ∀ (v : Json) (hv : v.WellFormed),
      (∀ s : Step, motive (s.get? v) fun _ => hv.get?) → motive (some v) (by simpa using hv))
    (v? : Option Json) (hv? : ∀ v ∈ v?, v.WellFormed) : motive v? hv? := by
  have behind : ∀ (w? : Option Json) (hw? : ∀ w ∈ w?, w.WellFormed),
      (∀ w, w? = some w → ∀ hw, motive (some w) hw) → motive w? hw? := by
    rintro (_ | w) hw? h
    · exact absent
    · exact h w rfl hw?
  refine behind v? hv? fun v hv => ?_
  refine (hv? v hv).get?_induction (P := fun v => ∀ hv, motive (some v) hv) fun v hv ih _ => ?_
  exact present v hv fun s => behind _ _ (ih s)

/-- Whether a property holds of a value and of all values in it, at every depth. -/
inductive Everywhere (P : Json → Prop) : Json → Prop where
  | scalar {v : Json} (hv : v.isScalar = true) (h : P v) : Everywhere P v
  | array {items : List Json} (h : P (.array items)) (hitems : ∀ v ∈ items, Everywhere P v) :
      Everywhere P (.array items)
  | object {members : List (WideText × Json)} (h : P (.object members))
      (hvalues : ∀ m ∈ members, Everywhere P m.2) : Everywhere P (.object members)

section Everywhere

variable {P : Json → Prop}

theorem Everywhere.self (hv : Everywhere P v) : P v := by
  cases hv <;> assumption

theorem Everywhere.get? (hv : Everywhere P v) (h : s.get? v = some w) : Everywhere P w := by
  cases hv with
  | scalar hs =>
    rw [get?_of_isScalar hs] at h
    cases h
  | array _ hitems =>
    rcases mem_of_get? h with ⟨_, heq, hw⟩ | ⟨_, _, heq, -⟩
    · cases heq
      exact hitems w hw
    · cases heq
  | object _ hvalues =>
    rcases mem_of_get? h with ⟨_, heq, -⟩ | ⟨_, key, heq, hw⟩
    · cases heq
    · cases heq
      exact hvalues (key, w) hw

end Everywhere

theorem isSome_eq_of_rel {r : Json → Json → Prop} {v? w? : Option Json} (h : Option.Rel r v? w?) :
    v?.isSome = w?.isSome := by
  cases h <;> rfl

/-- **Values of one type are the same if they are so behind every step**, and no scalars. -/
theorem same_of_get? (hkind : v.kind = w.kind) (hv : v.isScalar = false)
    (h : ∀ s : Step, Option.Rel Same (s.get? v) (s.get? w)) : Same v w := by
  have hsome : ∀ s : Step, (s.get? v).isSome = (s.get? w).isSome := fun s =>
    isSome_eq_of_rel (h s)
  have hsame : ∀ (s : Step) a b, s.get? v = some a → s.get? w = some b → Same a b := by
    intro s a b ha hb
    have hs := h s
    rwa [ha, hb, Option.rel_some_some] at hs
  rcases kind_cases v w with hne | ⟨-, hscalar, -⟩ | ⟨xs, ys, rfl, rfl⟩ | ⟨ms, ns, rfl, rfl⟩
  · exact absurd hkind hne
  · rw [hscalar] at hv
    cases hv
  · have hlt : ∀ i, i < xs.length ↔ i < ys.length := fun i => by
      have hi := hsome (.item i)
      rw [Bool.eq_iff_iff, isSome_get?_array, isSome_get?_array] at hi
      simpa using hi
    have hlength : xs.length = ys.length :=
      Nat.le_antisymm (le_of_forall_lt fun i => (hlt i).1) (le_of_forall_lt fun i => (hlt i).2)
    exact .array hlength fun i => hsame (.item i)
  · exact .object (fun key => hsome (.member key)) fun key => hsame (.member key)

end Json
end Galley
