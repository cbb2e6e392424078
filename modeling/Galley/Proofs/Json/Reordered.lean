/-
# The order of members

Members of objects may stand in any order.  A document is reordered by permuting the members of
objects in it, at any depths and as often as one likes (`Reordered`).  A comparison of reordered
documents reports the same changes in some order (`differences_reordered`), up to the order of
members in what it reports.

Behind every step a reordered document has the same value, reordered (`Reordered.rel_get?`); so the
two comparisons take the same steps, and what they report behind each is matched by induction.
-/

import Galley.Proofs.Json.Walk
import Mathlib.Data.Multiset.Bind

namespace Galley
namespace Json

variable {path key : WideText} {s : Step} {u v w old old' new new' : Json}
variable {ms ns : List (WideText × Json)} {old? old?' new? new?' : Option Json}

/-- Whether a document becomes another by permuting the members of objects in it, at any depths. -/
inductive Reordered : Json → Json → Prop where
  | refl (v : Json) : Reordered v v
  | members {ms ns : List (WideText × Json)} (h : ms.Perm ns) : Reordered (.object ms) (.object ns)
  | inItem {v w : Json} (before after : List Json) (h : Reordered v w) :
      Reordered (.array (before ++ v :: after)) (.array (before ++ w :: after))
  | inMember {v w : Json} (before after : List (WideText × Json)) (key : WideText)
      (h : Reordered v w) :
      Reordered (.object (before ++ (key, v) :: after)) (.object (before ++ (key, w) :: after))
  | trans {u v w : Json} (huv : Reordered u v) (hvw : Reordered v w) : Reordered u w

/-- Whether two changes differ in the order of members in their values only. -/
structure Change.Reordered (c d : Change) : Prop where
  path : c.path = d.path
  kind : c.kind = d.kind
  old : Json.Reordered c.old d.old
  new : Json.Reordered c.new d.new

theorem Change.Reordered.refl (c : Change) : c.Reordered c := ⟨rfl, rfl, .refl _, .refl _⟩

/-! ### Reordered values -/

/-- A reordered document is the document itself, or they are arrays of one length or objects. -/
theorem Reordered.cases_eq (h : Reordered v w) :
    v = w ∨ (∃ xs ys, v = .array xs ∧ w = .array ys ∧ xs.length = ys.length) ∨
      ∃ ms ns, v = .object ms ∧ w = .object ns := by
  induction h with
  | refl v => exact Or.inl rfl
  | members h => exact Or.inr (Or.inr ⟨_, _, rfl, rfl⟩)
  | inItem => exact Or.inr (Or.inl ⟨_, _, rfl, rfl, by simp⟩)
  | inMember => exact Or.inr (Or.inr ⟨_, _, rfl, rfl⟩)
  | trans _ _ ih ih' =>
    rcases ih with rfl | ⟨xs, ys, rfl, rfl, hlength⟩ | ⟨ms, ns, rfl, rfl⟩
    · exact ih'
    · rcases ih' with rfl | ⟨ys', zs, heq, rfl, hlength'⟩ | ⟨_, _, heq, -⟩
      · exact Or.inr (Or.inl ⟨xs, ys, rfl, rfl, hlength⟩)
      · obtain rfl := Json.array.inj heq
        exact Or.inr (Or.inl ⟨xs, zs, rfl, rfl, hlength.trans hlength'⟩)
      · cases heq
    · rcases ih' with rfl | ⟨_, _, heq, -⟩ | ⟨_, ls, -, rfl⟩
      · exact Or.inr (Or.inr ⟨ms, ns, rfl, rfl⟩)
      · cases heq
      · exact Or.inr (Or.inr ⟨ms, ls, rfl, rfl⟩)

theorem Reordered.kind_eq (h : Reordered v w) : v.kind = w.kind := by
  rcases h.cases_eq with rfl | ⟨_, _, rfl, rfl, -⟩ | ⟨_, _, rfl, rfl⟩ <;> rfl

theorem Reordered.eq_of_isScalar (h : Reordered v w) (hv : v.isScalar = true) : v = w := by
  rcases h.cases_eq with rfl | ⟨_, _, rfl, -⟩ | ⟨_, _, rfl, -⟩
  · rfl
  · cases hv
  · cases hv

theorem Reordered.exists_of_array {xs : List Json} (h : Reordered (.array xs) w) :
    ∃ ys, w = .array ys ∧ xs.length = ys.length := by
  rcases h.cases_eq with rfl | ⟨xs', ys, heq, rfl, hlength⟩ | ⟨_, _, heq, -⟩
  · exact ⟨xs, rfl, rfl⟩
  · obtain rfl := Json.array.inj heq
    exact ⟨ys, rfl, hlength⟩
  · cases heq

theorem Reordered.exists_of_object (h : Reordered (.object ms) w) : ∃ ns, w = .object ns := by
  rcases h.cases_eq with rfl | ⟨_, _, heq, -⟩ | ⟨_, ns, -, rfl⟩
  · exact ⟨ms, rfl⟩
  · cases heq
  · exact ⟨ns, rfl⟩

/-- Reordering keeps a document well-formed. -/
theorem Reordered.wellFormed (h : Reordered v w) (hv : v.WellFormed) : w.WellFormed := by
  induction h with
  | refl v => exact hv
  | members h =>
    cases hv with
    | object hkeys hvalues =>
      exact .object ((h.map Prod.fst).nodup hkeys) fun m hm => hvalues m (h.symm.subset hm)
  | @inItem v w before after _ ih =>
    cases hv with
    | array hitems =>
      rw [List.forall_mem_append, List.forall_mem_cons] at hitems
      obtain ⟨hbefore, hv, hafter⟩ := hitems
      exact .array (List.forall_mem_append.2 ⟨hbefore, List.forall_mem_cons.2 ⟨ih hv, hafter⟩⟩)
  | @inMember v w before after key _ ih =>
    cases hv with
    | object hkeys hvalues =>
      rw [List.forall_mem_append, List.forall_mem_cons] at hvalues
      obtain ⟨hbefore, hv, hafter⟩ := hvalues
      refine .object ?_ (List.forall_mem_append.2 ⟨hbefore, List.forall_mem_cons.2 ⟨ih hv, hafter⟩⟩)
      simpa using hkeys
  | trans _ _ ih ih' => exact ih' (ih hv)

/-! ### Behind the steps -/

/-- The order of members does not matter to what is found under a key. -/
theorem find?_perm (h : ms.Perm ns) (hkeys : (ms.map Prod.fst).Nodup) (key : WideText) :
    find? key ms = find? key ns := by
  refine Option.ext fun v => ?_
  constructor
  · intro hv
    exact find?_of_mem ((h.map Prod.fst).nodup hkeys) (h.subset (mem_of_find? hv))
  · intro hv
    exact find?_of_mem hkeys (h.symm.subset (mem_of_find? hv))

/-- Replacing an item changes what stands at its index and nothing else. -/
theorem getElem?_replaced (before after : List Json) (index : Nat) (v w : Json) :
    (before ++ v :: after)[index]? = (before ++ w :: after)[index]? ∨
      (before ++ v :: after)[index]? = some v ∧ (before ++ w :: after)[index]? = some w := by
  induction before generalizing index with
  | nil =>
    cases index with
    | zero => exact Or.inr ⟨rfl, rfl⟩
    | succ index => exact Or.inl rfl
  | cons x before ih =>
    cases index with
    | zero => exact Or.inl rfl
    | succ index => exact ih index

/-- Replacing the value of a member changes what stands under its key and nothing else. -/
theorem find?_replaced (before after : List (WideText × Json)) (k key : WideText) (v w : Json) :
    find? key (before ++ (k, v) :: after) = find? key (before ++ (k, w) :: after) ∨
      find? key (before ++ (k, v) :: after) = some v ∧
        find? key (before ++ (k, w) :: after) = some w := by
  induction before with
  | nil =>
    by_cases hkey : k = key
    · exact Or.inr ⟨if_pos hkey, if_pos hkey⟩
    · exact Or.inl (by simp [find?, hkey])
  | cons m before ih =>
    obtain ⟨k', v'⟩ := m
    by_cases hkey : k' = key
    · exact Or.inl (by simp [find?, hkey])
    · simpa [find?, hkey] using ih

theorem rel_refl (v? : Option Json) : Option.Rel Reordered v? v? := by
  cases v? with
  | none => exact .none
  | some v => exact .some (.refl v)

/-- **Behind every step stands the same value, reordered.** -/
theorem Reordered.rel_get? (h : Reordered v w) (hv : v.WellFormed) (s : Step) :
    Option.Rel Reordered (s.get? v) (s.get? w) := by
  induction h with
  | refl v => exact rel_refl _
  | @members ms ns h =>
    cases hv with
    | object hkeys hvalues =>
      cases s with
      | item index => exact .none
      | member key =>
        rw [Step.get?, Step.get?, find?_perm h hkeys]
        exact rel_refl _
  | @inItem v w before after h _ =>
    cases s with
    | member key => exact .none
    | item index =>
      rw [Step.get?, Step.get?]
      rcases getElem?_replaced before after index v w with heq | ⟨hv, hw⟩
      · rw [heq]
        exact rel_refl _
      · rw [hv, hw]
        exact .some h
  | @inMember v w before after k h _ =>
    cases s with
    | item index => exact .none
    | member key =>
      rw [Step.get?, Step.get?]
      rcases find?_replaced before after k key v w with heq | ⟨hv, hw⟩
      · rw [heq]
        exact rel_refl _
      · rw [hv, hw]
        exact .some h
  | @trans u v w huv _ ih ih' =>
    have h := ih hv
    have h' := ih' (huv.wellFormed hv)
    revert h h'
    generalize s.get? u = u?, s.get? v = v?, s.get? w = w?
    intro h h'
    cases h with
    | none => exact h'
    | some h =>
      cases h' with
      | some h' => exact .some (h.trans h')

/-! ### Comparisons of reordered documents -/

/-- Of reordered values themselves the same is reported. -/
theorem ownChanges_reordered (path : WideText) (hold : Reordered old old')
    (hnew : Reordered new new') :
    ownChanges path old new = ownChanges path old' new' := by
  rcases kind_cases old new with hkind | ⟨-, hscalar, hscalar'⟩ | ⟨xs, ys, rfl, rfl⟩ |
    ⟨ms, ns, rfl, rfl⟩
  · have hkind' : old'.kind ≠ new'.kind := hold.kind_eq ▸ hnew.kind_eq ▸ hkind
    rw [ownChanges_of_kind_ne hkind, ownChanges_of_kind_ne hkind', typeChange, typeChange,
      hold.kind_eq, hnew.kind_eq]
  · rw [hold.eq_of_isScalar hscalar, hnew.eq_of_isScalar hscalar']
  · obtain ⟨xs', rfl, hxs⟩ := hold.exists_of_array
    obtain ⟨ys', rfl, hys⟩ := hnew.exists_of_array
    rw [ownChanges, ownChanges, hxs, hys]
  · obtain ⟨ms', rfl⟩ := hold.exists_of_object
    obtain ⟨ns', rfl⟩ := hnew.exists_of_object
    rfl

/-- The same steps are taken from reordered values, in some order. -/
theorem branches_reordered (hold : Reordered old old') (hnew : Reordered new new')
    (hwf : old.WellFormed) (hwf' : new.WellFormed) :
    (branches old new).Perm (branches old' new') := by
  refine (List.perm_ext_iff_of_nodup (nodup_branches hwf hwf')
    (nodup_branches (hold.wellFormed hwf) (hnew.wellFormed hwf'))).2 fun s => ?_
  rw [mem_branches, mem_branches, hold.kind_eq, hnew.kind_eq,
    isSome_eq_of_rel (hold.rel_get? hwf s), isSome_eq_of_rel (hnew.rel_get? hwf' s)]

/-- **What is reported at a place is reordered**: the same changes stand there in some order. -/
theorem rel_changesAt (path : WideText) (hwf : ∀ v ∈ old?, v.WellFormed)
    (hwf' : ∀ v ∈ new?, v.WellFormed) (hold : Option.Rel Reordered old? old?')
    (hnew : Option.Rel Reordered new? new?') :
    Multiset.Rel Change.Reordered (changesAt path old? new?) (changesAt path old?' new?') := by
  induction old?, hwf using WellFormed.step_induction generalizing path old?' new? new?' with
  | absent =>
    cases hold
    cases hnew with
    | none => exact .zero
    | some hnew => exact .cons ⟨rfl, rfl, .refl _, hnew⟩ .zero
  | present old hwf ih =>
    cases hold with
    | some hold =>
      cases hnew with
      | none => exact .cons ⟨rfl, rfl, hold, .refl _⟩ .zero
      | @some new new' hnew =>
        have hwf' : new.WellFormed := hwf' new rfl
        rw [changesAt, changesAt, differences_eq path hwf hwf',
          differences_eq path (hold.wellFormed hwf) (hnew.wellFormed hwf'),
          ownChanges_reordered path hold hnew, ← Multiset.coe_add, ← Multiset.coe_add,
          ← Multiset.coe_bind, ← Multiset.coe_bind]
        refine Multiset.Rel.add (Multiset.rel_refl_of_refl_on fun c _ => .refl c) ?_
        have hbranches := Multiset.coe_eq_coe.2 (branches_reordered hold hnew hwf hwf')
        refine Multiset.rel_bind ?_ (Multiset.rel_eq.2 hbranches)
        rintro s _ rfl
        exact ih s (s.extend path) (fun _ => hwf'.get?) (hold.rel_get? hwf s) (hnew.rel_get? hwf' s)

/-- Lists in a relation as multisets are so item by item, after a permutation. -/
theorem exists_perm_of_rel {r : Change → Change → Prop} {l m : List Change}
    (h : Multiset.Rel r (l : Multiset Change) m) :
    ∃ m' : List Change, m'.Perm m ∧ List.Forall₂ r l m' := by
  induction l generalizing m with
  | nil =>
    obtain rfl : m = [] := by simpa using h
    exact ⟨[], .nil, .nil⟩
  | cons c l ih =>
    rw [← Multiset.cons_coe, Multiset.rel_cons_left] at h
    obtain ⟨d, rest, hcd, hrest, heq⟩ := h
    obtain ⟨rest, rfl⟩ := Quot.exists_rep rest
    obtain ⟨m', hperm, hforall⟩ := ih hrest
    have hm : m.Perm (d :: rest) := Multiset.coe_eq_coe.1 heq
    exact ⟨d :: m', (hperm.cons d).trans hm.symm, .cons hcd hforall⟩

/-- **The order of members is irrelevant**: reordering the documents only permutes the changes, up
to the order of members in what they report. -/
theorem differences_reordered (path : WideText) (hwf : old.WellFormed) (hwf' : new.WellFormed)
    (hold : Reordered old old') (hnew : Reordered new new') :
    ∃ changes : List Change, changes.Perm (differences path old' new') ∧
      List.Forall₂ Change.Reordered (differences path old new) changes := by
  have hwfs : ∀ v ∈ some old, v.WellFormed := by simpa using hwf
  have hwfs' : ∀ v ∈ some new, v.WellFormed := by simpa using hwf'
  exact exists_perm_of_rel (rel_changesAt path hwfs hwfs' (.some hold) (.some hnew))

/-- Members exchanged at two depths, and inside an array. -/
theorem differences_reordered_nested :
    let p : WideText × Json := ("p".toList, .int 1)
    let q : WideText × Json := ("q".toList, .int 2)
    let old : Json := .object [("a".toList, .object [p, q]), ("b".toList, .null)]
    let old' : Json := .object [("b".toList, .null), ("a".toList, .object [q, p])]
    let new : Json := .object [("b".toList, .array []), ("c".toList, .array [.object [p, q]])]
    let new' : Json := .object [("b".toList, .array []), ("c".toList, .array [.object [q, p]])]
    old.WellFormed ∧ new.WellFormed ∧ Reordered old old' ∧ Reordered new new' ∧
      (differences [] old new).map (String.ofList ·.path.printed) = ["a", "b", "c"] ∧
      (differences [] old' new').map (String.ofList ·.path.printed) = ["b", "a", "c"] ∧
      ∃ changes : List Change, changes.Perm (differences [] old' new') ∧
        List.Forall₂ Change.Reordered (differences [] old new) changes := by
  intro p q old old' new new'
  have hpq : (Json.object [p, q]).WellFormed :=
    .object (by decide) (List.forall_mem_cons.2 ⟨.int 1, List.forall_mem_singleton.2 (.int 2)⟩)
  have hswap : Reordered (.object [p, q]) (.object [q, p]) := .members (List.Perm.swap ..)
  have hwf : old.WellFormed :=
    .object (by decide) (List.forall_mem_cons.2 ⟨hpq, List.forall_mem_singleton.2 .null⟩)
  have hwf' : new.WellFormed := by
    refine .object (by decide) (List.forall_mem_cons.2 ⟨.array (by simp), ?_⟩)
    exact List.forall_mem_singleton.2 (.array (List.forall_mem_singleton.2 hpq))
  have hold : Reordered old old' :=
    .trans (.inMember [] [("b".toList, .null)] "a".toList hswap) (.members (List.Perm.swap ..))
  have hnew : Reordered new new' :=
    .inMember [("b".toList, .array [])] [] "c".toList (.inItem [] [] hswap)
  exact ⟨hwf, hwf', hold, hnew, by decide, by decide, differences_reordered [] hwf hwf' hold hnew⟩

end Json
end Galley
