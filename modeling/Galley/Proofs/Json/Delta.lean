/-
# The new document from the changes

The changes from an old document determine the new one.  If the comparisons of one document with
two others report the same, and no value of another type, then the two others are the same
(`same_of_agrees`).  A change of type names the new type only, which is why there may be none.

Reports are the same change by change, where a reported value may be written in another way
(`Change.Agrees`).  The proof compares the two reports step by step.  What one comparison reports
behind a step, the other reports behind the same step, because the paths of all other changes are
different (`Covers.behind`).
-/

import Galley.Proofs.Json.Located

namespace Galley
namespace Json

variable {path : WideText} {c d : Change} {s : Step} {steps : List Step} {v : Json}
variable {old new₁ new₂ : Json} {old? new₁? new₂? : Option Json} {l m : List Change}

/-- Whether no number of a document is undefined. -/
def HasNoNaN (v : Json) : Prop := v.Everywhere (· ≠ .float .nan)

/-- A document without undefined numbers is the same as itself. -/
theorem HasNoNaN.same (hv : v.HasNoNaN) : Same v v := by
  induction hv with
  | @scalar v hs h =>
    cases v with
    | null => exact .null
    | bool b => exact .bool b
    | int i => exact .number rfl rfl
    | float x =>
      cases x with
      | nan => exact absurd rfl h
      | infinite s => exact .number rfl rfl
      | finite s m e => exact .number rfl rfl
    | text t => exact .text t
    | array | object => cases hs
  | array _ _ ih =>
    refine .array rfl fun i v w hv hw => ?_
    obtain rfl : v = w := Option.some.inj (hv.symm.trans hw)
    exact ih v (List.mem_of_getElem? hv)
  | object _ _ ih =>
    refine .object (fun _ => rfl) fun key v w hv hw => ?_
    obtain rfl : v = w := Option.some.inj (hv.symm.trans hw)
    exact ih (key, v) (mem_of_find? hv)

/-! ### The same changes -/

/-- Whether two changes report the same: at one path, of one kind, and with values that are
identical or the same as documents. -/
structure Change.Agrees (c d : Change) : Prop where
  path : c.path = d.path
  kind : c.kind = d.kind
  old : c.old = d.old ∨ Same c.old d.old
  new : c.new = d.new ∨ Same c.new d.new

theorem Change.Agrees.symm (h : c.Agrees d) : d.Agrees c :=
  ⟨h.path.symm, h.kind.symm, h.old.imp Eq.symm Same.symm, h.new.imp Eq.symm Same.symm⟩

/-- Changes that agree report the same new value, if no number of it is undefined. -/
theorem Change.Agrees.same_new (h : c.Agrees d) (hc : c.new.HasNoNaN) : Same c.new d.new := by
  rcases h.new with heq | hsame
  · rw [← heq]
    exact hc.same
  · exact hsame

/-- Whether all that one list of changes reports is reported in another too. -/
def Covers (l m : List Change) : Prop := ∀ c ∈ l, ∃ d ∈ m, c.Agrees d

theorem covers_of_forall₂ (h : List.Forall₂ Change.Agrees l m) : Covers l m := by
  induction h with
  | nil => exact List.forall_mem_nil _
  | cons hcd _ ih =>
    refine List.forall_mem_cons.2 ⟨⟨_, List.mem_cons_self .., hcd⟩, fun c hc => ?_⟩
    obtain ⟨d, hd, h⟩ := ih c hc
    exact ⟨d, List.mem_cons_of_mem _ hd, h⟩

theorem Covers.eq_nil (h : Covers l []) : l = [] := by
  cases l with
  | nil => rfl
  | cons c l =>
    obtain ⟨d, hd, -⟩ := h c (List.mem_cons_self ..)
    cases hd

theorem Covers.forall_kind_ne {kind : ChangeKind} (h : Covers l m) (hm : ∀ d ∈ m, d.kind ≠ kind) :
    ∀ c ∈ l, c.kind ≠ kind := by
  intro c hc heq
  obtain ⟨d, hd, hcd⟩ := h c hc
  exact hm d hd (hcd.kind.symm.trans heq)

/-! ### Behind one step -/

/-- What is reported behind a step is reported of two values of one type. -/
theorem mem_differences_of_mem_step {new : Json} (hold : old.WellFormed) (hnew : new.WellFormed)
    (hkind : old.kind = new.kind) (h : c ∈ changesAt (s.extend path) (s.get? old) (s.get? new)) :
    s ∈ branches old new ∧ c ∈ differences path old new := by
  have hs : s ∈ branches old new := by
    refine mem_branches.2 ⟨hkind, ?_⟩
    cases hv : s.get? old with
    | some v => exact Or.inl rfl
    | none =>
      cases hw : s.get? new with
      | some w => exact Or.inr rfl
      | none =>
        rw [hv, hw] at h
        cases h
  rw [differences_eq _ hold hnew]
  exact ⟨hs, List.mem_append_right _ (List.mem_flatMap.2 ⟨s, hs, h⟩)⟩

/-- Where no change of type is reported the types agree. -/
theorem kind_eq_of_forall_ne {new : Json} (hold : old.WellFormed) (hnew : new.WellFormed)
    (htype : ∀ c ∈ differences path old new, c.kind ≠ .typeChanged) : old.kind = new.kind := by
  by_contra hkind
  rw [differences_eq _ hold hnew, ownChanges_of_kind_ne hkind] at htype
  exact htype _ (List.mem_append_left _ (List.mem_singleton_self _)) rfl

/-- **What is covered is covered step by step.** -/
theorem Covers.behind (hsteps : ∀ s ∈ steps, s.IsPlain) (hold : old.Addressable)
    (hnew₁ : new₁.Addressable) (hnew₂ : new₂.Addressable) (hkind : old.kind = new₁.kind)
    (h : Covers (differences (Path.write steps) old new₁) (differences (Path.write steps) old new₂))
    (s : Step) :
    Covers (changesAt (Path.write (steps ++ [s])) (s.get? old) (s.get? new₁))
      (changesAt (Path.write (steps ++ [s])) (s.get? old) (s.get? new₂)) := by
  rw [Path.write_append]
  intro c hc
  obtain ⟨hs, hmem⟩ := mem_differences_of_mem_step hold.wellFormed hnew₁.wellFormed hkind hc
  have hplain : s.IsPlain := isPlain_of_mem_branches hold hnew₁ hs
  have hbehind := holdsBehind_of_mem_step hold hnew₁ hc
  obtain ⟨d, hd, hcd⟩ := h c hmem
  rw [differences_eq _ hold.wellFormed hnew₂.wellFormed] at hd
  rcases List.mem_append.1 hd with hd | hd
  · -- not of the two values themselves
    have hpath : c.path = Path.write steps := hcd.path.trans (holds_of_mem_ownChanges hd).1
    exact absurd hpath (hbehind.path_ne hsteps hplain)
  · -- and not behind another step
    obtain ⟨t, ht, hd⟩ := List.mem_flatMap.1 hd
    obtain rfl : s = t := hbehind.step_eq (holdsBehind_of_mem_step hold hnew₂ hd) hsteps hplain
      (isPlain_of_mem_branches hold hnew₂ ht) hcd.path
    exact ⟨d, hd, hcd⟩

/-! ### The same new documents -/

/-- A removed value is not reported where both documents have one. -/
theorem not_covers_removed (hsteps : ∀ s ∈ steps, s.IsPlain) (hold : old.Addressable)
    (hnew : new₁.Addressable) :
    ¬ Covers (changesAt (Path.write steps) (some old) none)
      (changesAt (Path.write steps) (some old) (some new₁)) := by
  intro h
  obtain ⟨c, hc, hcd⟩ := h _ (List.mem_singleton_self _)
  obtain ⟨more, hmore, hpath, hholds⟩ :=
    holdsBehind_of_mem (by simpa using hold) (by simpa using hnew) hc
  have hsame : steps ++ [] = steps ++ more :=
    Path.write_injective (by simpa using hsteps) (List.forall_mem_append.2 ⟨hsteps, hmore⟩)
      (by rw [← hpath, ← hcd.path, List.append_nil])
  obtain rfl : [] = more := List.append_cancel_left hsame
  rw [Change.Holds, ← hcd.kind] at hholds
  cases hholds.2.1

/-- Two scalars that replace one value. -/
theorem same_of_covers_scalar (hold : old.isScalar = true) (hkind₁ : old.kind = new₁.kind)
    (hkind₂ : old.kind = new₂.kind) (hnan : new₁.HasNoNaN)
    (h₁ : Covers (differences path old new₁) (differences path old new₂))
    (h₂ : Covers (differences path old new₂) (differences path old new₁)) : Same new₁ new₂ := by
  by_cases hsame : Same old new₁
  · rw [(differences_scalar_eq_nil_iff hold).2 hsame] at h₂
    exact hsame.symm.trans ((differences_scalar_eq_nil_iff hold).1 h₂.eq_nil)
  · have hne : ¬ Same old new₂ := by
      intro hsame₂
      rw [(differences_scalar_eq_nil_iff hold).2 hsame₂] at h₁
      exact hsame ((differences_scalar_eq_nil_iff hold).1 h₁.eq_nil)
    rw [differences_of_isScalar hold, differences_of_isScalar hold, if_pos hkind₁, if_pos hkind₂,
      if_neg (by rwa [sameScalar_iff hold]), if_neg (by rwa [sameScalar_iff hold])] at h₁
    obtain ⟨d, hd, hcd⟩ := h₁ _ (List.mem_singleton_self _)
    obtain rfl := List.mem_singleton.1 hd
    exact hcd.same_new hnan

/-- Two arrays or objects are the same if they are so behind every plain step. -/
theorem same_of_forall_isPlain (hnew₁ : new₁.Addressable) (hnew₂ : new₂.Addressable)
    (hkind : new₁.kind = new₂.kind) (hs : new₁.isScalar = false)
    (h : ∀ s : Step, s.IsPlain → Option.Rel Same (s.get? new₁) (s.get? new₂)) : Same new₁ new₂ := by
  refine same_of_get? hkind hs fun s => ?_
  cases hv : s.get? new₁ with
  | some v => exact hv ▸ h s (hnew₁.isPlain hv)
  | none =>
    cases hw : s.get? new₂ with
    | some w => exact hv ▸ hw ▸ h s (hnew₂.isPlain hw)
    | none => exact .none

/-- **What is reported at a place determines the new document there.** -/
theorem rel_same_of_covers (hsteps : ∀ s ∈ steps, s.IsPlain) (hold : ∀ v ∈ old?, v.Addressable)
    (hnew₁ : ∀ v ∈ new₁?, v.Addressable) (hnew₂ : ∀ v ∈ new₂?, v.Addressable)
    (hnan : ∀ v ∈ new₁?, v.HasNoNaN)
    (h₁ : Covers (changesAt (Path.write steps) old? new₁?)
      (changesAt (Path.write steps) old? new₂?))
    (h₂ : Covers (changesAt (Path.write steps) old? new₂?)
      (changesAt (Path.write steps) old? new₁?))
    (htype : ∀ c ∈ changesAt (Path.write steps) old? new₁?, c.kind ≠ .typeChanged) :
    Option.Rel Same new₁? new₂? := by
  induction old?, hold using Addressable.step_induction generalizing steps new₁? new₂? with
  | absent =>
    cases new₁? with
    | none =>
      cases new₂? with
      | none => exact .none
      | some new₂ => cases h₂.eq_nil
    | some new₁ =>
      cases new₂? with
      | none => cases h₁.eq_nil
      | some new₂ =>
        obtain ⟨d, hd, hcd⟩ := h₁ _ (List.mem_singleton_self _)
        obtain rfl := List.mem_singleton.1 hd
        exact .some (hcd.same_new (hnan new₁ rfl))
  | present old hold ih =>
    cases new₁? with
    | none =>
      cases new₂? with
      | none => exact .none
      | some new₂ => exact absurd h₁ (not_covers_removed hsteps hold (hnew₂ new₂ rfl))
    | some new₁ =>
      cases new₂? with
      | none => exact absurd h₂ (not_covers_removed hsteps hold (hnew₁ new₁ rfl))
      | some new₂ =>
        have hnew₁ : new₁.Addressable := hnew₁ new₁ rfl
        have hnew₂ : new₂.Addressable := hnew₂ new₂ rfl
        have hnan : new₁.HasNoNaN := hnan new₁ rfl
        have hkind₁ : old.kind = new₁.kind :=
          kind_eq_of_forall_ne hold.wellFormed hnew₁.wellFormed htype
        have hkind₂ : old.kind = new₂.kind :=
          kind_eq_of_forall_ne hold.wellFormed hnew₂.wellFormed (h₂.forall_kind_ne htype)
        refine .some ?_
        cases hs : old.isScalar with
        | true => exact same_of_covers_scalar hs hkind₁ hkind₂ hnan h₁ h₂
        | false =>
          refine same_of_forall_isPlain hnew₁ hnew₂ (hkind₁.symm.trans hkind₂)
            ((isScalar_eq_of_kind_eq hkind₁).symm.trans hs) fun s hplain => ?_
          refine ih s (forall_isPlain_append hsteps hplain) (fun _ => hnew₁.get?)
            (fun _ => hnew₂.get?) (fun _ => hnan.get?)
            (Covers.behind hsteps hold hnew₁ hnew₂ hkind₁ h₁ s)
            (Covers.behind hsteps hold hnew₂ hnew₁ hkind₂ h₂ s) fun c hc => ?_
          rw [Path.write_append] at hc
          exact htype c
            (mem_differences_of_mem_step hold.wellFormed hnew₁.wellFormed hkind₁ hc).2

/-- **The changes determine the new document**: two documents with which the comparisons of one old
document report the same changes, and none of type, are the same.  That no number of the second is
undefined need not be said. -/
theorem same_of_agrees (hold : old.Addressable) (hnew₁ : new₁.Addressable)
    (hnew₂ : new₂.Addressable) (hnan : new₁.HasNoNaN)
    (hagree : List.Forall₂ Change.Agrees (differences [] old new₁) (differences [] old new₂))
    (htype : ∀ c ∈ differences [] old new₁, c.kind ≠ .typeChanged) : Same new₁ new₂ := by
  have h₁ : Covers (differences [] old new₁) (differences [] old new₂) := covers_of_forall₂ hagree
  have h₂ : Covers (differences [] old new₂) (differences [] old new₁) :=
    covers_of_forall₂ (List.Forall₂.flip (hagree.imp fun _ _ => Change.Agrees.symm))
  have hsteps : ∀ s ∈ ([] : List Step), s.IsPlain := by simp
  have hold' : ∀ v ∈ some old, v.Addressable := by simpa using hold
  have hrel : Option.Rel Same (some new₁) (some new₂) :=
    rel_same_of_covers hsteps hold' (by simpa using hnew₁) (by simpa using hnew₂)
      (by simpa using hnan) h₁ h₂ htype
  exact Option.rel_some_some.1 hrel

/-- Two new documents that write a one and order the members of an added object differently. -/
theorem same_of_agrees_rewritten :
    let one : Json := .float (.finite false 0x10000000000000 (-52))
    let added : Json := .object [("p".toList, .int 1), ("q".toList, .bool true)]
    let added' : Json := .object [("q".toList, .bool true), ("p".toList, one)]
    let old : Json := .object [("a".toList, .array [.int 1, .text []]), ("gone".toList, .null)]
    let new₁ : Json := .object [("a".toList, .array [.int 1, .text "x".toList, added])]
    let new₂ : Json := .object [("a".toList, .array [one, .text "x".toList, added'])]
    old.Addressable ∧ new₁.Addressable ∧ new₂.Addressable ∧ new₁.HasNoNaN ∧
      (differences [] old new₁).map (fun c => (String.ofList c.path.printed, c.kind)) =
        [("a", .lengthChanged), ("a[1]", .changed), ("a[2]", .added), ("gone", .removed)] ∧
      List.Forall₂ Change.Agrees (differences [] old new₁) (differences [] old new₂) ∧
      (∀ c ∈ differences [] old new₁, c.kind ≠ .typeChanged) ∧ Same new₁ new₂ := by
  intro one added added' old new₁ new₂
  have hkey : IsPlainKey "a".toList := by decide
  have hold : old.Addressable := by
    refine .object (by decide) (by decide) (List.forall_mem_cons.2 ⟨.array ?_, ?_⟩)
    · exact List.forall_mem_cons.2 ⟨.scalar rfl, List.forall_mem_singleton.2 (.scalar rfl)⟩
    · exact List.forall_mem_singleton.2 (.scalar rfl)
  have hadded : added.Addressable := .object (by decide) (by decide)
    (List.forall_mem_cons.2 ⟨.scalar rfl, List.forall_mem_singleton.2 (.scalar rfl)⟩)
  have hadded' : added'.Addressable := .object (by decide) (by decide)
    (List.forall_mem_cons.2 ⟨.scalar rfl, List.forall_mem_singleton.2 (.scalar rfl)⟩)
  have harray : ∀ v w : Json, v.isScalar = true → w.Addressable →
      (Json.object [("a".toList, .array [v, .text "x".toList, w])]).Addressable := by
    intro v w hv hw
    refine .object (List.nodup_singleton _) (List.forall_mem_singleton.2 hkey) ?_
    refine List.forall_mem_singleton.2 (.array (List.forall_mem_cons.2 ⟨.scalar hv, ?_⟩))
    exact List.forall_mem_cons.2 ⟨.scalar rfl, List.forall_mem_singleton.2 hw⟩
  have hnan : new₁.HasNoNaN := by
    refine .object nofun (List.forall_mem_singleton.2 (.array nofun ?_))
    refine List.forall_mem_cons.2 ⟨.scalar rfl nofun, ?_⟩
    refine List.forall_mem_cons.2 ⟨.scalar rfl nofun, ?_⟩
    refine List.forall_mem_singleton.2 (.object nofun (List.forall_mem_cons.2 ⟨?_, ?_⟩))
    · exact .scalar rfl nofun
    · exact List.forall_mem_singleton.2 (.scalar rfl nofun)
  have hsame : differences [] added added' = [] ↔ Same added added' :=
    differences_object_eq_nil_iff (by decide) (List.forall_mem_cons.2
      ⟨fun _ _ => differences_scalar_eq_nil_iff rfl,
        List.forall_mem_singleton.2 fun _ _ => differences_scalar_eq_nil_iff rfl⟩)
  have hagree : List.Forall₂ Change.Agrees (differences [] old new₁) (differences [] old new₂) :=
    .cons ⟨rfl, rfl, Or.inl rfl, Or.inl rfl⟩ <| .cons ⟨rfl, rfl, Or.inl rfl, Or.inl rfl⟩ <|
      .cons ⟨rfl, rfl, Or.inl rfl, Or.inr (hsame.1 rfl)⟩ <|
        .cons ⟨rfl, rfl, Or.inl rfl, Or.inl rfl⟩ .nil
  have htype : ∀ c ∈ differences [] old new₁, c.kind ≠ .typeChanged := by decide
  have hnew₁ : new₁.Addressable := harray _ _ rfl hadded
  have hnew₂ : new₂.Addressable := harray _ _ rfl hadded'
  exact ⟨hold, hnew₁, hnew₂, hnan, by decide, hagree, htype,
    same_of_agrees hold hnew₁ hnew₂ hnan hagree htype⟩

end Json
end Galley
