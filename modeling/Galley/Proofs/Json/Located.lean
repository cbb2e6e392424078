/-
# Changes at their places

A change is a statement about two documents at one place (`Change.Holds`): that a value stands
there in one of them and nothing in the other, that two arrays of different lengths stand there,
values of different types or different scalars of one type.  Every change that a comparison reports
is true at the place that its path leads to, and no two changes have one path, if the documents are
addressable (`differences_located`).

The place of a change is the list of the steps to it, not the path that is written for them.  A
comparison goes to every place once, and it goes on only from two values of one type
(`exists_placed`).  That keys can be told from what stands around them in a path matters for the
paths alone.
-/

import Galley.Proofs.Json.Path
import Galley.Proofs.Json.Walk

namespace Galley
namespace Json

variable {path : WideText} {c d : Change} {s t : Step} {steps : List Step}
variable {old new : Json} {old? new? : Option Json} {changes changes' : List Change}
variable {placed placed' : List (List Step × Change)}

/-- What a change says of the values at its place in the old and in the new document. -/
def Change.Holds (c : Change) (old new : Option Json) : Prop :=
  match c.kind with
  | .added => old = none ∧ c.old = .null ∧ new = some c.new
  | .removed => old = some c.old ∧ new = none ∧ c.new = .null
  | .changed =>
    old = some c.old ∧ new = some c.new ∧ c.old.isScalar = true ∧ c.new.isScalar = true ∧
      c.old.kind = c.new.kind ∧ ¬ Same c.old c.new
  | .typeChanged =>
    ∃ v w, old = some v ∧ new = some w ∧ v.kind ≠ w.kind ∧
      c.old = .text v.kind.name ∧ c.new = .text w.kind.name
  | .lengthChanged =>
    ∃ xs ys, old = some (.array xs) ∧ new = some (.array ys) ∧ xs.length ≠ ys.length ∧
      c.old = .int xs.length ∧ c.new = .int ys.length

/-- A list of changes with their places: each is said of the values at its place and has the path
that is written for it, no two are at one place, and on the way to a place every step is taken from
two values of one type.  The places are behind `steps`, which lead to `old?` and `new?`. -/
structure Placed (steps : List Step) (old? new? : Option Json) (changes : List Change)
    (placed : List (List Step × Change)) : Prop where
  map_snd : placed.map Prod.snd = changes
  nodup : (placed.map Prod.fst).Nodup
  path_eq : ∀ x ∈ placed, x.2.path = Path.write (steps ++ x.1)
  holds : ∀ x ∈ placed, x.2.Holds (getAll? x.1 old?) (getAll? x.1 new?)
  kind_eq : ∀ x ∈ placed, ∀ before s after, x.1 = before ++ s :: after →
    ∃ v w, getAll? before old? = some v ∧ getAll? before new? = some w ∧ v.kind = w.kind

/-- Whether the place of a change is behind some steps, and what the change says is true there;
`old` and `new` are the values that these steps lead to. -/
def Change.HoldsBehind (c : Change) (steps : List Step) (old new : Option Json) : Prop :=
  ∃ more : List Step, (∀ s ∈ more, s.IsPlain) ∧ c.path = Path.write (steps ++ more) ∧
    c.Holds (getAll? more old) (getAll? more new)

/-! ### The place of a change -/

/-- A change is said of a value in one of the documents at least. -/
theorem Change.Holds.isSome (h : c.Holds old? new?) : old?.isSome = true ∨ new?.isSome = true := by
  unfold Change.Holds at h
  split at h
  · exact Or.inr (by rw [h.2.2]; rfl)
  · exact Or.inl (by rw [h.1]; rfl)
  · exact Or.inl (by rw [h.1]; rfl)
  · obtain ⟨v, w, rfl, -⟩ := h
    exact Or.inl rfl
  · obtain ⟨xs, ys, rfl, -⟩ := h
    exact Or.inl rfl

theorem getAll?_none (steps : List Step) : getAll? steps none = none := by
  induction steps with
  | nil => rfl
  | cons s steps ih => exact ih

/-- Whatever is true of all steps that can be taken is true of the steps to a value. -/
theorem forall_of_isSome_getAll? {P : Json → Prop} {Q : Step → Prop}
    (hP : ∀ v s w, P v → Step.get? s v = some w → P w ∧ Q s) {v? : Option Json}
    (hv : ∀ v ∈ v?, P v) (h : (getAll? steps v?).isSome = true) : ∀ s ∈ steps, Q s := by
  induction steps generalizing v? with
  | nil => exact List.forall_mem_nil _
  | cons s steps ih =>
    have htaken : ∀ w ∈ v?.bind s.get?, P w ∧ Q s := by
      intro w hw
      obtain ⟨v, hmem, hget⟩ := Option.bind_eq_some_iff.1 hw
      exact hP v s w (hv v hmem) hget
    have hrest : (getAll? steps (v?.bind s.get?)).isSome = true := h
    cases hw : v?.bind s.get? with
    | none =>
      rw [hw, getAll?_none] at hrest
      cases hrest
    | some w =>
      exact List.forall_mem_cons.2 ⟨(htaken w hw).2, ih (fun w hw => (htaken w hw).1) hrest⟩

theorem forall_isPlain_append (hsteps : ∀ s ∈ steps, s.IsPlain) (hs : s.IsPlain) :
    ∀ t ∈ steps ++ [s], t.IsPlain :=
  List.forall_mem_append.2 ⟨hsteps, List.forall_mem_singleton.2 hs⟩

/-- A path behind a step goes on from the path before it. -/
theorem Change.HoldsBehind.path_ne (h : c.HoldsBehind (steps ++ [s]) old? new?)
    (hsteps : ∀ s ∈ steps, s.IsPlain) (hs : s.IsPlain) : c.path ≠ Path.write steps := by
  obtain ⟨more, hmore, hpath, -⟩ := h
  intro heq
  have hplain : ∀ t ∈ steps ++ [s] ++ more, t.IsPlain :=
    List.forall_mem_append.2 ⟨forall_isPlain_append hsteps hs, hmore⟩
  have hinj := Path.write_injective hplain hsteps (hpath.symm.trans heq)
  simp at hinj

/-- Paths behind different steps are different. -/
theorem Change.HoldsBehind.step_eq {old?' new?' : Option Json}
    (hc : c.HoldsBehind (steps ++ [s]) old? new?) (hd : d.HoldsBehind (steps ++ [t]) old?' new?')
    (hsteps : ∀ s ∈ steps, s.IsPlain) (hs : s.IsPlain) (ht : t.IsPlain) (heq : c.path = d.path) :
    s = t := by
  obtain ⟨more, hmore, hpath, -⟩ := hc
  obtain ⟨more', hmore', hpath', -⟩ := hd
  have hplain : ∀ u ∈ steps ++ [s] ++ more, u.IsPlain :=
    List.forall_mem_append.2 ⟨forall_isPlain_append hsteps hs, hmore⟩
  have hplain' : ∀ u ∈ steps ++ [t] ++ more', u.IsPlain :=
    List.forall_mem_append.2 ⟨forall_isPlain_append hsteps ht, hmore'⟩
  have hinj := Path.write_injective hplain hplain' (hpath ▸ hpath' ▸ heq)
  simp only [List.append_assoc, List.append_cancel_left_eq, List.singleton_append,
    List.cons.injEq] at hinj
  exact hinj.1

/-! ### Places of their own -/

namespace Placed

theorem nil : Placed steps old? new? [] [] := ⟨rfl, List.nodup_nil, nofun, nofun, nofun⟩

/-- A change of the two values themselves. -/
theorem here (hpath : c.path = Path.write steps) (hholds : c.Holds old? new?) :
    Placed steps old? new? [c] [([], c)] where
  map_snd := rfl
  nodup := List.nodup_singleton _
  path_eq := List.forall_mem_singleton.2 (by rw [hpath, List.append_nil])
  holds := List.forall_mem_singleton.2 hholds
  kind_eq := List.forall_mem_singleton.2 fun before s after heq => by simp at heq

/-- Changes behind a step that is taken from two values of one type. -/
theorem behind (hkind : old.kind = new.kind)
    (h : Placed (steps ++ [s]) (s.get? old) (s.get? new) changes placed) :
    Placed steps (some old) (some new) changes (placed.map fun x => (s :: x.1, x.2)) where
  map_snd := by rw [← h.map_snd, List.map_map]; rfl
  nodup := by
    have hnodup := h.nodup.map (List.cons_injective (a := s))
    rw [List.map_map] at hnodup ⊢
    exact hnodup
  path_eq := List.forall_mem_map.2 fun x hx => by
    rw [h.path_eq x hx, List.append_assoc, List.singleton_append]
  holds := List.forall_mem_map.2 h.holds
  kind_eq := List.forall_mem_map.2 fun x hx before t after heq => by
    cases before with
    | nil => exact ⟨old, new, rfl, rfl, hkind⟩
    | cons u before =>
      obtain ⟨hs, hrest⟩ := List.cons.inj heq
      subst hs
      exact h.kind_eq x hx before t after hrest

/-- Changes at one set of places and at another. -/
theorem append (h : Placed steps old? new? changes placed)
    (h' : Placed steps old? new? changes' placed') (hne : ∀ x ∈ placed, ∀ y ∈ placed', x.1 ≠ y.1) :
    Placed steps old? new? (changes ++ changes') (placed ++ placed') where
  map_snd := by rw [List.map_append, h.map_snd, h'.map_snd]
  nodup := by
    rw [List.map_append, List.nodup_append]
    exact ⟨h.nodup, h'.nodup, List.forall_mem_map.2 fun x hx => List.forall_mem_map.2 (hne x hx)⟩
  path_eq := List.forall_mem_append.2 ⟨h.path_eq, h'.path_eq⟩
  holds := List.forall_mem_append.2 ⟨h.holds, h'.holds⟩
  kind_eq := List.forall_mem_append.2 ⟨h.kind_eq, h'.kind_eq⟩

/-- Changes behind each of several steps that are taken from two values of one type. -/
theorem exists_behind {ss : List Step} {changesOf : Step → List Change} (hss : ss.Nodup)
    (hkind : ∀ s ∈ ss, old.kind = new.kind)
    (h : ∀ s ∈ ss, ∃ placed, Placed (steps ++ [s]) (s.get? old) (s.get? new) (changesOf s) placed) :
    ∃ placed, Placed steps (some old) (some new) (ss.flatMap changesOf) placed ∧
      ∀ x ∈ placed, ∃ s ∈ ss, ∃ more, x.1 = s :: more := by
  induction ss with
  | nil => exact ⟨[], .nil, nofun⟩
  | cons s ss ih =>
    obtain ⟨hs, hss⟩ := List.nodup_cons.1 hss
    obtain ⟨⟨first, hfirst⟩, hrest⟩ := List.forall_mem_cons.1 h
    obtain ⟨hkind, hkinds⟩ := List.forall_mem_cons.1 hkind
    obtain ⟨rest, hplaced, hheads⟩ := ih hss hkinds hrest
    refine ⟨_, (hfirst.behind hkind).append hplaced ?_, List.forall_mem_append.2 ⟨?_, ?_⟩⟩
    · -- places behind another step begin with it
      refine List.forall_mem_map.2 fun x _ y hy heq => ?_
      obtain ⟨t, ht, more, hmore⟩ := hheads y hy
      exact hs ((List.cons.inj (heq.trans hmore)).1 ▸ ht)
    · exact List.forall_mem_map.2 fun x _ => ⟨s, List.mem_cons_self .., x.1, rfl⟩
    · intro x hx
      obtain ⟨t, ht, hmore⟩ := hheads x hx
      exact ⟨t, List.mem_cons_of_mem _ ht, hmore⟩

end Placed

/-! ### What a comparison reports is true -/

/-- What is reported of two values themselves is true of them. -/
theorem holds_of_mem_ownChanges (h : c ∈ ownChanges path old new) :
    c.path = path ∧ c.Holds (some old) (some new) := by
  rcases ownChanges_cases path old new with heq | ⟨hkind, heq⟩ | ⟨xs, ys, rfl, rfl, hlength, heq⟩ |
    ⟨hkind, hold, hnew, hsame, heq⟩
  · rw [heq] at h
    cases h
  · obtain rfl := List.mem_singleton.1 (heq ▸ h)
    exact ⟨rfl, old, new, rfl, rfl, hkind, rfl, rfl⟩
  · obtain rfl := List.mem_singleton.1 (heq ▸ h)
    exact ⟨rfl, xs, ys, rfl, rfl, hlength, rfl, rfl⟩
  · obtain rfl := List.mem_singleton.1 (heq ▸ h)
    exact ⟨rfl, rfl, rfl, hold, hnew, hkind, hsame⟩

/-- What is reported of two values themselves is placed where they are. -/
theorem exists_placed_ownChanges (steps : List Step) (old new : Json) :
    ∃ placed, Placed steps (some old) (some new) (ownChanges (Path.write steps) old new) placed ∧
      ∀ x ∈ placed, x.1 = [] := by
  have hfew : ownChanges (Path.write steps) old new = [] ∨
      ∃ c, ownChanges (Path.write steps) old new = [c] := by
    rcases ownChanges_cases (Path.write steps) old new with h | ⟨-, h⟩ | ⟨_, _, -, -, -, h⟩ |
      ⟨-, -, -, -, h⟩
    · exact Or.inl h
    all_goals exact Or.inr ⟨_, h⟩
  rcases hfew with h | ⟨c, h⟩
  · rw [h]
    exact ⟨[], .nil, nofun⟩
  · obtain ⟨hpath, hholds⟩ := holds_of_mem_ownChanges (h ▸ List.mem_singleton_self c)
    rw [h]
    exact ⟨_, .here hpath hholds, List.forall_mem_singleton.2 rfl⟩

/-- **Every change that a comparison reports has a place of its own and is true there.** -/
theorem exists_placed (steps : List Step) (hold : ∀ old ∈ old?, old.WellFormed)
    (hnew : ∀ new ∈ new?, new.WellFormed) :
    ∃ placed, Placed steps old? new? (changesAt (Path.write steps) old? new?) placed := by
  induction old?, hold using WellFormed.step_induction generalizing steps new? with
  | absent =>
    cases new? with
    | none => exact ⟨[], .nil⟩
    | some new => exact ⟨_, .here rfl ⟨rfl, rfl, rfl⟩⟩
  | present old hold ih =>
    cases new? with
    | none => exact ⟨_, .here rfl ⟨rfl, rfl, rfl⟩⟩
    | some new =>
      have hnew : new.WellFormed := hnew new rfl
      obtain ⟨own, hown, hnil⟩ := exists_placed_ownChanges steps old new
      obtain ⟨behind, hbehind, hcons⟩ := Placed.exists_behind (nodup_branches hold hnew)
        (fun s hs => (mem_branches.1 hs).1)
        fun s _ => ih s (steps ++ [s]) fun _ => hnew.get?
      simp only [Path.write_append] at hbehind
      rw [changesAt, differences_eq _ hold hnew]
      refine ⟨_, hown.append hbehind fun x hx y hy heq => ?_⟩
      obtain ⟨s, -, more, hmore⟩ := hcons y hy
      rw [hnil x hx, hmore] at heq
      cases heq

/-! ### Addressable documents -/

/-- A comparison takes plain steps only. -/
theorem isPlain_of_mem_branches (hold : old.Addressable) (hnew : new.Addressable)
    (hs : s ∈ branches old new) : s.IsPlain := by
  rcases (mem_branches.1 hs).2 with h | h
  · obtain ⟨v, hv⟩ := Option.isSome_iff_exists.1 h
    exact hold.isPlain hv
  · obtain ⟨v, hv⟩ := Option.isSome_iff_exists.1 h
    exact hnew.isPlain hv

/-- The steps to the place of a change are plain. -/
theorem Placed.isPlain (h : Placed steps old? new? changes placed)
    (hold : ∀ old ∈ old?, old.Addressable) (hnew : ∀ new ∈ new?, new.Addressable)
    {x : List Step × Change} (hx : x ∈ placed) : ∀ s ∈ x.1, s.IsPlain := by
  have hP : ∀ v s w, v.Addressable → Step.get? s v = some w → w.Addressable ∧ s.IsPlain :=
    fun v s w hv hw => ⟨hv.get? hw, hv.isPlain hw⟩
  rcases (h.holds x hx).isSome with hsome | hsome
  · exact forall_of_isSome_getAll? hP hold hsome
  · exact forall_of_isSome_getAll? hP hnew hsome

theorem wellFormed_of_addressable (h : ∀ v ∈ old?, v.Addressable) : ∀ v ∈ old?, v.WellFormed :=
  fun v hv => (h v hv).wellFormed

/-- **Every change is reported at its place and says what is true there.** -/
theorem holdsBehind_of_mem (hold : ∀ old ∈ old?, old.Addressable)
    (hnew : ∀ new ∈ new?, new.Addressable) (h : c ∈ changesAt (Path.write steps) old? new?) :
    c.HoldsBehind steps old? new? := by
  obtain ⟨placed, hplaced⟩ :=
    exists_placed steps (wellFormed_of_addressable hold) (wellFormed_of_addressable hnew)
  rw [← hplaced.map_snd] at h
  obtain ⟨x, hx, rfl⟩ := List.mem_map.1 h
  exact ⟨x.1, hplaced.isPlain hold hnew hx, hplaced.path_eq x hx, hplaced.holds x hx⟩

/-- What is reported behind a step of two values has its place behind that step. -/
theorem holdsBehind_of_mem_step (hold : old.Addressable) (hnew : new.Addressable)
    (h : c ∈ changesAt (s.extend (Path.write steps)) (s.get? old) (s.get? new)) :
    c.HoldsBehind (steps ++ [s]) (s.get? old) (s.get? new) := by
  rw [← Path.write_append] at h
  exact holdsBehind_of_mem (fun _ => hold.get?) (fun _ => hnew.get?) h

end Json
end Galley
