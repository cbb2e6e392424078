/-
# Members without a name

A key may be empty.  In a path it leaves a dot alone where something stands before it, and nothing
in front: the member without a name of a document has the path of the document, and what is inside
the member has the paths of what is in the document (`Path.write_shown`).  If no key holds a mark,
this is all that a path does not tell (`Path.write_inj_iff`).

So the changes of a comparison can be told by their paths unless both documents have a member
without a name, and the empty path is that of the documents unless one of them has such a member
(`differences_told`).  Where they have one, two changes may have one path, and a change inside may
be shown as one of the documents (`differences_not_told`).
-/

import Galley.Proofs.Json.Located
import Mathlib.Data.List.TakeWhile

namespace Galley
namespace Json

namespace Path

variable {steps steps' : List Step}

/-- The steps that show in a path: all but the empty keys in front. -/
def shown (steps : List Step) : List Step := steps.dropWhile fun s => s = .member []

theorem shown_of_head (h : steps.head? ≠ some (.member [])) : shown steps = steps := by
  cases steps with
  | nil => rfl
  | cons s steps => exact List.dropWhile_cons_of_neg (by simpa using h)

/-- **Empty keys in front do not show in a path.** -/
theorem write_shown (steps : List Step) : write (shown steps) = write steps := by
  induction steps with
  | nil => rfl
  | cons s steps ih =>
    by_cases hs : s = .member []
    · subst hs
      exact ih
    · rw [shown_of_head (by simpa using hs)]

/-- **Paths tell the steps that show**, if no key holds a mark. -/
theorem write_inj_iff (h : ∀ s ∈ steps, s.IsUnmarked) (h' : ∀ s ∈ steps', s.IsUnmarked) :
    write steps = write steps' ↔ shown steps = shown steps' := by
  have hread : ∀ steps : List Step, (∀ s ∈ steps, s.IsUnmarked) →
      steps? (write steps) = some (shown steps) := by
    intro steps h
    rw [← write_shown]
    have hunmarked : ∀ s ∈ shown steps, s.IsUnmarked := fun s hs =>
      h s ((List.dropWhile_sublist _).mem hs)
    refine steps?_write_of_head hunmarked fun hhead => ?_
    have hshown := List.head?_dropWhile_not (fun s : Step => s = .member []) steps
    rw [← shown, hhead] at hshown
    simp at hshown
  constructor
  · intro heq
    rw [← Option.some_inj, ← hread steps h, heq, hread steps' h']
  · intro heq
    rw [← write_shown steps, heq, write_shown]

/-- Nothing is written for empty keys alone. -/
theorem write_eq_nil_iff (h : ∀ s ∈ steps, s.IsUnmarked) :
    write steps = [] ↔ ∀ s ∈ steps, s = .member [] := by
  have hnil : write steps = write [] ↔ shown steps = shown [] :=
    write_inj_iff h (List.forall_mem_nil _)
  refine hnil.trans (List.dropWhile_eq_nil_iff.trans ?_)
  simp

end Path

variable {c : Change} {old new : Json} {old? new? : Option Json} {steps : List Step}
variable {changes : List Change} {placed : List (List Step × Change)} {x y : List Step × Change}

/-! ### Documents without marks in their keys -/

/-- Whether no key of a document, at any depth, holds a mark; keys may be empty. -/
def HasUnmarkedKeys (v : Json) : Prop :=
  v.Everywhere fun w => ∀ key ∈ w.keys, .char '.' ∉ key ∧ .char '[' ∉ key

/-- Whether a value has a member without a name. -/
def HasUnnamed (v : Json) : Prop := (Step.get? (.member []) v).isSome = true

instance (v : Json) : Decidable v.HasUnnamed := inferInstanceAs (Decidable (_ = true))

/-- The steps that can be taken in such a document are without marks. -/
theorem HasUnmarkedKeys.isUnmarked {s : Step} {v w : Json} (hv : v.HasUnmarkedKeys)
    (h : s.get? v = some w) : s.IsUnmarked := by
  cases s with
  | item index => trivial
  | member key =>
    cases v with
    | object ms => exact hv.self key (List.mem_map_of_mem (mem_of_find? h))
    | _ => simp [Step.get?] at h

/-- The steps to the place of a change are without marks. -/
theorem Placed.isUnmarked (h : Placed steps old? new? changes placed)
    (hold : ∀ old ∈ old?, old.HasUnmarkedKeys) (hnew : ∀ new ∈ new?, new.HasUnmarkedKeys)
    (hx : x ∈ placed) : ∀ s ∈ x.1, s.IsUnmarked := by
  have hP : ∀ v s w, v.HasUnmarkedKeys → Step.get? s v = some w →
      w.HasUnmarkedKeys ∧ s.IsUnmarked :=
    fun v s w hv hw => ⟨Everywhere.get? hv hw, hv.isUnmarked hw⟩
  rcases (h.holds x hx).isSome with hsome | hsome
  · exact forall_of_isSome_getAll? hP hold hsome
  · exact forall_of_isSome_getAll? hP hnew hsome

/-! ### Changes at members without a name -/

/-- What is said of two values of one type themselves is not said of objects. -/
theorem Change.Holds.get?_member (h : c.Holds (some old) (some new)) (hkind : old.kind = new.kind)
    (key : WideText) :
    Step.get? (.member key) old = none ∧ Step.get? (.member key) new = none := by
  unfold Change.Holds at h
  split at h
  · cases h.1
  · cases h.2.1
  · obtain ⟨hold, hnew, hscalar, hscalar', -⟩ := h
    rw [Option.some.inj hold, Option.some.inj hnew]
    exact ⟨get?_of_isScalar hscalar, get?_of_isScalar hscalar'⟩
  · obtain ⟨v, w, hold, hnew, hne, -⟩ := h
    rw [Option.some.inj hold, Option.some.inj hnew] at hkind
    exact absurd hkind hne
  · obtain ⟨xs, ys, hold, hnew, -⟩ := h
    rw [Option.some.inj hold, Option.some.inj hnew]
    exact ⟨rfl, rfl⟩

theorem getAll?_cons_eq_none {s : Step} {v : Json} (h : s.get? v = none) (more : List Step) :
    getAll? (s :: more) (some v) = none := by
  rw [← getAll?_none more, ← h]
  rfl

section Told

variable (h : Placed [] (some old) (some new) changes placed)

include h

/-- A way goes on from members without a name only if both documents have one. -/
theorem Placed.eq_unnamed (hunnamed : ¬ (old.HasUnnamed ∧ new.HasUnnamed)) (hx : x ∈ placed)
    (hhead : x.1.head? = some (.member [])) : x.1 = [.member []] := by
  obtain ⟨more, hmore⟩ := List.head?_eq_some_iff.1 hhead
  cases more with
  | nil => exact hmore
  | cons s after =>
    obtain ⟨v, w, hv, hw, -⟩ := h.kind_eq x hx [.member []] s after hmore
    exact absurd ⟨Option.isSome_iff_exists.2 ⟨v, hv⟩, Option.isSome_iff_exists.2 ⟨w, hw⟩⟩ hunnamed

/-- Where there is a change at or in a member without a name, there is none of the documents. -/
theorem Placed.ne_nil_of_unnamed (hx : x ∈ placed) (hhead : x.1.head? = some (.member []))
    (hy : y ∈ placed) : y.1 ≠ [] := by
  intro hnil
  obtain ⟨more, hmore⟩ := List.head?_eq_some_iff.1 hhead
  have hkind : old.kind = new.kind := by
    obtain ⟨v, w, hv, hw, hkind⟩ := h.kind_eq x hx [] (.member []) more hmore
    rwa [Option.some.inj hv, Option.some.inj hw]
  have hholds := h.holds y hy
  rw [hnil] at hholds
  obtain ⟨hold, hnew⟩ := hholds.get?_member hkind []
  have hsome := (h.holds x hx).isSome
  rw [hmore, getAll?_cons_eq_none hold, getAll?_cons_eq_none hnew] at hsome
  simp at hsome

/-- Changes of documents without a member of no name on both sides have places that show. -/
theorem Placed.eq_of_shown (hunnamed : ¬ (old.HasUnnamed ∧ new.HasUnnamed)) (hx : x ∈ placed)
    (hy : y ∈ placed) (hshown : Path.shown x.1 = Path.shown y.1) : x.1 = y.1 := by
  by_cases hxhead : x.1.head? = some (.member [])
  · have hxplace := h.eq_unnamed hunnamed hx hxhead
    by_cases hyhead : y.1.head? = some (.member [])
    · rw [hxplace, h.eq_unnamed hunnamed hy hyhead]
    · rw [hxplace, Path.shown_of_head hyhead] at hshown
      exact absurd hshown.symm (h.ne_nil_of_unnamed hx hxhead hy)
  · by_cases hyhead : y.1.head? = some (.member [])
    · rw [h.eq_unnamed hunnamed hy hyhead, Path.shown_of_head hxhead] at hshown
      exact absurd hshown (h.ne_nil_of_unnamed hy hyhead hx)
    · rwa [Path.shown_of_head hxhead, Path.shown_of_head hyhead] at hshown

/-- Without members of no name the empty path is that of the documents. -/
theorem Placed.eq_nil_of_forall_unnamed (hold : ¬ old.HasUnnamed) (hnew : ¬ new.HasUnnamed)
    (hx : x ∈ placed) (hall : ∀ s ∈ x.1, s = .member []) : x.1 = [] := by
  have hsome := (h.holds x hx).isSome
  cases hplace : x.1 with
  | nil => rfl
  | cons s more =>
    obtain rfl : s = .member [] := hall s (hplace ▸ List.mem_cons_self ..)
    rw [hplace, getAll?_cons_eq_none (Option.not_isSome_iff_eq_none.1 hold),
      getAll?_cons_eq_none (Option.not_isSome_iff_eq_none.1 hnew)] at hsome
    simp at hsome

end Told

/-! ### What paths tell of changes -/

/-- The empty path is written as a word. -/
theorem Change.describe_of_path_eq_nil (h : c.path = []) :
    Text.wide "(root): ".toList <+: c.describe := by
  unfold Change.describe
  rw [h]
  cases c.kind <;> exact ⟨_, rfl⟩

/-- **Paths tell changes apart**, if no key holds a mark: two changes have one path if and only if
their places are the same but for empty keys in front, and the empty path, written as the root, is
that of the documents and of what only empty keys lead to.  So no two changes have one path unless
both documents have a member without a name, and the empty path is reported of the documents alone
unless one of them has such a member. -/
theorem differences_told (hold : old.WellFormed) (hnew : new.WellFormed)
    (hkeys : old.HasUnmarkedKeys) (hkeys' : new.HasUnmarkedKeys) :
    ∃ placed, Placed [] (some old) (some new) (differences [] old new) placed ∧
      (∀ x ∈ placed, ∀ y ∈ placed, x.2.path = y.2.path ↔ Path.shown x.1 = Path.shown y.1) ∧
      (∀ x ∈ placed, x.2.path = [] ↔ ∀ s ∈ x.1, s = .member []) ∧
      (∀ x ∈ placed, x.2.path = [] → Text.wide "(root): ".toList <+: x.2.describe) ∧
      (¬ (old.HasUnnamed ∧ new.HasUnnamed) → ((differences [] old new).map Change.path).Nodup) ∧
      (¬ old.HasUnnamed → ¬ new.HasUnnamed → ∀ x ∈ placed, x.2.path = [] → x.1 = []) := by
  obtain ⟨placed, h⟩ : ∃ placed, Placed [] (some old) (some new) (differences [] old new) placed :=
    exists_placed [] (by simpa using hold) (by simpa using hnew)
  have hunmarked : ∀ x ∈ placed, ∀ s ∈ x.1, s.IsUnmarked := fun x hx =>
    h.isUnmarked (by simpa using hkeys) (by simpa using hkeys') hx
  have hsame : ∀ x ∈ placed, ∀ y ∈ placed,
      x.2.path = y.2.path ↔ Path.shown x.1 = Path.shown y.1 := fun x hx y hy => by
    rw [h.path_eq x hx, h.path_eq y hy]
    exact Path.write_inj_iff (hunmarked x hx) (hunmarked y hy)
  have hroot : ∀ x ∈ placed, x.2.path = [] ↔ ∀ s ∈ x.1, s = .member [] := fun x hx => by
    rw [h.path_eq x hx]
    exact Path.write_eq_nil_iff (hunmarked x hx)
  refine ⟨placed, h, hsame, hroot, fun x _ hpath => Change.describe_of_path_eq_nil hpath, ?_, ?_⟩
  · intro hunnamed
    rw [← h.map_snd, List.map_map]
    refine h.nodup.of_map.map_on fun x hx y hy heq => ?_
    have hshown := (hsame x hx y hy).1 heq
    exact List.inj_on_of_nodup_map h.nodup hx hy (h.eq_of_shown hunnamed hx hy hshown)
  · intro hold hnew x hx hpath
    exact h.eq_nil_of_forall_unnamed hold hnew hx ((hroot x hx).1 hpath)

/-- A member without a name in the old document alone, and others inside. -/
theorem differences_told_inside :
    let old : Json := .object [([], .int 1), ("a".toList, .object [([], .bool true)])]
    let new : Json := .object [("a".toList, .object [([], .null), ("b".toList, .text "y".toList)])]
    old.WellFormed ∧ new.WellFormed ∧ old.HasUnmarkedKeys ∧ new.HasUnmarkedKeys ∧
      old.HasUnnamed ∧ ¬ new.HasUnnamed ∧
      (differences [] old new).map (fun c => (String.ofList c.path.printed, c.kind)) =
        [("", .removed), ("a.", .typeChanged), ("a.b", .added)] ∧
      ((differences [] old new).map Change.path).Nodup ∧
      ∃ placed, Placed [] (some old) (some new) (differences [] old new) placed ∧
        (∀ x ∈ placed, ∀ y ∈ placed, x.2.path = y.2.path ↔ Path.shown x.1 = Path.shown y.1) ∧
        ∀ x ∈ placed, x.2.path = [] ↔ ∀ s ∈ x.1, s = .member [] := by
  intro old new
  have hscalar : ∀ v : Json, v.isScalar = true → v.HasUnmarkedKeys := by
    intro v hv
    cases v with
    | array | object => cases hv
    | _ => exact .scalar rfl nofun
  have hold : old.WellFormed := .object (by decide) (List.forall_mem_cons.2 ⟨.int 1,
    List.forall_mem_singleton.2 (.object (by decide) (List.forall_mem_singleton.2 (.bool true)))⟩)
  have hnew : new.WellFormed := .object (by decide) (List.forall_mem_singleton.2
    (.object (by decide) (List.forall_mem_cons.2 ⟨.null, List.forall_mem_singleton.2 (.text _)⟩)))
  have hkeys : old.HasUnmarkedKeys := .object (by decide) (List.forall_mem_cons.2 ⟨hscalar _ rfl,
    List.forall_mem_singleton.2 (.object (by decide)
      (List.forall_mem_singleton.2 (hscalar _ rfl)))⟩)
  have hkeys' : new.HasUnmarkedKeys := .object (by decide) (List.forall_mem_singleton.2
    (.object (by decide) (List.forall_mem_cons.2 ⟨hscalar _ rfl,
      List.forall_mem_singleton.2 (hscalar _ rfl)⟩)))
  obtain ⟨placed, hplaced, hsame, hroot, -, hnodup, -⟩ := differences_told hold hnew hkeys hkeys'
  exact ⟨hold, hnew, hkeys, hkeys', by decide, by decide, by decide, hnodup (by decide), placed,
    hplaced, hsame, hroot⟩

/-- Two changes of one path, and a change inside that is shown as one of the documents. -/
theorem differences_not_told :
    let old : Json := .object [([], .object [("a".toList, .int 1)]), ("a".toList, .int 1)]
    let new : Json := .object [([], .object [("a".toList, .int 2)]), ("a".toList, .int 2)]
    let old' : Json := .object [([], .int 1)]
    let new' : Json := .object [([], .int 2)]
    old.WellFormed ∧ new.WellFormed ∧ old.HasUnmarkedKeys ∧ new.HasUnmarkedKeys ∧
      (differences [] old new).map (fun c => String.ofList c.path.printed) = ["a", "a"] ∧
      ¬ ((differences [] old new).map Change.path).Nodup ∧
      old'.WellFormed ∧ new'.WellFormed ∧ old'.HasUnmarkedKeys ∧ new'.HasUnmarkedKeys ∧
      (differences [] old' new').map (fun c =>
          (String.ofList c.path.printed, String.ofList c.describe.printed)) =
        [("", "(root): Changed from 1 to 2")] ∧
      ∀ c ∈ differences [] old' new', ¬ c.Holds (some old') (some new') := by
  intro old new old' new'
  have hwf : ∀ i : Int, (Json.object [([], .object [("a".toList, .int i)]),
      ("a".toList, .int i)]).WellFormed ∧ (Json.object [([], .int i)]).WellFormed := fun i =>
    ⟨.object (by change List.Nodup [[], Text.wide "a".toList]; decide) (List.forall_mem_cons.2
        ⟨.object (List.nodup_singleton _) (List.forall_mem_singleton.2 (.int i)),
          List.forall_mem_singleton.2 (.int i)⟩),
      .object (List.nodup_singleton _) (List.forall_mem_singleton.2 (.int i))⟩
  have hkeys : ∀ i : Int, (Json.object [([], .object [("a".toList, .int i)]),
      ("a".toList, .int i)]).HasUnmarkedKeys ∧ (Json.object [([], .int i)]).HasUnmarkedKeys := by
    intro i
    have hint : (Json.int i).HasUnmarkedKeys := .scalar rfl nofun
    have hboth : ∀ key ∈ [[], Text.wide "a".toList], .char '.' ∉ key ∧ .char '[' ∉ key := by decide
    have hone : ∀ key ∈ [[], Text.wide "a".toList], (Json.object [(key, .int i)]).HasUnmarkedKeys :=
      fun key hkey => .object (List.forall_mem_singleton.2 (hboth key hkey))
        (List.forall_mem_singleton.2 hint)
    refine ⟨.object hboth (List.forall_mem_cons.2 ⟨?_, List.forall_mem_singleton.2 hint⟩), ?_⟩
    · exact hone _ (List.mem_cons_of_mem _ (List.mem_singleton_self _))
    · exact hone _ (List.mem_cons_self ..)
  refine ⟨(hwf 1).1, (hwf 2).1, (hkeys 1).1, (hkeys 2).1, by decide, by decide, (hwf 1).2,
    (hwf 2).2, (hkeys 1).2, (hkeys 2).2, by decide, ?_⟩
  refine List.forall_mem_singleton.2 fun hholds => ?_
  have hroot : Json.object [([], .int 1)] = .int 1 := Option.some.inj hholds.1
  cases hroot

end Json
end Galley
