/-
# Paths that can be followed

A path is written step by step (`Path.write`): a key stands after a dot, but for a key in front,
and an index stands in brackets.  It is read back piece by piece (`Path.steps?`): a dot or an
opening bracket starts a piece.  Reading undoes writing if no key holds one of the two marks and the
first is not empty (`steps?_write_of_head`), so if no key is empty or holds a mark (`steps?_write`);
then different ways into a document have different paths (`write_injective`).  To follow a path is
to read it and take its steps (`Path.follow?`).
-/

import Galley.Proofs.Json.Step
import Galley.Proofs.Text.Numeral
import Mathlib.Data.List.SplitBy

namespace Galley
namespace Json

namespace Path

/-- The path that is written for steps from the document itself. -/
def write (steps : List Step) : WideText := steps.foldl (fun path s => s.extend path) []

/-- Whether a code point starts a piece of a path. -/
def isMark (c : CodePoint) : Bool := c == .char '.' || c == .char '['

/-- The pieces of a path, cut before every mark. -/
def pieces (path : WideText) : List WideText := path.splitBy fun _ c => !isMark c

/-- The number that an index inside brackets denotes. -/
def index? (digits : Text) : Option Nat :=
  if digits ≠ [] ∧ digits.all Char.isDigit then some (Nat.ofDigitChars 10 digits 0) else none

/-- The step that a piece of a path stands for: an index in brackets, or a key after a dot, which
is not there before the first key. -/
def step? : WideText → Option Step
  | .char '[' :: rest =>
    if rest.getLast? = some (.char ']') then
      ((WideText.narrow? rest.dropLast).bind index?).map .item
    else none
  | .char '.' :: key => some (.member key)
  | key => some (.member key)

/-- The steps that a path stands for. -/
def steps? (path : WideText) : Option (List Step) := (pieces path).mapM step?

end Path

/-- The value behind several steps, if all of them can be taken. -/
def getAll? (steps : List Step) (v : Option Json) : Option Json :=
  steps.foldl (fun v s => v.bind s.get?) v

/-- Whether a key can be told from what stands around it in a path. -/
def IsPlainKey (key : WideText) : Prop := key ≠ [] ∧ .char '.' ∉ key ∧ .char '[' ∉ key

instance (key : WideText) : Decidable (IsPlainKey key) := inferInstanceAs (Decidable (_ ∧ _))

/-- The keys of a value that is an object. -/
def keys : Json → List WideText
  | .object ms => ms.map Prod.fst
  | _ => []

/-- Whether all keys of a document, at every depth, are plain. -/
def HasPlainKeys (v : Json) : Prop := v.Everywhere fun w => ∀ key ∈ w.keys, IsPlainKey key

/-- Whether the key of a step, if it has one, is plain. -/
def Step.IsPlain : Step → Prop
  | .member key => IsPlainKey key
  | .item _ => True

/-- Whether the key of a step, if it has one, holds no mark; it may be empty. -/
def Step.IsUnmarked : Step → Prop
  | .member key => .char '.' ∉ key ∧ .char '[' ∉ key
  | .item _ => True

theorem Step.IsPlain.isUnmarked {s : Step} (h : s.IsPlain) : s.IsUnmarked := by
  cases s with
  | member key => exact h.2
  | item index => trivial

theorem Step.IsPlain.ne_unnamed {s : Step} (h : s.IsPlain) : s ≠ .member [] := by
  rintro rfl
  exact h.1 rfl

namespace Path

variable {path key piece : WideText} {s : Step} {steps : List Step}

/-! ### Pieces -/

theorem isMark_eq_false_iff {c : CodePoint} : isMark c = false ↔ c ≠ .char '.' ∧ c ≠ .char '[' := by
  simp [isMark]

/-- A text without marks behind its first character is one piece. -/
theorem pieces_cons (c : CodePoint) (h : ∀ d ∈ piece, isMark d = false) :
    pieces (c :: piece) = [c :: piece] := by
  refine List.splitBy_of_isChain (List.cons_ne_nil _ _) (List.Pairwise.isChain ?_)
  refine List.pairwise_cons.2 ⟨fun d hd => by simp [h d hd], List.pairwise_of_forall_mem_list ?_⟩
  intro _ _ d hd
  simp [h d hd]

/-- A mark starts a new piece. -/
theorem pieces_append_cons (path : WideText) {c : CodePoint} (hc : isMark c = true)
    (h : ∀ d ∈ piece, isMark d = false) :
    pieces (path ++ c :: piece) = pieces path ++ [c :: piece] := by
  rw [← pieces_cons c h]
  exact List.splitBy_append_cons _ fun _ _ => by simp [hc]

theorem not_isMark_of_isDigit {c : Char} (h : c.isDigit = true) : isMark (.char c) = false := by
  rw [isMark_eq_false_iff]
  constructor <;> rintro ⟨⟩ <;> cases h

/-! ### Steps -/

theorem index?_ofNat (n : Nat) : index? (Text.ofNat n) = some n := by
  have hall : (Text.ofNat n).all Char.isDigit = true :=
    List.all_eq_true.2 fun _ => Text.isDigit_of_mem_ofNat
  rw [index?, if_pos ⟨Text.ofNat_ne_nil n, hall⟩, Text.ofDigitChars_ofNat]

theorem step?_item (n : Nat) :
    step? (.char '[' :: (Text.wide (Text.ofNat n) ++ [.char ']'])) = some (.item n) := by
  rw [step?, if_pos (by simp), List.dropLast_concat, WideText.narrow?_wide, Option.bind_some,
    index?_ofNat]
  rfl

theorem step?_first (hkey : IsPlainKey key) : step? key = some (.member key) := by
  unfold step?
  split
  · exact absurd (List.mem_cons_self ..) hkey.2.2
  · exact absurd (List.mem_cons_self ..) hkey.2.1
  · rfl

/-- **A step more is read back as a step more**, if its key holds no mark and does not stand empty
in front. -/
theorem steps?_extend (hs : s.IsUnmarked) (hfirst : path = [] → s ≠ .member [])
    (h : steps? path = some steps) : steps? (s.extend path) = some (steps ++ [s]) := by
  have happend : ∀ {c piece}, isMark c = true → (∀ d ∈ piece, isMark d = false) →
      step? (c :: piece) = some s → steps? (path ++ c :: piece) = some (steps ++ [s]) := by
    intro c piece hc hpiece hstep
    rw [steps?, pieces_append_cons path hc hpiece, List.mapM_append, ← steps?, h]
    simp [hstep]
  cases s with
  | item n =>
    have hpath : Step.extend path (.item n) =
        path ++ .char '[' :: (Text.wide (Text.ofNat n) ++ [.char ']']) := by
      simp [Step.extend, item, Text.wide_cons]
    rw [hpath]
    refine happend rfl (fun d hd => ?_) (step?_item n)
    rcases List.mem_append.1 hd with hd | hd
    · obtain ⟨c, hc, rfl⟩ := List.mem_map.1 hd
      exact not_isMark_of_isDigit (Text.isDigit_of_mem_ofNat hc)
    · rw [List.mem_singleton.1 hd]
      rfl
  | member key =>
    have hmarks : ∀ d ∈ key, isMark d = false := by
      intro d hd
      rw [isMark_eq_false_iff]
      exact ⟨fun heq => hs.1 (heq ▸ hd), fun heq => hs.2 (heq ▸ hd)⟩
    by_cases hpath : path = []
    · -- the first key has no dot before it
      subst hpath
      obtain rfl : [] = steps := Option.some.inj h
      have hne : key ≠ [] := fun hkey => hfirst rfl (congrArg Step.member hkey)
      obtain ⟨c, rest, rfl⟩ := List.exists_cons_of_ne_nil hne
      have hrest : ∀ d ∈ rest, isMark d = false := fun d hd => hmarks d (List.mem_cons_of_mem _ hd)
      rw [show Step.extend [] (.member (c :: rest)) = c :: rest from rfl, steps?,
        pieces_cons c hrest]
      simp [step?_first ⟨hne, hs⟩]
    · have hext : Step.extend path (.member key) = path ++ .char '.' :: key := by
        simp [Step.extend, member, hpath]
      rw [hext]
      exact happend rfl hmarks rfl

/-! ### Paths -/

theorem write_append (steps : List Step) (s : Step) :
    write (steps ++ [s]) = s.extend (write steps) := by
  rw [write, List.foldl_append]
  rfl

/-- **A written path is read back**, if no key holds a mark and none stands empty in front. -/
theorem steps?_write_of_head (h : ∀ s ∈ steps, s.IsUnmarked)
    (hfirst : steps.head? ≠ some (.member [])) : steps? (write steps) = some steps := by
  induction steps using List.reverseRecOn with
  | nil => rfl
  | append_singleton steps s ih =>
    obtain ⟨hsteps, hs⟩ := List.forall_mem_append.1 h
    have hread : steps? (write steps) = some steps := by
      refine ih hsteps fun hhead => hfirst ?_
      rw [List.head?_append, hhead]
      rfl
    rw [write_append]
    refine steps?_extend (List.forall_mem_singleton.1 hs) (fun hnil => ?_) hread
    -- nothing is written before the first step
    rw [hnil] at hread
    obtain rfl : [] = steps := Option.some.inj hread
    exact fun heq => hfirst (congrArg some heq)

/-- A path of plain keys is read back. -/
theorem steps?_write (h : ∀ s ∈ steps, s.IsPlain) : steps? (write steps) = some steps :=
  steps?_write_of_head (fun s hs => (h s hs).isUnmarked) fun hhead =>
    (h _ (List.mem_of_head? hhead)).ne_unnamed rfl

example : steps? "user.tags[12].name".toList =
    some [.member "user".toList, .member "tags".toList, .item 12, .member "name".toList] := by
  decide

/-- **Different steps are written as different paths.** -/
theorem write_injective {steps steps' : List Step} (h : ∀ s ∈ steps, s.IsPlain)
    (h' : ∀ s ∈ steps', s.IsPlain) (heq : write steps = write steps') : steps = steps' := by
  have hsome := steps?_write h
  rw [heq, steps?_write h'] at hsome
  exact (Option.some.inj hsome).symm

end Path

/-! ### Documents whose values have paths of their own -/

/-- Whether every value in a document has a path of its own: the keys of every object are distinct,
and they are plain. -/
structure Addressable (v : Json) : Prop where
  wellFormed : v.WellFormed
  hasPlainKeys : v.HasPlainKeys

section Addressable

variable {s : Step} {v w : Json}

theorem Addressable.get? (hv : v.Addressable) (h : s.get? v = some w) : w.Addressable :=
  ⟨hv.wellFormed.get? h, hv.hasPlainKeys.get? h⟩

/-- The steps that can be taken in such a document are plain. -/
theorem Addressable.isPlain (hv : v.Addressable) (h : s.get? v = some w) : s.IsPlain := by
  cases s with
  | item index => trivial
  | member key =>
    cases v with
    | object ms => exact hv.hasPlainKeys.self key (List.mem_map_of_mem (mem_of_find? h))
    | _ => simp [Step.get?] at h

theorem Addressable.scalar (hv : v.isScalar = true) : v.Addressable := by
  refine ⟨?_, .scalar hv fun key hkey => ?_⟩
  · cases v with
    | null => exact .null
    | bool b => exact .bool b
    | int i => exact .int i
    | float x => exact .float x
    | text t => exact .text t
    | array | object => cases hv
  · cases v with
    | object => cases hv
    | _ => cases hkey

theorem Addressable.array {xs : List Json} (h : ∀ v ∈ xs, v.Addressable) :
    (Json.array xs).Addressable :=
  ⟨.array fun v hv => (h v hv).wellFormed,
    .array (fun _ hkey => nomatch hkey) fun v hv => (h v hv).hasPlainKeys⟩

theorem Addressable.object {ms : List (WideText × Json)} (hkeys : (ms.map Prod.fst).Nodup)
    (hplain : ∀ key ∈ ms.map Prod.fst, IsPlainKey key) (h : ∀ m ∈ ms, m.2.Addressable) :
    (Json.object ms).Addressable :=
  ⟨.object hkeys fun m hm => (h m hm).wellFormed,
    .object hplain fun m hm => (h m hm).hasPlainKeys⟩

/-- Induction on steps into such a document. -/
theorem Addressable.step_induction
    {motive : ∀ v? : Option Json, (∀ v ∈ v?, v.Addressable) → Prop}
    (absent : motive none (by simp))
    (present : ∀ (v : Json) (hv : v.Addressable),
      (∀ s : Step, motive (s.get? v) fun _ => hv.get?) → motive (some v) (by simpa using hv))
    (v? : Option Json) (hv? : ∀ v ∈ v?, v.Addressable) : motive v? hv? := by
  have hwf : ∀ v ∈ v?, v.WellFormed := fun v hv => (hv? v hv).wellFormed
  induction v?, hwf using WellFormed.step_induction with
  | absent => exact absent
  | present v _ ih =>
    have hv : v.Addressable := hv? v rfl
    exact present v hv fun s => ih s fun _ => hv.get?

end Addressable

end Json
end Galley
