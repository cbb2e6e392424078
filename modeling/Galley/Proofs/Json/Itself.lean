/-
# A document compared with itself

A comparison of a document with itself finds what the document has of undefined numbers, and
nothing else: such a number is not equal to itself, and every one of them is reported as changed
(`differences_self`).  So two equal texts have no structural differences exactly when no number in
them is undefined (`LineDiff.compare_self`).  Infinities, whole numbers of any size, and members
that a text names twice are found unchanged.
-/

import Galley.LineDiff.Compare
import Galley.Proofs.Json.Delta

namespace Galley
namespace Json

variable {path : WideText} {index : Nat} {v : Json} {xs : List Json}
variable {ms ns : List (WideText × Json)}

mutual
/-- The paths of the undefined numbers in a value at a path, in the order of the walk. -/
def undefinedAt (path : WideText) : Json → List WideText
  | .float .nan => [path]
  | .array items => itemsUndefinedAt path 0 items
  | .object members => membersUndefinedAt path members
  | _ => []

/-- Those in the items from an index on. -/
def itemsUndefinedAt (path : WideText) (index : Nat) : List Json → List WideText
  | [] => []
  | v :: vs => undefinedAt (Path.item path index) v ++ itemsUndefinedAt path (index + 1) vs

/-- Those in members. -/
def membersUndefinedAt (path : WideText) : List (WideText × Json) → List WideText
  | [] => []
  | (k, v) :: ms => undefinedAt (Path.member path k) v ++ membersUndefinedAt path ms
end

/-- The change that is reported of an undefined number in two equal documents. -/
def Change.undefined (path : WideText) : Change := ⟨path, .changed, .float .nan, .float .nan⟩

/-! ### Scalars -/

theorem undefinedAt_scalar (hs : v.isScalar = true) (hv : v ≠ .float .nan) :
    undefinedAt path v = [] := by
  cases v with
  | float x =>
    cases x with
    | nan => exact absurd rfl hv
    | infinite | finite => rfl
  | array | object => cases hs
  | _ => rfl

/-- A scalar differs from itself only if it is an undefined number. -/
theorem differences_scalar_self (hs : v.isScalar = true) :
    differences path v v = (undefinedAt path v).map Change.undefined := by
  by_cases hv : v = .float .nan
  · rw [hv]
    rfl
  · have hsame : Same v v := HasNoNaN.same (.scalar hs hv)
    rw [undefinedAt_scalar hs hv, (differences_scalar_eq_nil_iff hs).2 hsame, List.map_nil]

/-! ### Items and members -/

theorem itemDifferences_self
    (h : ∀ v ∈ xs, ∀ path, differences path v v = (undefinedAt path v).map Change.undefined) :
    itemDifferences path index xs xs = (itemsUndefinedAt path index xs).map Change.undefined := by
  induction xs generalizing index with
  | nil => rfl
  | cons x xs ih =>
    obtain ⟨hx, hxs⟩ := List.forall_mem_cons.1 h
    rw [itemDifferences, itemsUndefinedAt, List.map_append, hx, ih hxs]

/-- Members that are found again under their keys. -/
theorem memberDifferences_self (hfind : ∀ m ∈ ms, find? m.1 ns = some m.2)
    (h : ∀ m ∈ ms, ∀ path,
      differences path m.2 m.2 = (undefinedAt path m.2).map Change.undefined) :
    memberDifferences path ms ns = (membersUndefinedAt path ms).map Change.undefined := by
  induction ms with
  | nil => rfl
  | cons m ms ih =>
    obtain ⟨k, v⟩ := m
    obtain ⟨hk, hfind⟩ := List.forall_mem_cons.1 hfind
    obtain ⟨hv, hms⟩ := List.forall_mem_cons.1 h
    rw [memberDifferences, membersUndefinedAt, List.map_append, hk, ih hfind hms]
    exact congrArg (· ++ _) (hv _)

theorem itemsUndefinedAt_eq_nil_iff
    (h : ∀ v ∈ xs, ∀ path, undefinedAt path v = [] ↔ v.HasNoNaN) :
    itemsUndefinedAt path index xs = [] ↔ ∀ v ∈ xs, v.HasNoNaN := by
  induction xs generalizing index with
  | nil => simp [itemsUndefinedAt]
  | cons x xs ih =>
    obtain ⟨hx, hxs⟩ := List.forall_mem_cons.1 h
    rw [itemsUndefinedAt, List.append_eq_nil_iff, List.forall_mem_cons, hx, ih hxs]

theorem membersUndefinedAt_eq_nil_iff
    (h : ∀ m ∈ ms, ∀ path, undefinedAt path m.2 = [] ↔ m.2.HasNoNaN) :
    membersUndefinedAt path ms = [] ↔ ∀ m ∈ ms, m.2.HasNoNaN := by
  induction ms with
  | nil => simp [membersUndefinedAt]
  | cons m ms ih =>
    obtain ⟨hm, hms⟩ := List.forall_mem_cons.1 h
    rw [membersUndefinedAt, List.append_eq_nil_iff, List.forall_mem_cons, hm, ih hms]

/-! ### Documents -/

/-- **A document differs from itself where it has undefined numbers**, and nowhere else. -/
theorem differences_self (hv : v.WellFormed) :
    differences path v v = (undefinedAt path v).map Change.undefined := by
  induction hv generalizing path with
  | null | bool | int | float | text => exact differences_scalar_self rfl
  | array _ ih =>
    rw [differences, undefinedAt, itemDifferences_self fun v hv _ => ih v hv, lengthChange,
      if_pos rfl, List.nil_append]
  | @object ms hkeys _ ih =>
    have hfind : ∀ m ∈ ms, find? m.1 ms = some m.2 := fun _ hm => find?_of_mem hkeys hm
    have hadded : addedMembers path ms ms = [] :=
      addedMembers_eq_nil_iff.2 fun m hm => by rw [hfind m hm, Option.isSome_some]
    rw [differences, undefinedAt, memberDifferences_self hfind fun m hm _ => ih m hm, hadded,
      List.append_nil]

/-- A document has no undefined number exactly when none is found. -/
theorem undefinedAt_eq_nil_iff (hv : v.WellFormed) : undefinedAt path v = [] ↔ v.HasNoNaN := by
  induction hv generalizing path with
  | null | bool | int | text => exact iff_of_true rfl (.scalar rfl nofun)
  | float x =>
    cases x with
    | nan => exact iff_of_false (List.cons_ne_nil _ _) fun h => h.self rfl
    | infinite | finite => exact iff_of_true rfl (.scalar rfl nofun)
  | array _ ih =>
    rw [undefinedAt, itemsUndefinedAt_eq_nil_iff fun v hv _ => ih v hv]
    exact ⟨.array nofun, fun | .array _ hitems => hitems | .scalar hs _ => nomatch hs⟩
  | object _ _ ih =>
    rw [undefinedAt, membersUndefinedAt_eq_nil_iff fun m hm _ => ih m hm]
    exact ⟨.object nofun, fun | .object _ hvalues => hvalues | .scalar hs _ => nomatch hs⟩

/-! ### The last line -/

/-- What the report says of an undefined number. -/
theorem describe_undefined (path : WideText) :
    (Change.undefined path).describe =
      (if path.isEmpty then Text.wide "(root)".toList else path) ++
        Text.wide ": Changed from NaN to NaN".toList := rfl

/-- The last line of a report of no differences, with the line breaks around it. -/
def noDifferences : WideText := Text.wide "\nNo structural differences\n".toList

/-- A report ends in the lines about the changes, and they begin on a line of their own. -/
theorem unlines_changeLines_suffix (a b : Json) (changes : List Change) :
    [.char '\n'] ++ WideText.unlines (changeLines changes) <:+ comparisonReport a b changes := by
  have hbreak : [.char '\n'] <:+ Text.wide "\n\nStructural Differences:\n".toList := by decide
  exact List.suffix_append_self_iff.2 (hbreak.trans (List.suffix_append _ _))

/-- **A report of no differences says so** in its last line. -/
theorem noDifferences_suffix (a b : Json) : noDifferences <:+ comparisonReport a b [] :=
  unlines_changeLines_suffix a b []

/-- A report of undefined numbers says something else there. -/
theorem not_noDifferences_suffix (a b : Json) {paths : List WideText} (hpaths : paths ≠ []) :
    ¬ noDifferences <:+ comparisonReport a b (paths.map Change.undefined) := by
  obtain ⟨paths, path, rfl⟩ := paths.eq_nil_or_concat'.resolve_left hpaths
  have hnan : Text.wide "NaN".toList <:+ Text.wide ": Changed from NaN to NaN".toList := by decide
  have hline : Text.wide "NaN".toList ++ [.char '\n'] <:+
      (Change.undefined path).describe ++ [.char '\n'] := by
    rw [describe_undefined]
    exact List.suffix_append_self_iff.2 (hnan.trans (List.suffix_append _ _))
  have hlast : (Change.undefined path).describe ++ [.char '\n'] <:+
      comparisonReport a b ((paths ++ [path]).map Change.undefined) := by
    refine List.IsSuffix.trans ?_ (unlines_changeLines_suffix a b _)
    rw [changeLines, if_neg (by simp), WideText.unlines, List.map_append, List.map_append,
      List.map_append, List.flatten_append, List.map_singleton, List.map_singleton,
      List.map_singleton, List.flatten_singleton]
    exact (List.suffix_append _ _).trans (List.suffix_append _ _)
  -- the two ends of the report would be ends of each other
  intro h
  rcases List.suffix_or_suffix_of_suffix h (hline.trans hlast) with h | h
  · exact absurd h (by decide)
  · exact absurd h (by decide)

end Json

namespace LineDiff

variable {o : Options} {t : Text} {v : Json}

/-- The documents are compared if there is one in each text. -/
theorem value_compare_documents (limit : Int) {old new : Text} {a b : Json}
    (ho : o.subject = .documents) (hold : Json.decode old = .ok a) (hnew : Json.decode new = .ok b) :
    (compare o limit old new).value = .ok (.documents
      (Json.comparisonReport a b (Json.differences [] a b)) (Json.differences [] a b)) := by
  have hne : old.isEmpty = false := by
    cases old with
    | nil => cases hold
    | cons => rfl
  rw [compare, hne, ho, compareDocuments, hold, hnew]
  rfl

/-- **Two equal texts differ where a number is undefined**, and nowhere else. -/
theorem compare_self (limit : Int) (ho : o.subject = .documents) (ht : Json.decode t = .ok v) :
    ∃ output changes, (compare o limit t t).value = .ok (.documents output changes) ∧
      changes = (Json.undefinedAt [] v).map Json.Change.undefined ∧
      (changes = [] ↔ v.HasNoNaN) ∧ (Json.noDifferences <:+ output ↔ v.HasNoNaN) := by
  have hv : v.WellFormed := Json.wellFormed_decode ht
  have hself : Json.differences [] v v = (Json.undefinedAt [] v).map Json.Change.undefined :=
    Json.differences_self hv
  have hnone : Json.undefinedAt [] v = [] ↔ v.HasNoNaN := Json.undefinedAt_eq_nil_iff hv
  refine ⟨_, _, value_compare_documents limit ho ht ht, hself, ?_, ?_⟩
  · rw [hself, List.map_eq_nil_iff, hnone]
  · rw [hself, ← hnone]
    constructor
    · intro h
      by_contra hne
      exact Json.not_noDifferences_suffix v v hne h
    · intro h
      rw [h]
      exact Json.noDifferences_suffix v v

/-- A text with an infinity, a number of many digits, two keys that differ in a surrogate and a key
named twice, the second time in place of an undefined number. -/
theorem compare_self_extremes :
    let o : Options := { Options.standard with subject := .documents }
    let t :=
      "\x7b\"a\": NaN, \"\\ud800\": [1e400, 12345678901234567890], \"a\": 0.5, \"\\ud801\": 0\x7d"
    let read := "\x7b\"a\": 0.5, \"\\ud800\": [Infinity, 12345678901234567890], \"\\ud801\": 0\x7d"
    o.subject = .documents ∧
      ∃ v, Json.decode t.toList = .ok v ∧ v.compact.printed = read.toList ∧
        ∃ output, (compare o 1000000 t.toList t.toList).value = .ok (.documents output []) ∧
          Json.noDifferences <:+ output := by
  intro o t read
  have hread : (Json.decode t.toList).map (fun v => (v.compact.printed, Json.undefinedAt [] v)) =
      .ok (read.toList, []) := by
    decide +kernel
  obtain ⟨v, ht, hv⟩ := Json.exists_of_map_eq_ok hread
  obtain ⟨hcompact, hnone⟩ := Prod.mk.inj hv
  have hnan : v.HasNoNaN := (Json.undefinedAt_eq_nil_iff (Json.wellFormed_decode ht)).1 hnone
  obtain ⟨output, changes, hvalue, -, hchanges, houtput⟩ := compare_self (o := o) 1000000 rfl ht
  exact ⟨rfl, v, ht, hcompact, output, hchanges.2 hnan ▸ hvalue, houtput.2 hnan⟩

/-- Every undefined number of a text is a difference of its own, also where keys differ in
surrogates alone. -/
example :
    (Json.decode "\x7b\"\\ud800\": NaN, \"\\ud801\": NaN\x7d".toList).map (Json.undefinedAt []) =
      .ok [[.surrogate 0], [.surrogate 1]] := by
  decide +kernel

/-- A text with an undefined number differs from itself there. -/
theorem compare_self_undefined :
    let o : Options := { Options.standard with subject := .documents }
    let t := "[1, NaN]".toList
    ∃ output, (compare o 1000000 t t).value =
        .ok (.documents output [⟨"[1]".toList, .changed, .float .nan, .float .nan⟩]) ∧
      ¬ Json.noDifferences <:+ output := by
  intro o t
  have hread : (Json.decode t).map (Json.undefinedAt []) = .ok ["[1]".toList] := by
    decide +kernel
  obtain ⟨v, ht, hv⟩ := Json.exists_of_map_eq_ok hread
  have hself : Json.differences [] v v = [Json.Change.undefined "[1]".toList] := by
    rw [Json.differences_self (Json.wellFormed_decode ht), hv]
    rfl
  have hvalue := value_compare_documents (o := o) 1000000 rfl ht ht
  rw [hself] at hvalue
  exact ⟨_, hvalue, Json.not_noDifferences_suffix v v (List.cons_ne_nil (Text.wide "[1]".toList) [])⟩

end LineDiff
end Galley
