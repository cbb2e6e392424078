/-
# The unified layout

The unified layout shows the records near a change and one mark for every gap between them.  What it
shows is said here without a walk: a record is shown if a changed one is at most so many places away
(`Near`), the list of all records is cut into stretches where shown records and others meet
(`IsCut`), and a stretch is written as its records or as one gap mark (`Stretch.lines`).

Two walks find out what is visible, one from either end, and each looks back only
(`exists_getElem?_nearBehind`).  A third walk writes the lines and has to know of a gap no more than
whether it is in one: stretch by stretch it writes what a stretch stands for
(`showVisible_flagged`).
-/

import Galley.LineDiff.Report
import Mathlib.Data.List.Chain
import Mathlib.Data.Nat.SuccPred

namespace Galley

theorem Text.unlines_eq_nil_iff {lines : List Text} : Text.unlines lines = [] ↔ lines = [] := by
  cases lines with
  | nil => exact iff_of_true rfl rfl
  | cons line lines => simp [Text.unlines]

namespace LineDiff

variable {o : Options} {reach i : Nat} {since : Option Nat} {inGap : Bool} {r : Record}
variable {rs : List Record}

/-! ### Near a change -/

/-- Whether a changed record is at most `reach` places away from a place. -/
def Near (reach : Nat) (rs : List Record) (i : Nat) : Prop :=
  ∃ x ∈ rs.zipIdx, x.1.isChanged = true ∧ i ≤ x.2 + reach ∧ x.2 ≤ i + reach

instance : Decidable (Near reach rs i) :=
  inferInstanceAs (Decidable (∃ x ∈ rs.zipIdx, _))

/-- Whether a changed record is at a place or at most `reach` places before it. -/
def Behind (reach : Nat) (rs : List Record) (i : Nat) : Prop :=
  ∃ j r, rs[j]? = some r ∧ r.isChanged = true ∧ j ≤ i ∧ i ≤ j + reach

theorem behind_cons_zero : Behind reach (r :: rs) 0 ↔ r.isChanged = true := by
  constructor
  · rintro ⟨j, s, hs, hchanged, hle, -⟩
    obtain rfl := Nat.le_zero.1 hle
    obtain rfl := Option.some.inj hs
    exact hchanged
  · intro h
    exact ⟨0, r, rfl, h, le_rfl, Nat.zero_le _⟩

theorem behind_cons_succ :
    Behind reach (r :: rs) (i + 1) ↔ r.isChanged = true ∧ i < reach ∨ Behind reach rs i := by
  constructor
  · rintro ⟨_ | j, s, hs, hchanged, hle, hreach⟩
    · obtain rfl := Option.some.inj hs
      exact Or.inl ⟨hchanged, by omega⟩
    · exact Or.inr ⟨j, s, hs, hchanged, by omega, by omega⟩
  · rintro (⟨hr, hreach⟩ | ⟨j, s, hs, hchanged, hle, hreach⟩)
    · exact ⟨0, r, rfl, hr, by omega, by omega⟩
    · exact ⟨j + 1, s, hs, hchanged, by omega, by omega⟩

/-- A changed record is near a place if it is behind it, read from one end or the other. -/
theorem near_iff (hi : i < rs.length) :
    Near reach rs i ↔ Behind reach rs i ∨ Behind reach rs.reverse (rs.length - 1 - i) := by
  constructor
  · rintro ⟨⟨r, j⟩, hr, hchanged, hij, hji⟩
    rw [List.mem_zipIdx_iff_getElem?] at hr
    rcases Nat.le_total j i with hle | hle
    · exact Or.inl ⟨j, r, hr, hchanged, hle, hij⟩
    · obtain ⟨hj, -⟩ := List.getElem?_eq_some_iff.1 hr
      have hback : rs.length - 1 - (rs.length - 1 - j) = j := by omega
      refine Or.inr ⟨rs.length - 1 - j, r, ?_, hchanged, by omega, by omega⟩
      rw [List.getElem?_reverse (by omega), hback, hr]
  · rintro (⟨j, r, hr, hchanged, hle, hreach⟩ | ⟨j, r, hr, hchanged, hle, hreach⟩)
    · exact ⟨(r, j), List.mem_zipIdx_iff_getElem?.2 hr, hchanged, hreach, by omega⟩
    · rw [List.getElem?_reverse (by omega)] at hr
      exact ⟨(r, rs.length - 1 - j), List.mem_zipIdx_iff_getElem?.2 hr, hchanged, by omega,
        by omega⟩

/-! ### What is visible -/

theorem length_nearBehind (reach : Nat) (since : Option Nat) (rs : List Record) :
    (nearBehind reach since rs).length = rs.length := by
  induction rs generalizing since with
  | nil => rfl
  | cons r rs ih => rw [nearBehind, List.length_cons, List.length_cons, ih]

/-- **Looking back.**  A walk finds the changed records behind a place, and one that was `since`
records before its first. -/
theorem exists_getElem?_nearBehind (reach : Nat) (since : Option Nat) (hi : i < rs.length) :
    ∃ b, (nearBehind reach since rs)[i]? = some b ∧
      (b = true ↔ Behind reach rs i ∨ ∃ d ∈ since, d + i < reach) := by
  induction rs generalizing since i with
  | nil => simp at hi
  | cons r rs ih =>
    cases i with
    | zero =>
      refine ⟨_, rfl, ?_⟩
      rw [behind_cons_zero]
      cases hr : r.isChanged with
      | true => simp
      | false => cases since <;> simp
    | succ i =>
      obtain ⟨b, hb, hiff⟩ := ih (if r.isChanged then some 0 else since.map (· + 1))
        (Nat.lt_of_succ_lt_succ hi)
      refine ⟨b, hb, hiff.trans ?_⟩
      rw [behind_cons_succ]
      cases hr : r.isChanged with
      | true =>
        -- what lies behind this record is further away than the record
        have hfar : (∃ d ∈ since, d + (i + 1) < reach) → i < reach := by
          rintro ⟨d, -, hd⟩
          omega
        simp only [if_pos, true_and, Option.mem_some_iff, exists_eq_left', Nat.zero_add]
        exact ⟨fun h => Or.inl h.symm, fun h => (h.elim id fun h => Or.inl (hfar h)).symm⟩
      | false => cases since <;> simp [Nat.add_right_comm, Nat.add_assoc]

/-- **A record is visible if it is near a change.** -/
theorem getElem?_visible (reach : Nat) (hi : i < rs.length) :
    (visible reach rs)[i]? = some (decide (Near reach rs i)) := by
  have hi' : rs.length - 1 - i < rs.reverse.length := by
    rw [List.length_reverse]
    omega
  obtain ⟨a, ha, hbehind⟩ := exists_getElem?_nearBehind reach none hi
  obtain ⟨b, hb, hahead⟩ := exists_getElem?_nearBehind reach none hi'
  have hor : (a || b) = decide (Near reach rs i) := by
    rw [Bool.eq_iff_iff, Bool.or_eq_true, hbehind, hahead, decide_eq_true_iff, near_iff hi]
    simp
  rw [visible, List.getElem?_zipWith, ha, List.getElem?_reverse (by simpa [length_nearBehind]),
    length_nearBehind, List.length_reverse, hb, ← hor]

/-- **What is visible is what is near a change.** -/
theorem visible_eq (reach : Nat) (rs : List Record) :
    visible reach rs = rs.zipIdx.map fun x => decide (Near reach rs x.2) := by
  refine List.ext_getElem? fun i => ?_
  rw [List.getElem?_map, List.getElem?_zipIdx]
  rcases Nat.lt_or_ge i rs.length with hi | hi
  · rw [getElem?_visible reach hi, List.getElem?_eq_getElem hi]
    simp
  · have hnone : (visible reach rs)[i]? = none :=
      List.getElem?_eq_none (by simpa [visible, length_nearBehind])
    rw [hnone, List.getElem?_eq_none hi]
    rfl

/-- Every record is told whether it is visible. -/
theorem length_visible (reach : Nat) (rs : List Record) :
    (visible reach rs).length = rs.length := by
  rw [visible_eq, List.length_map, List.length_zipIdx]

/-- The records beside what is visible of them. -/
theorem zip_visible (reach : Nat) (rs : List Record) :
    rs.zip (visible reach rs) = rs.zipIdx.map fun x => (x.1, decide (Near reach rs x.2)) := by
  calc rs.zip (visible reach rs)
      = (rs.zipIdx.map Prod.fst).zip (rs.zipIdx.map fun x => decide (Near reach rs x.2)) := by
        rw [visible_eq, List.zipIdx_map_fst]
    _ = rs.zipIdx.map fun x => (x.1, decide (Near reach rs x.2)) := List.zip_map'

/-! ### Stretches -/

/-- Records that stand together, with their places, and whether they are shown. -/
structure Stretch where
  shown : Bool
  records : List (Record × Nat)

namespace Stretch

/-- The lines of a stretch: its records behind their marks, or one gap mark. -/
def lines (s : Stretch) : List Text :=
  if s.shown then s.records.map fun x => x.1.marked else [gapMark]

/-- The records of a stretch as they are written. -/
def flagged (s : Stretch) : List (Record × Bool) := s.records.map fun x => (x.1, s.shown)

end Stretch

/-- Whether stretches are records with their places, cut where shown records and others meet. -/
structure IsCut (shown : Nat → Bool) (xs : List (Record × Nat)) (ss : List Stretch) : Prop where
  records_eq : ss.flatMap Stretch.records = xs
  ne_nil : ∀ s ∈ ss, s.records ≠ []
  shown_eq : ∀ s ∈ ss, ∀ x ∈ s.records, s.shown = shown x.2
  alternate : ss.IsChain fun s s' => s.shown ≠ s'.shown

variable {shown : Nat → Bool} {x : Record × Nat} {xs : List (Record × Nat)} {s : Stretch}
variable {ss : List Stretch}

namespace IsCut

/-- A record makes a stretch of its own where the next one is not of its kind. -/
theorem single (h : IsCut shown xs ss) (hx : ∀ s ∈ ss.head?, shown x.2 ≠ s.shown) :
    IsCut shown (x :: xs) (⟨shown x.2, [x]⟩ :: ss) where
  records_eq := by rw [List.flatMap_cons, h.records_eq]; rfl
  ne_nil := List.forall_mem_cons.2 ⟨by simp, h.ne_nil⟩
  shown_eq := List.forall_mem_cons.2 ⟨by simp, h.shown_eq⟩
  alternate := h.alternate.cons hx

/-- A record joins the next stretch where that is of its kind. -/
theorem join (h : IsCut shown xs (s :: ss)) (hx : shown x.2 = s.shown) :
    IsCut shown (x :: xs) (⟨s.shown, x :: s.records⟩ :: ss) where
  records_eq := by rw [← h.records_eq]; rfl
  ne_nil := List.forall_mem_cons.2 ⟨by simp, (List.forall_mem_cons.1 h.ne_nil).2⟩
  shown_eq := by
    obtain ⟨hs, hss⟩ := List.forall_mem_cons.1 h.shown_eq
    exact List.forall_mem_cons.2 ⟨List.forall_mem_cons.2 ⟨hx.symm, hs⟩, hss⟩
  alternate := by
    obtain ⟨hs, hss⟩ := List.isChain_cons.1 h.alternate
    exact hss.cons hs

end IsCut

/-- **Records can be cut into stretches.** -/
theorem exists_isCut (shown : Nat → Bool) (xs : List (Record × Nat)) :
    ∃ ss, IsCut shown xs ss := by
  induction xs with
  | nil => exact ⟨[], rfl, by simp, by simp, .nil⟩
  | cons x xs ih =>
    obtain ⟨ss, hss⟩ := ih
    by_cases hx : ∃ s ∈ ss.head?, shown x.2 = s.shown
    · obtain ⟨s, hs, hx⟩ := hx
      obtain ⟨ss, rfl⟩ := List.head?_eq_some_iff.1 hs
      exact ⟨_, hss.join hx⟩
    · exact ⟨_, hss.single fun s hs hsx => hx ⟨s, hs, hsx⟩⟩

/-! ### The lines -/

variable {l : List (Record × Bool)}

theorem showVisible_shown (xs : List (Record × Nat)) (l : List (Record × Bool)) :
    showVisible false (xs.map (fun x => (x.1, true)) ++ l) =
      xs.map (fun x => x.1.marked) ++ showVisible false l := by
  induction xs with
  | nil => rfl
  | cons x xs ih => rw [List.map_cons, List.cons_append, showVisible, ih]; rfl

/-- Nothing more is written in a gap. -/
theorem showVisible_hidden (xs : List (Record × Nat)) (l : List (Record × Bool)) :
    showVisible true (xs.map (fun x => (x.1, false)) ++ l) = showVisible true l := by
  induction xs with
  | nil => rfl
  | cons x xs ih => rw [List.map_cons, List.cons_append, showVisible, ih]; rfl

/-- A gap is over where a record is shown, and at the end. -/
theorem showVisible_true (h : ∀ x ∈ l.head?, x.2 = true) :
    showVisible true l = showVisible false l := by
  cases l with
  | nil => rfl
  | cons x l =>
    obtain ⟨r, shown⟩ := x
    obtain rfl : shown = true := h _ rfl
    rfl

/-- A stretch that is shown begins with a shown record. -/
theorem Stretch.head?_flagged (hne : ∀ s ∈ ss, s.records ≠ [])
    (hshown : ∀ s ∈ ss.head?, s.shown = true) :
    ∀ x ∈ (ss.flatMap Stretch.flagged).head?, x.2 = true := by
  cases ss with
  | nil => simp
  | cons s ss =>
    obtain ⟨x, xs, hx⟩ := List.exists_cons_of_ne_nil (hne s (List.mem_cons_self ..))
    simpa [Stretch.flagged, hx] using hshown s rfl

/-- **A stretch is written as what it stands for.** -/
theorem showVisible_flagged (hne : ∀ s ∈ ss, s.records ≠ [])
    (halternate : ss.IsChain fun s s' => s.shown ≠ s'.shown) :
    showVisible false (ss.flatMap Stretch.flagged) = ss.flatMap Stretch.lines := by
  induction ss with
  | nil => rfl
  | cons s ss ih =>
    obtain ⟨shown, xs⟩ := s
    obtain ⟨hs, hrest⟩ := List.forall_mem_cons.1 hne
    obtain ⟨hnext, hchain⟩ := List.isChain_cons.1 halternate
    rw [List.flatMap_cons, List.flatMap_cons, ← ih hrest hchain, Stretch.flagged]
    cases shown with
    | true => exact showVisible_shown xs _
    | false =>
      -- the first record begins the gap, and the next stretch ends it
      obtain ⟨x, xs, rfl⟩ := List.exists_cons_of_ne_nil hs
      have hend := Stretch.head?_flagged hrest fun s hs => by simpa using hnext s hs
      rw [List.map_cons, List.cons_append, showVisible, showVisible_hidden, showVisible_true hend]
      rfl

/-- The records of stretches beside what is shown of them. -/
theorem IsCut.map_eq (h : IsCut shown xs ss) :
    xs.map (fun x => (x.1, shown x.2)) = ss.flatMap Stretch.flagged := by
  rw [← h.records_eq, List.map_flatMap]
  refine List.flatMap_congr fun s hs => List.map_congr_left fun x hx => ?_
  rw [h.shown_eq s hs x hx]

theorem marked_ne_gapMark (r : Record) : r.marked ≠ gapMark := by
  cases h : r.fate <;> simp [Record.marked, Fate.mark, gapMark, h]

/-- **There is one gap mark for every stretch that is left out.** -/
theorem count_gapMark (ss : List Stretch) :
    (ss.flatMap Stretch.lines).count gapMark = ss.countP fun s => !s.shown := by
  induction ss with
  | nil => rfl
  | cons s ss ih =>
    rw [List.flatMap_cons, List.count_append, ih, List.countP_cons, Nat.add_comm]
    cases hs : s.shown with
    | true =>
      have hnone : (s.records.map fun x => x.1.marked).count gapMark = 0 := by
        rw [List.count_eq_zero, List.mem_map]
        rintro ⟨x, -, hx⟩
        exact marked_ne_gapMark x.1 hx
      simp [Stretch.lines, hs, hnone]
    | false => simp [Stretch.lines, hs]

/-! ### The layout -/

/-- The first record is shown or begins a gap. -/
theorem showVisible_ne_nil (hl : l ≠ []) : showVisible false l ≠ [] := by
  obtain ⟨⟨r, shown⟩, l, rfl⟩ := List.exists_cons_of_ne_nil hl
  cases shown with
  | true => exact List.cons_ne_nil _ _
  | false => exact List.cons_ne_nil _ _

/-- **The unified layout is empty exactly when nothing changed.** -/
theorem unified_eq_nil_iff : unified o rs = [] ↔ ∀ r ∈ rs, r.isChanged = false := by
  rw [unified, Text.unlines_eq_nil_iff, unifiedLines]
  split
  · rename_i hchanged
    obtain ⟨r, hr, hchanged⟩ := List.any_eq_true.1 hchanged
    have hpos : 0 < rs.length := List.length_pos_of_mem hr
    have hzip : rs.zip (visible o.contextLines rs) ≠ [] := by
      rw [← List.length_pos_iff, List.length_zip, length_visible, Nat.min_self]
      exact hpos
    refine iff_of_false (showVisible_ne_nil hzip) fun h => ?_
    rw [h r hr] at hchanged
    exact absurd hchanged (by decide)
  · rename_i hsame
    exact iff_of_true rfl (by simpa using hsame)

/-- **A changed record is near itself.** -/
theorem near_of_isChanged {x : Record × Nat} (hx : x ∈ rs.zipIdx) (h : x.1.isChanged = true) :
    Near reach rs x.2 :=
  ⟨x, hx, h, Nat.le_add_right _ _, Nat.le_add_right _ _⟩

/-- The lines of the unified layout are those of the stretches of its records. -/
theorem unifiedLines_eq (h : ∃ r ∈ rs, r.isChanged = true)
    (hss : IsCut (fun i => decide (Near o.contextLines rs i)) rs.zipIdx ss) :
    unifiedLines o rs = ss.flatMap Stretch.lines := by
  rw [unifiedLines, if_pos (List.any_eq_true.2 h), zip_visible, hss.map_eq,
    showVisible_flagged hss.ne_nil hss.alternate]

/-- **The unified layout is exact.**  It is empty when nothing changed; else the records near a change
stand in it in their order, and one gap mark for every stretch of others, all of them unchanged. -/
theorem unified_stretches (o : Options) (rs : List Record) :
    (unified o rs = [] ↔ ∀ r ∈ rs, r.isChanged = false) ∧
      ((∃ r ∈ rs, r.isChanged = true) →
        ∃ ss, IsCut (fun i => decide (Near o.contextLines rs i)) rs.zipIdx ss ∧
          unified o rs = Text.unlines (ss.flatMap Stretch.lines) ∧
          (ss.flatMap Stretch.lines).count gapMark = ss.countP fun s => !s.shown) ∧
      ∀ x ∈ rs.zipIdx, ¬Near o.contextLines rs x.2 → x.1.fate = .unchanged := by
  refine ⟨unified_eq_nil_iff, fun h => ?_, fun x hx hfar => ?_⟩
  · obtain ⟨ss, hss⟩ := exists_isCut (fun i => decide (Near o.contextLines rs i)) rs.zipIdx
    exact ⟨ss, hss, congrArg Text.unlines (unifiedLines_eq h hss), count_gapMark ss⟩
  · have hsame : x.1.isChanged = false :=
      Bool.eq_false_iff.2 fun hchanged => hfar (near_of_isChanged hx hchanged)
    simpa [Record.isChanged] using hsame

/-- Changes three and four records apart, the last at the end: with one record of context the first
two are shown without a gap between them. -/
theorem unified_stretches_touching :
    let o : Options := { Options.standard with contextLines := 1 }
    let kept (n : Int) (c : Text) : Record := .unchanged n n c c
    let rs : List Record :=
      [kept 1 "a".toList, kept 2 "b".toList, .removed 3 "c".toList, kept 4 "d".toList,
        kept 5 "e".toList, .added 6 "f".toList, kept 7 "g".toList, kept 8 "...".toList,
        kept 9 "i".toList, .removed 10 "j".toList]
    (∃ r ∈ rs, r.isChanged = true) ∧ ¬Near o.contextLines rs 0 ∧ ¬Near o.contextLines rs 7 ∧
      unified o rs = "...\n  b\n- c\n  d\n  e\n+ f\n  g\n...\n  i\n- j\n".toList ∧
      (∃ ss, IsCut (fun i => decide (Near o.contextLines rs i)) rs.zipIdx ss ∧
        unified o rs = Text.unlines (ss.flatMap Stretch.lines) ∧
        (ss.flatMap Stretch.lines).count gapMark = ss.countP fun s => !s.shown) ∧
      ∀ x ∈ rs.zipIdx, ¬Near o.contextLines rs x.2 → x.1.fate = .unchanged := by
  intro o kept rs
  have hchanged : ∃ r ∈ rs, r.isChanged = true := by decide
  obtain ⟨-, hlines, hsame⟩ := unified_stretches o rs
  exact ⟨hchanged, by decide, by decide, by decide +kernel, hlines hchanged, hsame⟩

end LineDiff
end Galley
