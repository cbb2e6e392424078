/-
# Patterns

A pattern describes beginnings of a text.  It may match in several ways, and they are tried in a fixed
order: of two alternatives the first one first, and of a run of characters the longest one first.
The first way counts (`Pattern.ways`).

For each kind of pattern a lemma says which ways there are (`mem_ways_word`, `mem_ways_run` and so
on).  Most patterns are about a part of a line: what they take is a beginning of the line that has some
property, and the property is put together like the pattern (`Pattern.Takes`).

No way loses a character (`Pattern.taken_append_rest`), and every way takes as many characters as the
pattern needs at least (`Pattern.least_le_length`).
-/

import Galley.Proofs.Text.Lines
import Mathlib.Data.List.TakeWhile

namespace Galley

namespace Highlight

/-- A description of beginnings of a text.  The groups of a pattern are numbered. -/
inductive Pattern where
  | lineStart
  | word (w : Text)
  | run (least : Nat) (p : Char → Bool)
  | seq (p q : Pattern)
  | either (p q : Pattern)
  | group (i : Nat) (p : Pattern)

/-- A way to match a pattern: what it takes, what of that the groups take, and what it leaves. -/
structure Match where
  taken : Text
  groups : List (Nat × Text)
  rest : Text

namespace Match

/-- One match and another one behind it. -/
def append (m n : Match) : Match := ⟨m.taken ++ n.taken, m.groups ++ n.groups, n.rest⟩

/-- A match that a group takes. -/
def inGroup (i : Nat) (m : Match) : Match := { m with groups := m.groups ++ [(i, m.taken)] }

/-- What a group takes, if it takes part. -/
def group? (i : Nat) (m : Match) : Option Text := (m.groups.find? fun g => g.1 == i).map Prod.snd

/-- What a group takes is found if no other group has its number. -/
theorem group?_of_mem {i : Nat} {u : Text} {m : Match} (hm : (m.groups.map Prod.fst).Nodup)
    (h : (i, u) ∈ m.groups) : m.group? i = some u := by
  obtain ⟨gs, hs, hgroups⟩ := List.append_of_mem h
  rw [hgroups, List.map_append, List.map_cons] at hm
  have hfresh : ∀ g ∈ gs, (!(g.1 == i)) = true := by
    intro g hg
    have hne : g.1 ≠ i := fun hi =>
      (List.nodup_append.1 hm).2.2 _ (List.mem_map_of_mem hg) _ (List.mem_cons_self ..) hi
    simpa using hne
  have hfind : m.groups.find? (fun g => g.1 == i) = some (i, u) :=
    List.find?_eq_some_iff_append.2 ⟨beq_self_eq_true i, gs, hs, hgroups, hfresh⟩
  rw [group?, hfind]
  rfl

end Match

/-- Whether a line starts behind a text; `atStart` says whether one starts before it. -/
def startsLine (atStart : Bool) (t : Text) : Bool := t.getLast?.elim atStart (· == '\n')

namespace Pattern

instance : Append Pattern := ⟨seq⟩

/-- A pattern or nothing. -/
def optional (p : Pattern) : Pattern := .either p (.word [])

/-- The ways to match a pattern with the beginning of a text, in the order in which they are tried. -/
def ways : Pattern → Bool → Text → List Match
  | .lineStart, atStart, t => if atStart then [⟨[], [], t⟩] else []
  | .word w, _, t => if w.isPrefixOf t then [⟨w, [], t.drop w.length⟩] else []
  | .run least p, _, t =>
    (List.range' least ((t.takeWhile p).length + 1 - least)).reverse.map fun n =>
      ⟨t.take n, [], t.drop n⟩
  | .seq p q, atStart, t =>
    (p.ways atStart t).flatMap fun m => (q.ways (startsLine atStart m.taken) m.rest).map m.append
  | .either p q, atStart, t => p.ways atStart t ++ q.ways atStart t
  | .group i p, atStart, t => (p.ways atStart t).map (Match.inGroup i)

/-- The fewest characters that a pattern takes. -/
def least : Pattern → Nat
  | .lineStart => 0
  | .word w => w.length
  | .run least _ => least
  | .seq p q => p.least + q.least
  | .either p q => min p.least q.least
  | .group _ p => p.least

variable {p q : Pattern} {atStart : Bool} {i n : Nat} {w t : Text} {f : Char → Bool} {m : Match}

/-! ### Which ways there are -/

theorem ways_lineStart_append_true (p : Pattern) (t : Text) :
    (lineStart ++ p).ways true t = p.ways true t := by
  have hways : (lineStart ++ p).ways true t =
      ((p.ways true t).map (Match.append ⟨[], [], t⟩)) ++ [] := rfl
  rw [hways, List.append_nil]
  exact List.map_id _

theorem mem_ways_word :
    m ∈ (word w).ways atStart t ↔ ∃ rest, t = w ++ rest ∧ m = ⟨w, [], rest⟩ := by
  rw [ways]
  split
  · rename_i h
    obtain ⟨rest, rfl⟩ := List.isPrefixOf_iff_prefix.1 h
    simp
  · rename_i h
    refine iff_of_false List.not_mem_nil ?_
    rintro ⟨rest, rfl, -⟩
    exact h (List.isPrefixOf_iff_prefix.2 (List.prefix_append w rest))

theorem mem_ways_run :
    m ∈ (run n f).ways atStart t ↔
      ∃ u rest, t = u ++ rest ∧ n ≤ u.length ∧ (∀ c ∈ u, f c = true) ∧ m = ⟨u, [], rest⟩ := by
  rw [ways, List.mem_map]
  constructor
  · rintro ⟨k, hk, rfl⟩
    rw [List.mem_reverse, List.mem_range'_1] at hk
    have hle : k ≤ (t.takeWhile f).length := by omega
    have hlength : (t.take k).length = k :=
      List.length_take_of_le (hle.trans (List.takeWhile_prefix f).length_le)
    have hbegins : t.take k <+: t.takeWhile f :=
      List.prefix_of_prefix_length_le (List.take_prefix k t) (List.takeWhile_prefix f) (by omega)
    exact ⟨_, _, (List.take_append_drop k t).symm, by omega,
      fun c hc => List.mem_takeWhile_imp (hbegins.subset hc), rfl⟩
  · rintro ⟨u, rest, rfl, hn, hu, rfl⟩
    refine ⟨u.length, ?_, by simp⟩
    rw [List.mem_reverse, List.mem_range'_1, List.takeWhile_append_of_pos hu, List.length_append]
    omega

theorem mem_ways_append :
    m ∈ (p ++ q).ways atStart t ↔
      ∃ x ∈ p.ways atStart t, ∃ y ∈ q.ways (startsLine atStart x.taken) x.rest, m = x.append y := by
  have hseq : (p ++ q).ways atStart t = (seq p q).ways atStart t := rfl
  rw [hseq, ways, List.mem_flatMap]
  simp only [List.mem_map, eq_comm]

theorem mem_ways_either :
    m ∈ (either p q).ways atStart t ↔ m ∈ p.ways atStart t ∨ m ∈ q.ways atStart t :=
  List.mem_append

theorem mem_ways_group :
    m ∈ (group i p).ways atStart t ↔ ∃ x ∈ p.ways atStart t, m = x.inGroup i := by
  rw [ways, List.mem_map]
  simp only [eq_comm]

/-! ### What all ways have in common -/

/-- **No way loses a character.** -/
theorem taken_append_rest (h : m ∈ p.ways atStart t) : m.taken ++ m.rest = t := by
  induction p generalizing atStart t m with
  | lineStart =>
    cases atStart with
    | true => rw [List.mem_singleton.1 h]; rfl
    | false => cases h
  | word w =>
    obtain ⟨rest, rfl, rfl⟩ := mem_ways_word.1 h
    rfl
  | run n f =>
    obtain ⟨u, rest, rfl, -, -, rfl⟩ := mem_ways_run.1 h
    rfl
  | seq p q ihp ihq =>
    obtain ⟨x, hx, y, hy, rfl⟩ := mem_ways_append.1 h
    rw [← ihp hx, ← ihq hy]
    exact List.append_assoc ..
  | either p q ihp ihq => exact (mem_ways_either.1 h).elim ihp ihq
  | group i p ih =>
    obtain ⟨x, hx, rfl⟩ := mem_ways_group.1 h
    exact (ih hx :)

/-- **Every way takes as much as the pattern needs.** -/
theorem least_le_length (h : m ∈ p.ways atStart t) : p.least ≤ m.taken.length := by
  induction p generalizing atStart t m with
  | lineStart => exact Nat.zero_le _
  | word w =>
    obtain ⟨rest, -, rfl⟩ := mem_ways_word.1 h
    exact le_rfl
  | run n f =>
    obtain ⟨u, rest, -, hn, -, rfl⟩ := mem_ways_run.1 h
    exact hn
  | seq p q ihp ihq =>
    obtain ⟨x, hx, y, hy, rfl⟩ := mem_ways_append.1 h
    have hp := ihp hx
    have hq := ihq hy
    rw [least, Match.append, List.length_append]
    omega
  | either p q ihp ihq =>
    rw [least]
    rcases mem_ways_either.1 h with h | h
    · exact (Nat.min_le_left _ _).trans (ihp h)
    · exact (Nat.min_le_right _ _).trans (ihq h)
  | group i p ih =>
    obtain ⟨x, hx, rfl⟩ := mem_ways_group.1 h
    exact (ih hx :)

/-! ### Groups that take all -/

/-- Whether a pattern has no groups. -/
def isGroupless : Pattern → Bool
  | .seq p q | .either p q => p.isGroupless && q.isGroupless
  | .group _ _ => false
  | _ => true

/-- The groups of a pattern in their order, if between them they take all that the pattern takes. -/
def tiling : Pattern → Option (List Nat)
  | .lineStart => some []
  | .seq p q => p.tiling.bind fun is => q.tiling.map (is ++ ·)
  | .group i p => if p.isGroupless then some [i] else none
  | _ => none

theorem groups_eq_nil (hp : p.isGroupless = true) (h : m ∈ p.ways atStart t) : m.groups = [] := by
  induction p generalizing atStart t m with
  | lineStart =>
    cases atStart with
    | true => rw [List.mem_singleton.1 h]
    | false => cases h
  | word w =>
    obtain ⟨rest, -, rfl⟩ := mem_ways_word.1 h
    rfl
  | run n f =>
    obtain ⟨u, rest, -, -, -, rfl⟩ := mem_ways_run.1 h
    rfl
  | seq p q ihp ihq =>
    obtain ⟨hp, hq⟩ := Bool.and_eq_true_iff.1 hp
    obtain ⟨x, hx, y, hy, rfl⟩ := mem_ways_append.1 h
    rw [Match.append, ihp hp hx, ihq hq hy, List.append_nil]
  | either p q ihp ihq =>
    obtain ⟨hp, hq⟩ := Bool.and_eq_true_iff.1 hp
    exact (mem_ways_either.1 h).elim (ihp hp) (ihq hq)
  | group i p ih => cases hp

/-- **The groups of a tiling** take part in every way, and what they take is what the pattern takes. -/
theorem groups_of_tiling {is : List Nat} (hp : p.tiling = some is) (h : m ∈ p.ways atStart t) :
    m.groups.map Prod.fst = is ∧ m.groups.flatMap Prod.snd = m.taken := by
  induction p generalizing atStart t m is with
  | lineStart =>
    obtain rfl := Option.some.inj hp
    cases atStart with
    | true => rw [List.mem_singleton.1 h]; exact ⟨rfl, rfl⟩
    | false => cases h
  | word w => cases hp
  | run n f => cases hp
  | seq p q ihp ihq =>
    obtain ⟨is, his, hrest⟩ := Option.bind_eq_some_iff.1 hp
    obtain ⟨js, hjs, rfl⟩ := Option.map_eq_some_iff.1 hrest
    obtain ⟨x, hx, y, hy, rfl⟩ := mem_ways_append.1 h
    obtain ⟨hxs, hxt⟩ := ihp his hx
    obtain ⟨hys, hyt⟩ := ihq hjs hy
    simp only [Match.append, List.map_append, List.flatMap_append, hxs, hys, hxt, hyt, and_self]
  | either p q => cases hp
  | group i p =>
    obtain ⟨hgroupless, his⟩ := Option.ite_none_right_eq_some.1 hp
    obtain rfl := Option.some.inj his
    obtain ⟨x, hx, rfl⟩ := mem_ways_group.1 h
    rw [Match.inGroup, groups_eq_nil hgroupless hx]
    exact ⟨rfl, List.append_nil _⟩

/-! ### Within a line -/

/-- Whether a pattern, at any place of a line, takes the beginnings of what is left of the line that
have a property, and has no groups. -/
def Takes (p : Pattern) (P : Text → Prop) : Prop :=
  ∀ atStart line more m, m ∈ p.ways atStart (line ++ '\n' :: more) ↔
    ∃ u v, P u ∧ line = u ++ v ∧ m = ⟨u, [], v ++ '\n' :: more⟩

namespace Takes

variable {P Q : Text → Prop} {line more : Text}

theorem congr (h : p.Takes P) (hPQ : ∀ u, P u ↔ Q u) : p.Takes Q := by
  intro atStart line more m
  simp only [h atStart line more m, hPQ]

theorem word (hw : '\n' ∉ w) : (Pattern.word w).Takes (· = w) := by
  intro atStart line more m
  rw [mem_ways_word]
  simp only [Text.append_mark_eq_append_iff hw]
  constructor
  · rintro ⟨_, ⟨v, rfl, rfl⟩, rfl⟩
    exact ⟨w, v, rfl, rfl, rfl⟩
  · rintro ⟨_, v, rfl, rfl, rfl⟩
    exact ⟨_, ⟨v, rfl, rfl⟩, rfl⟩

theorem run (hf : f '\n' = false) :
    (Pattern.run n f).Takes fun u => n ≤ u.length ∧ ∀ c ∈ u, f c = true := by
  intro atStart line more m
  rw [mem_ways_run]
  have hfree : ∀ u : Text, (∀ c ∈ u, f c = true) → '\n' ∉ u := by
    intro u hu hmem
    rw [hu _ hmem] at hf
    cases hf
  constructor
  · rintro ⟨u, rest, h, hn, hu, rfl⟩
    obtain ⟨v, rfl, rfl⟩ := (Text.append_mark_eq_append_iff (hfree u hu)).1 h
    exact ⟨u, v, ⟨hn, hu⟩, rfl, rfl⟩
  · rintro ⟨u, v, ⟨hn, hu⟩, rfl, rfl⟩
    exact ⟨u, _, List.append_assoc .., hn, hu, rfl⟩

theorem append (hp : p.Takes P) (hq : q.Takes Q) :
    (p ++ q).Takes fun u => ∃ a b, P a ∧ Q b ∧ u = a ++ b := by
  intro atStart line more m
  rw [mem_ways_append]
  constructor
  · rintro ⟨x, hx, y, hy, rfl⟩
    obtain ⟨a, v, ha, rfl, rfl⟩ := (hp ..).1 hx
    obtain ⟨b, v, hb, rfl, rfl⟩ := (hq ..).1 hy
    exact ⟨_, v, ⟨a, b, ha, hb, rfl⟩, (List.append_assoc ..).symm, rfl⟩
  · rintro ⟨_, v, ⟨a, b, ha, hb, rfl⟩, rfl, rfl⟩
    exact ⟨_, (hp ..).2 ⟨a, b ++ v, ha, List.append_assoc .., rfl⟩, _,
      (hq ..).2 ⟨b, v, hb, rfl, rfl⟩, rfl⟩

theorem either (hp : p.Takes P) (hq : q.Takes Q) :
    (Pattern.either p q).Takes fun u => P u ∨ Q u := by
  intro atStart line more m
  rw [mem_ways_either, hp, hq]
  simp only [or_and_right, exists_or]

theorem optional (hp : p.Takes P) : p.optional.Takes fun u => P u ∨ u = [] :=
  hp.either (word List.not_mem_nil)

/-- A group before other patterns. -/
theorem mem_ways_group_append (hp : p.Takes P) :
    m ∈ (group i p ++ q).ways atStart (line ++ '\n' :: more) ↔
      ∃ u v, P u ∧ line = u ++ v ∧ ∃ y ∈ q.ways (startsLine atStart u) (v ++ '\n' :: more),
        m = ⟨u ++ y.taken, (i, u) :: y.groups, y.rest⟩ := by
  rw [mem_ways_append]
  constructor
  · rintro ⟨_, hgroup, y, hy, rfl⟩
    obtain ⟨x, hx, rfl⟩ := mem_ways_group.1 hgroup
    obtain ⟨u, v, hu, rfl, rfl⟩ := (hp ..).1 hx
    exact ⟨u, v, hu, rfl, y, hy, rfl⟩
  · rintro ⟨u, v, hu, rfl, y, hy, rfl⟩
    exact ⟨_, mem_ways_group.2 ⟨_, (hp ..).2 ⟨u, v, hu, rfl, rfl⟩, rfl⟩, y, hy, rfl⟩

/-- A pattern before other patterns. -/
theorem mem_ways_append (hp : p.Takes P) :
    m ∈ (p ++ q).ways atStart (line ++ '\n' :: more) ↔
      ∃ u v, P u ∧ line = u ++ v ∧ ∃ y ∈ q.ways (startsLine atStart u) (v ++ '\n' :: more),
        m = ⟨u ++ y.taken, y.groups, y.rest⟩ := by
  rw [Pattern.mem_ways_append]
  constructor
  · rintro ⟨_, hx, y, hy, rfl⟩
    obtain ⟨u, v, hu, rfl, rfl⟩ := (hp ..).1 hx
    exact ⟨u, v, hu, rfl, y, hy, rfl⟩
  · rintro ⟨u, v, hu, rfl, y, hy, rfl⟩
    exact ⟨_, (hp ..).2 ⟨u, v, hu, rfl, rfl⟩, y, hy, rfl⟩

/-- A group has a way if what it takes is there and there is a way behind it. -/
theorem ways_group_append_ne_nil {u v : Text} (hp : p.Takes P) (hu : P u) (hline : line = u ++ v)
    (hq : q.ways (startsLine atStart u) (v ++ '\n' :: more) ≠ []) :
    (group i p ++ q).ways atStart (line ++ '\n' :: more) ≠ [] := by
  obtain ⟨y, hy⟩ := List.exists_mem_of_ne_nil _ hq
  exact List.ne_nil_of_mem (hp.mem_ways_group_append.2 ⟨u, v, hu, hline, y, hy, rfl⟩)

theorem ways_append_ne_nil {u v : Text} (hp : p.Takes P) (hu : P u) (hline : line = u ++ v)
    (hq : q.ways (startsLine atStart u) (v ++ '\n' :: more) ≠ []) :
    (p ++ q).ways atStart (line ++ '\n' :: more) ≠ [] := by
  obtain ⟨y, hy⟩ := List.exists_mem_of_ne_nil _ hq
  exact List.ne_nil_of_mem (hp.mem_ways_append.2 ⟨u, v, hu, hline, y, hy, rfl⟩)

end Takes

/-! ### The first way -/

theorem head?_ways_word (w t : Text) :
    ((word w).ways atStart (w ++ t)).head? = some ⟨w, [], t⟩ := by
  simp [ways]

/-- **The first way** through two patterns is the first way of the second behind the first way of the
first, if there is one. -/
theorem head?_ways_append {x y : Match} (hx : (p.ways atStart t).head? = some x)
    (hy : (q.ways (startsLine atStart x.taken) x.rest).head? = some y) :
    ((p ++ q).ways atStart t).head? = some (x.append y) := by
  obtain ⟨xs, hxs⟩ := List.head?_eq_some_iff.1 hx
  obtain ⟨ys, hys⟩ := List.head?_eq_some_iff.1 hy
  have hseq : (p ++ q).ways atStart t = (seq p q).ways atStart t := rfl
  rw [hseq, ways, hxs, List.flatMap_cons, hys]
  rfl

theorem head?_ways_group (i : Nat) (p : Pattern) :
    ((group i p).ways atStart t).head? = ((p.ways atStart t).head?).map (Match.inGroup i) := by
  rw [ways, List.head?_map]

/-- A pattern that may be missing is taken if it is there. -/
theorem head?_ways_optional (p : Pattern) (atStart : Bool) (t : Text) :
    (p.optional.ways atStart t).head? = some ((p.ways atStart t).head?.getD ⟨[], [], t⟩) := by
  have heither : p.optional.ways atStart t = p.ways atStart t ++ [⟨[], [], t⟩] := rfl
  rw [heither, List.head?_append]
  cases (p.ways atStart t).head? <;> rfl

end Pattern
end Highlight
end Galley
