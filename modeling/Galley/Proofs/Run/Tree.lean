/-
# What operations do to a tree

To put an entry somewhere changes what is found there and nothing else (`Tree.entry?_put`).

A directory is only put where nothing is.  So what that keeps, making directories keeps
(`Tree.makeDirectories_induction`): it changes no file and no link (`Tree.SameFiles`).

To write a file fills that file alone (`Tree.exists_overwrites`), and every path leads where it led,
since a tree that has more files only extends the one before (`Tree.Extends`).

The file of a page may be the file of the output: there may be a link between them, or they may be
two names of one file.  A tree without such things is `Tree.Unlinked`, operations leave it so, and
there the path of a page leads to another place than the path of the output
(`Tree.Unlinked.resolve_withEnding_ne`), whatever dots are in them.
-/

import Galley.Run.Tree
import Mathlib.Data.List.Basic

namespace Galley

/-- The last name of a path is not the one that the path of a page ends with. -/
theorem Path.ne_name_append (init : List Text) (n : Text) :
    n ≠ Path.name ⟨init ++ [n]⟩ ++ ".html".toList := by
  intro h
  have hname : Path.name ⟨init ++ [n]⟩ = if n = top then [] else n := by
    rw [name, List.getLast?_concat]
  rw [hname] at h
  split at h
  · -- the top has a name of its own, which the path does not show
    rename_i htop
    rw [htop] at h
    exact absurd h (by decide)
  · have hlen := congrArg List.length h
    rw [List.length_append] at hlen
    simp at hlen

namespace Tree

variable {t u v : Tree} {l m k : Location} {p q : Path} {c : Content} {e : Entry} {ns : List Text}
variable {i j : Nat}

/-! ### Putting an entry -/

theorem entry?_nil (t : Tree) : t.entry? [] = some .directory := if_pos rfl

theorem ne_nil_of_none (h : t.entry? l = none) : l ≠ [] := by
  rintro rfl
  exact absurd (t.entry?_nil.symm.trans h) nofun

/-- **An entry is found where it was put**, and elsewhere what was there before. -/
theorem entry?_put (hl : l ≠ []) (t : Tree) (e : Entry) (m : Location) :
    Tree.entry? (t.put l e) m = if m = l then some e else t.entry? m := by
  by_cases hm : m = []
  · subst hm
    rw [Tree.entry?_nil, Tree.entry?_nil, if_neg (Ne.symm hl)]
  · unfold entry?
    rw [if_neg hm, if_neg hm, put, List.find?_append]
    by_cases hml : m = l
    · subst hml
      -- the entry that was there is taken out
      have hnone : (t.entries.filter fun f => f.1 != m).find? (fun f => f.1 == m) = none :=
        List.find?_eq_none.2 fun f hf => by simpa [bne] using (List.mem_filter.1 hf).2
      rw [hnone, if_pos rfl]
      simp
    · have hkey : (fun f : Location × Entry => decide ((f.1 != l) = true ∧ (f.1 == m) = true)) =
          fun f => f.1 == m := by
        funext f
        by_cases hf : f.1 = m <;> simp [hf, hml]
      rw [List.find?_filter, hkey, if_neg hml]
      simp [Ne.symm hml]

/-- **A fresh number** is greater than the number of any file. -/
theorem lt_fresh (h : t.entry? l = some (.file i)) : i < t.fresh := by
  have hmem : (l, Entry.file i) ∈ t.entries := by
    unfold entry? at h
    split at h
    · cases h
    · obtain ⟨f, hf, hfile⟩ := Option.map_eq_some_iff.1 h
      have hl : f.1 = l := by simpa using List.find?_some hf
      rw [← hl, ← hfile]
      exact List.mem_of_find?_eq_some hf
  unfold fresh
  generalize t.entries = entries at hmem
  induction entries with
  | nil => cases hmem
  | cons f entries ih =>
    rw [List.map_cons, List.foldr_cons]
    rcases List.mem_cons.1 hmem with rfl | hmem
    · exact Nat.lt_of_lt_of_le (Nat.lt_succ_self i) (Nat.le_max_left ..)
    · exact Nat.lt_of_lt_of_le (ih hmem) (Nat.le_max_right ..)

/-! ### Following paths -/

/-- Whether a tree has what is in another, and where it has more, files. -/
structure Extends (t u : Tree) : Prop where
  home : u.home = t.home
  entry : ∀ l, u.entry? l = t.entry? l ∨ t.entry? l = none ∧ ∃ i, u.entry? l = some (.file i)

namespace Extends

theorem of_some (h : t.Extends u) (hl : t.entry? l = some e) : u.entry? l = some e := by
  rcases h.entry l with heq | ⟨hnone, -⟩
  · exact heq.trans hl
  · exact absurd (hnone.symm.trans hl) nofun

/-- New files stand in the way of no names: where they are, the names had led to nothing. -/
theorem walk {w : Way} (h : t.Extends u) (hw : t.walk l ns = .ok w) : u.walk l ns = .ok w := by
  induction ns generalizing l with
  | nil => exact hw
  | cons n ns ih =>
    rw [Tree.walk] at hw ⊢
    split at hw
    · rename_i hdir
      rw [h.of_some hdir]
      dsimp only
      split at hw
      · rename_i hlink
        rw [h.of_some hlink]
        exact hw
      · rename_i hno
        split
        · -- a link that is there now was there before
          rename_i target hlink
          rcases h.entry (next l n) with heq | ⟨-, i, hfile⟩
          · exact absurd (heq.symm.trans hlink) (hno target)
          · exact absurd (hfile.symm.trans hlink) nofun
        · exact ih hw
    · cases hw
    · cases hw

theorem follow {links : Nat} (h : t.Extends u) (hm : t.follow links l ns = .ok m) :
    u.follow links l ns = .ok m := by
  fun_induction Tree.follow t links l ns with
  | case1 links l ns f hw => cases hm
  | case2 links l ns k hw =>
    rw [Tree.follow, h.walk hw]
    exact hm
  | case3 l ns k target rest hw => cases hm
  | case4 l ns k target rest hw links ih =>
    rw [Tree.follow, h.walk hw]
    exact ih hm

/-- **Paths lead where they led** when there are more files. -/
theorem resolve (h : t.Extends u) (hl : t.resolve p = .ok l) : u.resolve p = .ok l := by
  rw [Tree.resolve, h.home]
  exact h.follow hl

end Extends

theorem locate_eq_ok_iff : t.locate p = .ok l ↔ t.resolve p = .ok l := by
  rw [locate]
  cases t.resolve p with
  | error f => exact iff_of_false nofun nofun
  | ok m =>
    exact ⟨fun h => congrArg _ (Except.ok.inj h), fun h => congrArg _ (Except.ok.inj h)⟩

/-- The number of the file that a path leads to. -/
def node? (t : Tree) (p : Path) : Option Nat :=
  match t.at? p with
  | some (.file i) => some i
  | _ => none

theorem node?_eq_some_iff :
    t.node? p = some i ↔ ∃ l, t.resolve p = .ok l ∧ t.entry? l = some (.file i) := by
  unfold node? at?
  cases t.resolve p with
  | error f => exact iff_of_false nofun (by simp)
  | ok l =>
    simp only [Except.ok.injEq, exists_eq_left']
    cases t.entry? l with
    | none => exact iff_of_false nofun nofun
    | some e => cases e <;> simp

/-- A file is read by its number. -/
theorem read_of_node? (h : t.node? p = some i) : t.read p = .ok (t.contents i) := by
  obtain ⟨l, hp, hl⟩ := node?_eq_some_iff.1 h
  rw [read, locate_eq_ok_iff.2 hp]
  dsimp only [bind, Except.bind]
  rw [hl]

theorem Extends.node? (h : t.Extends u) (hp : t.node? p = some i) : u.node? p = some i := by
  obtain ⟨l, hl, hi⟩ := node?_eq_some_iff.1 hp
  exact node?_eq_some_iff.2 ⟨l, h.resolve hl, h.of_some hi⟩

/-! ### Making directories -/

theorem exists_of_makeDirectory (h : t.makeDirectory p = .ok u) :
    ∃ l, t.entry? l = none ∧ u = t.put l .directory := by
  unfold makeDirectory at h
  split at h
  · cases h
  · cases h
  · rename_i n l _ _
    split at h
    · cases h
    · split at h
      · cases h
      · rename_i hfree
        obtain rfl := Except.ok.inj h
        refine ⟨l ++ [n], ?_, rfl⟩
        rw [not_or, not_or, Option.not_isSome_iff_eq_none] at hfree
        exact hfree.2.2
    · cases h

section Induction

variable {P : Tree → Prop} (hput : ∀ t l, t.entry? l = none → P t → P (t.put l .directory))

include hput

theorem ensureDirectory_induction (ht : P t) (h : t.ensureDirectory p = .ok u) : P u := by
  unfold ensureDirectory at h
  split at h
  · rename_i v hv
    obtain rfl := Except.ok.inj h
    obtain ⟨l, hl, rfl⟩ := exists_of_makeDirectory hv
    exact hput t l hl ht
  · split at h
    · obtain rfl := Except.ok.inj h
      exact ht
    · cases h

theorem makeWay_induction (ht : P t) (ns : List Text) : P (t.makeWay ns).2 := by
  induction ns with
  | nil =>
    rw [makeWay]
    split
    · rename_i u hu
      exact ensureDirectory_induction hput ht hu
    · exact ht
  | cons n ns ih =>
    rw [makeWay]
    split
    · rename_i u hu
      exact ensureDirectory_induction hput ht hu
    · split
      · split
        · rename_i hway
          rw [hway] at ih
          exact ih
        · rename_i hway
          rw [hway] at ih
          split
          · rename_i hu
            exact ensureDirectory_induction hput ih hu
          · exact ih
      · exact ht

/-- **What holds when a directory is put where nothing is**, holds when directories are made, also
where not all of them can be. -/
theorem makeDirectories_induction (ht : P t) (p : Path) : P (t.makeDirectories p).2 :=
  makeWay_induction hput ht _

end Induction

/-- Whether two trees have the same files and links, and the files hold the same. -/
structure SameFiles (t u : Tree) : Prop where
  entry : ∀ l e, e ≠ .directory → (u.entry? l = some e ↔ t.entry? l = some e)
  contents : u.contents = t.contents

namespace SameFiles

theorem refl (t : Tree) : t.SameFiles t := ⟨fun _ _ _ => Iff.rfl, rfl⟩

theorem trans (h : t.SameFiles u) (h' : u.SameFiles v) : t.SameFiles v :=
  ⟨fun l e he => (h'.entry l e he).trans (h.entry l e he), h'.contents.trans h.contents⟩

/-- A directory that is put where nothing is changes no file. -/
theorem put_directory (hl : t.entry? l = none) : t.SameFiles (t.put l .directory) := by
  refine ⟨fun m e he => ?_, rfl⟩
  rw [Tree.entry?_put (ne_nil_of_none hl)]
  split
  · rename_i hm
    rw [hm, hl]
    exact iff_of_false (fun h => he (Option.some.inj h).symm) nofun
  · exact Iff.rfl

/-- **To make directories changes no file.** -/
theorem makeDirectories (t : Tree) (p : Path) : t.SameFiles (t.makeDirectories p).2 :=
  makeDirectories_induction (fun _ _ hl h => h.trans (put_directory hl)) (refl t) p

end SameFiles

/-! ### Writing a file -/

/-- What it is to write a content to the file that a path leads to: the file has the content then,
and all else is as it was.  The file is the one that was there, or a new one. -/
structure Overwrites (t : Tree) (p : Path) (c : Content) (l : Location) (i : Nat) (u : Tree) :
    Prop where
  leads : t.resolve p = .ok l
  own : t.entry? l = some (.file i) ∨ t.entry? l = none ∧ i = t.fresh
  home : u.home = t.home
  entry : ∀ m, u.entry? m = if m = l then some (.file i) else t.entry? m
  contents : ∀ j, u.contents j = if j = i then c else t.contents j

/-- **To write a file changes that file and nothing else.** -/
theorem exists_overwrites (h : t.write p c = .ok u) : ∃ l i, t.Overwrites p c l i u := by
  rw [write] at h
  cases hp : t.locate p with
  | error e => rw [hp] at h; cases h
  | ok l =>
    rw [hp] at h
    dsimp only [bind, Except.bind] at h
    have hp := locate_eq_ok_iff.1 hp
    split at h
    · rename_i i hfile
      obtain rfl := Except.ok.inj h
      refine ⟨l, i, hp, .inl hfile, rfl, fun m => ?_, fun j => rfl⟩
      split
      · rename_i hm
        exact hm ▸ hfile
      · rfl
    · cases h
    · rename_i hnone
      obtain rfl := Except.ok.inj h
      exact ⟨l, t.fresh, hp, .inr ⟨hnone, rfl⟩, rfl, entry?_put (ne_nil_of_none hnone) t _,
        fun j => rfl⟩

namespace Overwrites

theorem grows (h : t.Overwrites p c l i u) : t.Extends u := by
  refine ⟨h.home, fun m => ?_⟩
  rw [h.entry]
  split
  · rename_i hm
    subst hm
    rcases h.own with hfile | ⟨hnone, -⟩
    · exact .inl hfile.symm
    · exact .inr ⟨hnone, i, rfl⟩
  · exact .inl rfl

/-- The path leads to the file that was written. -/
theorem node? (h : t.Overwrites p c l i u) : u.node? p = some i :=
  node?_eq_some_iff.2 ⟨l, h.grows.resolve h.leads, by rw [h.entry, if_pos rfl]⟩

/-- What was written is read. -/
theorem read (h : t.Overwrites p c l i u) : u.read p = .ok c := by
  rw [read_of_node? h.node?, h.contents, if_pos rfl]

end Overwrites

/-- Whether the files and links of two trees are the same but for the files that some paths lead
to. -/
structure SameFilesBut (t : Tree) (ps : List Path) (u : Tree) : Prop where
  entry : ∀ l, (∀ p ∈ ps, u.resolve p ≠ .ok l) → ∀ e, e ≠ .directory →
    (u.entry? l = some e ↔ t.entry? l = some e)
  contents : ∀ i, (∀ p ∈ ps, u.node? p ≠ some i) → u.contents i = t.contents i

theorem SameFiles.but_nil (h : t.SameFiles u) : t.SameFilesBut [] u :=
  ⟨fun l _ => h.entry l, fun i _ => congrFun h.contents i⟩

/-- Another file that is written is another one that is not the same. -/
theorem SameFilesBut.overwrites {ps : List Path} (h : t.SameFilesBut ps v)
    (hu : v.Overwrites p c l i u) : t.SameFilesBut (ps ++ [p]) u := by
  have hp : p ∈ ps ++ [p] := List.mem_append_right _ (List.mem_singleton_self p)
  constructor
  · intro m hm e he
    have hml : m ≠ l := by
      rintro rfl
      exact hm p hp (hu.grows.resolve hu.leads)
    rw [hu.entry, if_neg hml]
    exact h.entry m (fun q hq hv =>
      hm q (List.mem_append_left _ hq) (hu.grows.resolve hv)) e he
  · intro j hj
    have hji : j ≠ i := by
      rintro rfl
      exact hj p hp hu.node?
    rw [hu.contents, if_neg hji]
    exact h.contents j fun q hq hv => hj q (List.mem_append_left _ hq) (hu.grows.node? hv)

/-! ### Trees without links -/

/-- Whether no entry is a link, and no file has two names. -/
structure Unlinked (t : Tree) : Prop where
  link : ∀ l p, t.entry? l ≠ some (.link p)
  file : ∀ l m i, t.entry? l = some (.file i) → t.entry? m = some (.file i) → l = m

namespace Unlinked

theorem empty : Tree.empty.Unlinked := by
  have hentry : ∀ l e, Tree.empty.entry? l = some e → e = .directory := by
    intro l e h
    unfold entry? at h
    split at h
    · exact (Option.some.inj h).symm
    · cases h
  exact ⟨fun l p h => absurd (hentry l _ h) nofun, fun l m i h _ => absurd (hentry l _ h) nofun⟩

theorem of_sameFiles (h : t.Unlinked) (hu : t.SameFiles u) : u.Unlinked where
  link l p hl := h.link l p ((hu.entry l (.link p) nofun).1 hl)
  file l m i hl hm :=
    h.file l m i ((hu.entry l (.file i) nofun).1 hl) ((hu.entry m (.file i) nofun).1 hm)

theorem put_directory (h : t.Unlinked) (hl : t.entry? l = none) :
    (t.put l .directory).Unlinked :=
  h.of_sameFiles (SameFiles.put_directory hl)

/-- A file may be put where it is the only one of its number. -/
theorem of_entry (h : t.Unlinked) (hi : ∀ m, t.entry? m = some (.file i) → m = l)
    (hu : ∀ m, u.entry? m = if m = l then some (.file i) else t.entry? m) : u.Unlinked := by
  constructor
  · intro m q hm
    rw [hu] at hm
    split at hm
    · cases hm
    · exact h.link m q hm
  · intro m m' j hm hm'
    rw [hu] at hm hm'
    split at hm <;> split at hm'
    · rename_i hl hl'
      exact hl.trans hl'.symm
    · rename_i hl hl'
      obtain rfl : i = j := by simpa using hm
      exact absurd (hi m' hm') hl'
    · rename_i hl hl'
      obtain rfl : i = j := by simpa using hm'
      exact absurd (hi m hm) hl
    · exact h.file m m' j hm hm'

theorem putFile (h : t.Unlinked) (hl : t.entry? l = none) (c : Content) :
    (t.putFile l c).Unlinked :=
  h.of_entry (fun _ hm => absurd (lt_fresh hm) (Nat.lt_irrefl _))
    (entry?_put (ne_nil_of_none hl) t _)

/-- A file that is written is one that has a name already, or one that has no other. -/
theorem overwrites (h : t.Unlinked) (hu : t.Overwrites p c l i u) : u.Unlinked := by
  refine h.of_entry (fun m hm => ?_) hu.entry
  rcases hu.own with hfile | ⟨-, rfl⟩
  · exact h.file m l i hm hfile
  · exact absurd (lt_fresh hm) (Nat.lt_irrefl _)

/-- A name is followed in a directory, and no link is met. -/
theorem walk_cons_eq_ok_iff (h : t.Unlinked) {n : Text} {w : Way} :
    t.walk l (n :: ns) = .ok w ↔
      t.entry? l = some .directory ∧ t.walk (next l n) ns = .ok w := by
  rw [walk]
  cases t.entry? l with
  | none => exact iff_of_false nofun nofun
  | some e =>
    cases e with
    | file i => exact iff_of_false nofun nofun
    | link q => exact iff_of_false nofun nofun
    | directory =>
      rw [and_iff_right rfl]
      dsimp only
      split
      · rename_i hlink
        exact absurd hlink (h.link _ _)
      · rfl

/-- Where names lead is decided in the directory that all but the last of them lead to. -/
theorem walk_concat_eq_ok_iff (h : t.Unlinked) {n : Text} {w : Way} :
    t.walk l (ns ++ [n]) = .ok w ↔
      ∃ k, t.walk l ns = .ok (.location k) ∧ t.entry? k = some .directory ∧
        w = .location (next k n) := by
  induction ns generalizing l with
  | nil =>
    rw [List.nil_append, h.walk_cons_eq_ok_iff, walk, walk]
    simp only [Except.ok.injEq, Way.location.injEq, exists_eq_left', eq_comm]
  | cons n' ns ih =>
    simp only [List.cons_append, h.walk_cons_eq_ok_iff, ih, exists_and_left, and_assoc]

/-- A path is followed in one go. -/
theorem resolve_eq_ok_iff (h : t.Unlinked) :
    t.resolve p = .ok l ↔ t.walk (base t.home p).1 (base t.home p).2 = .ok (.location l) := by
  have hway : ∀ k ns w, t.walk k ns = .ok w → ∃ m, w = .location m := by
    intro k ns w hw
    rcases List.eq_nil_or_concat' ns with rfl | ⟨init, n, rfl⟩
    · exact ⟨k, (Except.ok.inj hw).symm⟩
    · obtain ⟨_, -, -, rfl⟩ := h.walk_concat_eq_ok_iff.1 hw
      exact ⟨_, rfl⟩
  rw [resolve, follow]
  cases hw : t.walk (base t.home p).1 (base t.home p).2 with
  | error f => exact iff_of_false nofun nofun
  | ok w =>
    obtain ⟨m, rfl⟩ := hway _ _ _ hw
    simp only [Except.ok.injEq, Way.location.injEq]

end Unlinked

/-- A last name is no part of where a path begins, unless it is that of the top. -/
theorem base_concat {init : List Text} {n : Text} (h : init ≠ [] ∨ n ≠ Path.top) :
    base l ⟨init ++ [n]⟩ = ((base l ⟨init⟩).1, (base l ⟨init⟩).2 ++ [n]) := by
  cases init with
  | nil =>
    have hn : n ≠ Path.top := h.resolve_left fun h => h rfl
    have habs : Path.isAbsolute ⟨[n]⟩ = false := by simpa [Path.isAbsolute] using hn
    rw [base, List.nil_append, habs]
    rfl
  | cons n' init =>
    unfold base
    rw [show Path.isAbsolute ⟨n' :: init ++ [n]⟩ = Path.isAbsolute ⟨n' :: init⟩ from rfl]
    split <;> rfl

/-- A path that leads into a directory. -/
theorem Unlinked.exists_of_resolve_concat (h : t.Unlinked) {init : List Text} {n : Text}
    (hn : init ≠ [] ∨ n ≠ Path.top) (hl : t.resolve ⟨init ++ [n]⟩ = .ok l) :
    ∃ k, t.resolve ⟨init⟩ = .ok k ∧ l = next k n := by
  rw [h.resolve_eq_ok_iff, base_concat hn, h.walk_concat_eq_ok_iff] at hl
  obtain ⟨k, hk, -, hl⟩ := hl
  exact ⟨k, h.resolve_eq_ok_iff.2 hk, Way.location.inj hl⟩

theorem next_of_ne {n : Text} (h : n ≠ Path.parent) : next l n = l ++ [n] := if_neg h

/-- **A longer last name leads elsewhere.** -/
theorem Unlinked.resolve_withEnding_ne (h : t.Unlinked) (hp : t.resolve p = .ok l)
    (hq : t.resolve (p.withEnding ".html".toList) = .ok m) : l ≠ m := by
  obtain ⟨names⟩ := p
  -- the path of a page has a last name of its own, neither that of the top nor two dots
  have hlong : ∀ n short : Text, short.length ≤ 2 → n ++ ".html".toList ≠ short := by
    intro n short hshort hn
    rw [← hn, List.length_append] at hshort
    simp at hshort
  obtain ⟨k', hk', rfl⟩ :=
    h.exists_of_resolve_concat (.inr (hlong _ Path.top (by decide))) hq
  rw [next_of_ne (hlong _ Path.parent (by decide))]
  rcases List.eq_nil_or_concat' names with rfl | ⟨init, n, rfl⟩
  · -- the page of the working directory itself stands in it
    obtain rfl := Except.ok.inj (hp.symm.trans hk')
    simp
  · rw [List.dropLast_concat] at hk'
    by_cases htop : init = [] ∧ n = Path.top
    · -- the page of the top stands in the working directory
      obtain ⟨rfl, rfl⟩ := htop
      obtain rfl : [] = l := by simpa [resolve, base, Path.isAbsolute, follow, walk] using hp
      simp
    · obtain ⟨k, hk, rfl⟩ := h.exists_of_resolve_concat (not_and_or.1 htop) hp
      obtain rfl := Except.ok.inj (hk.symm.trans hk')
      unfold next
      split
      · -- two dots lead no farther than the directory
        intro heq
        have hlen := congrArg List.length heq
        rw [List.length_dropLast, List.length_append, List.length_singleton] at hlen
        omega
      · intro heq
        exact Path.ne_name_append init n (List.singleton_inj.1 (List.append_cancel_left heq))

end Tree
end Galley
