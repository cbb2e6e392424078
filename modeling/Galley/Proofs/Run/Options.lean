/-
# Where the options of a run come from

The options of a run are read from entries, and each entry is the winning one of three layers: an
override, an option of the preset's section, or a setting (`Preset.find?_combine`).  Of several
entries of one layer under one name the last one counts.

What is read must be free of complaints, so a field of the options has the value that its entry
denotes, or its standard value where there is no entry (`Given.field_cases`).  For the mode this
says which layer chose it (`Preset.mode_stylesheetOptions`).
-/

import Galley.Preset
import Galley.Run.Request

namespace Galley
namespace Given

namespace Entries

theorem find?_cons (name n : WideText) (v : Given) (es : Entries) :
    find? name ((n, v) :: es) = if n = name then some v else find? name es := by
  unfold find?
  split
  · rename_i h
    rw [List.find?_cons_of_pos (by simpa using h)]
    rfl
  · rename_i h
    rw [List.find?_cons_of_neg (by simpa using h)]

theorem find?_append (name : WideText) (es es' : Entries) :
    find? name (es ++ es') = (find? name es).or (find? name es') := by
  rw [find?, List.find?_append, Option.map_or]
  rfl

theorem isSome_find?_iff {name : WideText} {es : Entries} :
    (find? name es).isSome ↔ ∃ e ∈ es, e.1 = name := by
  simp [find?]

/-- What is found after a value is put under a name. -/
theorem find?_put (name n : WideText) (v : Given) (es : Entries) :
    find? name (put n v es) = if n = name then some v else find? name es := by
  induction es with
  | nil => exact find?_cons ..
  | cons e es ih =>
    obtain ⟨m, w⟩ := e
    rw [put]
    split
    · rename_i hm
      rw [find?_cons, find?_cons, hm]
      split <;> rfl
    · rename_i hm
      rw [find?_cons, find?_cons, ih]
      by_cases hmn : m = name
      · rw [if_pos hmn, if_pos hmn, if_neg (hmn ▸ Ne.symm hm)]
      · rw [if_neg hmn, if_neg hmn]

/-- **The second record wins**, and in it the last entry under a name. -/
theorem find?_overlay (name : WideText) (lower upper : Entries) :
    find? name (overlay lower upper) = (find? name upper.reverse).or (find? name lower) := by
  induction upper generalizing lower with
  | nil => rfl
  | cons e upper ih =>
    -- the first entry is put below the others, and the last of the reversed ones
    obtain ⟨n, v⟩ := e
    rw [overlay, List.foldl_cons, ← overlay, ih, List.reverse_cons, find?_append, Option.or_assoc,
      find?_put, find?_cons]
    congr 1
    split <;> rfl

end Entries

/-! ### Fields without complaints -/

namespace Checked

variable {α β : Type}

theorem problems_bind (x : Checked α) (f : α → Checked β) :
    (x >>= f).problems = x.problems ++ (f x.value).problems := rfl

theorem problems_pure (a : α) : (pure a : Checked α).problems = [] := rfl

theorem result_eq_ok_iff {x : Checked α} {a : α} :
    x.result = .ok a ↔ x.problems = [] ∧ x.value = a := by
  unfold result
  split
  · rename_i h
    rw [Except.ok.injEq, and_iff_right (List.isEmpty_iff.1 h)]
  · rename_i h
    exact iff_of_false nofun fun ha => h (List.isEmpty_iff.2 ha.1)

end Checked

/-- **A field that is not complained about** has its standard value where none is given, and the
value that is given otherwise. -/
theorem field_cases {α : Type} {es : Entries} {name : Text} {standard : α}
    {read : Given → Except Complaint α} (h : (field es name standard read).problems = []) :
    (Entries.find? name es = none ∧ (field es name standard read).value = standard) ∨
      ∃ v, Entries.find? name es = some v ∧ read v = .ok (field es name standard read).value := by
  unfold field at h ⊢
  cases hfind : Entries.find? name es with
  | none => exact Or.inl ⟨rfl, rfl⟩
  | some v =>
    rw [hfind] at h
    cases hread : read v with
    | error c => simp [hread] at h
    | ok a => exact Or.inr ⟨v, rfl, by simp only [hread]⟩

end Given

namespace Stylesheet

open Given (Entries)

variable {R : Given.Readers} {es : Entries} {o : Options} {m : Mode} {v : Given}

/-- The words for the modes are their names. -/
theorem choice_mode (hwords : R.ReadsWords) (h : R.choice Mode.choices v = .ok m) :
    v = .word m.name := by
  obtain ⟨c, hmem, rfl, rfl⟩ := hwords _ _ _ h
  rcases List.mem_cons.1 hmem with rfl | hmem
  · rfl
  · rw [List.mem_singleton.1 hmem]
    rfl

/-- The mode is what its entry says, and the first one where there is no entry. -/
theorem mode_ofGiven (hwords : R.ReadsWords) (h : Options.ofGiven R es = .ok o) :
    (Entries.find? "mode".toList es = none ∧ o.mode = .beautify) ∨
      Entries.find? "mode".toList es = some (.word o.mode.name) := by
  obtain ⟨hproblems, rfl⟩ := Given.Checked.result_eq_ok_iff.1 h
  rw [Options.check, Given.Checked.problems_bind] at hproblems
  rcases Given.field_cases (List.append_eq_nil_iff.1 hproblems).1 with
    ⟨hnone, hmode⟩ | ⟨v, hv, hmode⟩
  · exact Or.inl ⟨hnone, hmode⟩
  · exact Or.inr (hv.trans (congrArg some (choice_mode hwords hmode)))

end Stylesheet

/-! ### The three layers -/

namespace Preset

open Given (Entries)

variable {os : Options} {es settings overrides : Entries} {p : Preset} {s : Settings}
variable {R : Given.Readers} {o : Stylesheet.Options}

/-- The value that a section gives for an option. -/
def Options.given? (name : WideText) (os : Options) : Option Given :=
  (os.reverse.find? fun e => e.1 == .text name).map Prod.snd

theorem Options.isSome_given?_iff {name : WideText} :
    (os.given? name).isSome ↔ ∃ e ∈ os, e.1 = .text name := by
  simp [given?]

/-- Of several options of a section under one name the last one counts. -/
theorem Options.given?_cons (name n : WideText) (v : Given) (os : Options) :
    given? name ((.text n, v) :: os) = (os.given? name).or (if n = name then some v else none) := by
  rw [given?, List.reverse_cons, List.find?_append, Option.map_or]
  by_cases hn : n = name
  · simp [given?, hn]
  · simp [given?, hn]

theorem named?_eq_some_iff : named? os = some es ↔ os = es.map fun e => (.text e.1, e.2) := by
  induction os generalizing es with
  | nil => cases es <;> simp [named?]
  | cons e os ih =>
    obtain ⟨a, v⟩ := e
    cases a with
    | text n =>
      rw [named?, Option.map_eq_some_iff]
      constructor
      · rintro ⟨es, hes, rfl⟩
        rw [ih.1 hes]
        rfl
      · intro h
        cases es with
        | nil => cases h
        | cons e es =>
          obtain ⟨hhead, htail⟩ := List.cons.inj h
          exact ⟨es, ih.2 htail, by cases hhead; rfl⟩
    | _ => exact iff_of_false nofun fun h => by cases es <;> cases h

/-- The entries of a section are its options. -/
theorem find?_named (h : named? os = some es) (name : WideText) :
    Entries.find? name es.reverse = os.given? name := by
  have hkey : (fun e : WideText × Given => Given.Atom.text e.1 == .text name) =
      fun e => e.1 == name := by
    funext e
    rw [Bool.eq_iff_iff, beq_iff_eq, beq_iff_eq, Given.Atom.text.injEq]
  rw [named?_eq_some_iff.1 h, Options.given?, ← List.map_reverse, List.find?_map, Option.map_map]
  exact congrArg (fun key => (es.reverse.find? key).map Prod.snd) hkey.symm

/-- **An override wins over the section, and the section over the settings.** -/
theorem find?_combine (h : combine settings os overrides = .ok es) (name : WideText) :
    Entries.find? name es = (Entries.find? name overrides.reverse).or
      ((os.given? name).or (Entries.find? name settings)) := by
  unfold combine at h
  split at h
  · cases h
  · rename_i named hnamed
    obtain rfl := Except.ok.inj h
    rw [Entries.find?_overlay, Entries.find?_overlay, find?_named hnamed]

theorem blame_eq_ok_iff {α : Type} {part : Part} {r : Except (List Given.Problem) α} {a : α} :
    blame part r = .ok a ↔ r = .ok a := by
  cases r with
  | error ps => exact iff_of_false nofun nofun
  | ok b => exact ⟨fun h => congrArg _ (Except.ok.inj h), fun h => congrArg _ (Except.ok.inj h)⟩

theorem stylesheetOptions_eq_ok_iff :
    p.stylesheetOptions R s overrides = .ok o ↔
      ∃ es, combine (defaults s .stylesheet) p.stylesheet overrides = .ok es ∧
        Stylesheet.Options.ofGiven R es = .ok o := by
  unfold stylesheetOptions
  cases combine (defaults s .stylesheet) p.stylesheet overrides with
  | error e => exact iff_of_false nofun nofun
  | ok es =>
    refine Iff.trans blame_eq_ok_iff ⟨fun ho => ⟨es, rfl, ho⟩, ?_⟩
    rintro ⟨_, hes, ho⟩
    obtain rfl := Except.ok.inj hes
    exact ho

end Preset

/-! ### The mode -/

namespace Request

open Given (Entries)

variable {α : Type}

theorem find?_entry (key : WideText) (name : String) (make : α → Given) (value : Option α) :
    Entries.find? key (entry name make value).reverse =
      if name.toList = key then value.map make else none := by
  cases value with
  | none => exact (ite_self _).symm
  | some a => exact Entries.find?_cons ..

theorem find?_flagEntry (key : WideText) (name : String) (value flag : Bool) :
    Entries.find? key (flagEntry name value flag).reverse =
      if name.toList = key then if flag then some (.bool value) else none else none := by
  cases flag with
  | false => exact (ite_self _).symm
  | true => exact Entries.find?_cons ..

/-- The mode is overridden by the one that is asked for. -/
theorem find?_mode_stylesheetOverrides (r : Request) :
    Entries.find? "mode".toList r.stylesheetOverrides.reverse = r.mode.map .word := by
  simp only [stylesheetOverrides, List.reverse_append, Entries.find?_append, find?_entry,
    find?_flagEntry]
  rw [if_neg (by decide), if_neg (by decide), if_neg (by decide), if_neg (by decide),
    if_neg (by decide)]
  simp only [if_true, Option.none_or]

end Request

/-- **A stylesheet is minified** if the request asks for it, or leaves the mode open and the preset
asks for it. -/
theorem Preset.mode_stylesheetOptions {R : Given.Readers} {p : Preset} {s : Settings} {r : Request}
    {o : Stylesheet.Options} (hwords : R.ReadsWords)
    (h : p.stylesheetOptions R s r.stylesheetOverrides = .ok o) :
    o.mode = .minify ↔ r.mode = some "minify".toList ∨
      r.mode = none ∧ p.stylesheet.given? "mode".toList = some (.word "minify".toList) := by
  obtain ⟨es, hes, ho⟩ := stylesheetOptions_eq_ok_iff.1 h
  have hwins := find?_combine hes "mode".toList
  have hsettings : Given.Entries.find? "mode".toList (defaults s .stylesheet) = none := rfl
  rw [r.find?_mode_stylesheetOverrides, hsettings, Option.or_none] at hwins
  -- the entry, if there is one, is the name of the mode
  have hentry : o.mode = .minify ↔
      Given.Entries.find? "mode".toList es = some (.word "minify".toList) := by
    rcases Stylesheet.mode_ofGiven hwords ho with ⟨hnone, hmode⟩ | hsome
    · rw [hnone, hmode]
      exact iff_of_false nofun nofun
    · rw [hsome]
      cases o.mode with
      | beautify =>
        exact iff_of_false nofun fun h =>
          absurd (Given.word_inj.1 (Option.some.inj h)) (by decide)
      | minify => exact iff_of_true rfl rfl
  rw [hentry, hwins]
  cases r.mode with
  | none => simp
  | some m => simp

end Galley
