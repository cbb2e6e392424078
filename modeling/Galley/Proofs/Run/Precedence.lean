/-
# Which value counts for an option

Of the values given for a field of the options the one of the request counts, else the one in the
section of the preset, else that of the settings (`Given.RecordField.winner`); where none is given,
the field has its standard value.  Only the values that count are checked: a section is refused if
one of them is none for its field, or if the section holds a name that is not one of a field
(`Preset.Part.Refuses`).  Otherwise the options are what the values that count say
(`Preset.config_eq_ok_iff`).

A tool runs with just these options (`Request.applyTool_options`).  What a value is read as for a
field, and what the file of a preset holds, is up to the libraries.
-/

import Galley.Proofs.Run.Faults
import Galley.Proofs.Run.Fields
import Galley.Proofs.Run.Session
import Galley.Run.Standard

namespace Galley

open Given (Entries RecordField Reads)

/-- The value that counts for a field. -/
def Given.RecordField.winner {ρ : Type} (f : RecordField ρ) (s : Settings) (r : Request)
    (os : Preset.Options) : Option Given :=
  (f.asked r).or ((os.given? f.name).or (f.setting s))

/-! ### The parts -/

namespace Preset.Part

/-- The fields of the options of a part. -/
def fields (R : Given.Readers) : (part : Part) → List (RecordField part.Config)
  | .stylesheet => Stylesheet.Options.fields R
  | .comparison => LineDiff.Options.fields R

/-- The names of the fields of a part. -/
def names : Part → List Text
  | .stylesheet => Stylesheet.Options.names
  | .comparison => LineDiff.Options.names

/-- The options of a part where nothing is given. -/
def standard : (part : Part) → part.Config
  | .stylesheet => Stylesheet.Options.standard
  | .comparison => LineDiff.Options.standard

/-- Reads the options of a part. -/
def check (R : Given.Readers) : (part : Part) → Entries → Given.Checked part.Config
  | .stylesheet => Stylesheet.Options.check R
  | .comparison => LineDiff.Options.check R

/-- What the tool of a part does with its options. -/
def run (s : Settings) (src : Sources) : (part : Part) → part.Config → Session Product
  | .stylesheet, o => formatStylesheet s o src.input
  | .comparison, o => compareTexts s o src

theorem reads (R : Given.Readers) (part : Part) :
    Reads (part.check R) part.standard (part.fields R) := by
  cases part with
  | stylesheet => exact Stylesheet.Options.reads R
  | comparison => exact LineDiff.Options.reads R

theorem map_name_fields (R : Given.Readers) (part : Part) :
    (part.fields R).map RecordField.name = part.names := by
  cases part <;> rfl

theorem exists_field_iff (R : Given.Readers) (part : Part) (P : Text → Prop) :
    (∃ f ∈ part.fields R, P f.name) ↔ ∃ n ∈ part.names, P n := by
  rw [← map_name_fields R]
  constructor
  · rintro ⟨f, hf, hP⟩
    exact ⟨f.name, List.mem_map_of_mem hf, hP⟩
  · rintro ⟨n, hn, hP⟩
    obtain ⟨f, hf, rfl⟩ := List.mem_map.1 hn
    exact ⟨f, hf, hP⟩

/-- Whether two sections give the same, except for what a request gives itself. -/
def SameUnasked (R : Given.Readers) (part : Part) (r : Request) (os os' : Options) : Prop :=
  ∀ name : WideText, (∀ f ∈ part.fields R, Text.wide f.name = name → f.asked r = none) →
    os'.given? name = os.given? name

/-- Whether a section is refused: for an unknown name, or for a value that counts and is none for
its field. -/
def Refuses (R : Given.Readers) (part : Part) (s : Settings) (r : Request) (os : Options) : Prop :=
  (∃ e ∈ os, ∀ f ∈ part.fields R, e.1 ≠ .text f.name) ∨
    ∃ f ∈ part.fields R, ¬f.Accepts (f.winner s r os)

end Preset.Part

/-! ### What requests and settings give -/

namespace Request

open Preset (Part)

/-- The part of a preset that the tool of a request takes its options from. -/
def part (r : Request) : Part := if r.tool = stylesheetTool then .stylesheet else .comparison

/-- The options that a request gives for a part. -/
def overrides (r : Request) : Part → Entries
  | .stylesheet => r.stylesheetOverrides
  | .comparison => r.comparisonOverrides

variable {α : Type} {R : Given.Readers} {r : Request} {part : Part} {names : List Text}
variable {name : String}

theorem find?_stylesheetOverrides : ∀ f ∈ Stylesheet.Options.fields R,
    Entries.find? f.name r.stylesheetOverrides.reverse = f.asked r := by
  simp only [Stylesheet.Options.fields, List.forall_mem_cons]
  refine ⟨?_, ?_, ?_, ?_, ?_, ?_, ?_, ?_, ?_, ?_, ?_, ?_, ?_, ?_, ?_, List.forall_mem_nil _⟩
  all_goals
    simp [stylesheetOverrides, Entries.find?_append, find?_entry, find?_flagEntry,
      RecordField.truth, RecordField.flag]

theorem find?_comparisonOverrides : ∀ f ∈ LineDiff.Options.fields R,
    Entries.find? f.name r.comparisonOverrides.reverse = f.asked r := by
  simp only [LineDiff.Options.fields, List.forall_mem_cons]
  refine ⟨?_, ?_, ?_, ?_, ?_, ?_, ?_, List.forall_mem_nil _⟩
  all_goals
    simp [comparisonOverrides, Entries.find?_append, find?_entry, find?_flagEntry,
      RecordField.truth, RecordField.flag]

/-- **A request gives for each field** what the table says. -/
theorem find?_overrides : ∀ f ∈ part.fields R,
    Entries.find? f.name (r.overrides part).reverse = f.asked r := by
  cases part with
  | stylesheet => exact find?_stylesheetOverrides
  | comparison => exact find?_comparisonOverrides

theorem forall_mem_entry (make : α → Given) (value : Option α) (h : name.toList ∈ names) :
    ∀ e ∈ entry name make value, ∃ n ∈ names, e.1 = Text.wide n := by
  cases value with
  | none => exact nofun
  | some a => exact List.forall_mem_singleton.2 ⟨_, h, rfl⟩

theorem forall_mem_flagEntry (value flag : Bool) (h : name.toList ∈ names) :
    ∀ e ∈ flagEntry name value flag, ∃ n ∈ names, e.1 = Text.wide n := by
  cases flag with
  | false => exact nofun
  | true => exact List.forall_mem_singleton.2 ⟨_, h, rfl⟩

/-- **A request gives no options** but those of fields. -/
theorem mem_names_of_mem_overrides :
    ∀ e ∈ r.overrides part, ∃ n ∈ part.names, e.1 = Text.wide n := by
  cases part with
  | stylesheet =>
    simp only [overrides, stylesheetOverrides, List.forall_mem_append]
    exact ⟨⟨⟨⟨⟨forall_mem_entry _ _ (by decide), forall_mem_entry _ _ (by decide)⟩,
      forall_mem_entry _ _ (by decide)⟩, forall_mem_flagEntry _ _ (by decide)⟩,
      forall_mem_flagEntry _ _ (by decide)⟩, forall_mem_flagEntry _ _ (by decide)⟩
  | comparison =>
    simp only [overrides, comparisonOverrides, List.forall_mem_append]
    exact ⟨⟨⟨⟨⟨⟨forall_mem_entry _ _ (by decide), forall_mem_entry _ _ (by decide)⟩,
      forall_mem_entry _ _ (by decide)⟩, forall_mem_flagEntry _ _ (by decide)⟩,
      forall_mem_flagEntry _ _ (by decide)⟩, forall_mem_flagEntry _ _ (by decide)⟩,
      forall_mem_flagEntry _ _ (by decide)⟩

end Request

namespace Preset

variable {R : Given.Readers} {s : Settings} {r : Request} {part : Part} {p p' : Preset}
variable {os os' : Options} {settings overrides es : Entries} {names : List Text} {o : part.Config}

theorem find?_defaults : ∀ f ∈ part.fields R,
    Entries.find? f.name (defaults s part) = f.setting s := by
  cases part with
  | stylesheet =>
    simp only [Part.fields, Stylesheet.Options.fields, List.forall_mem_cons]
    exact ⟨rfl, rfl, rfl, rfl, rfl, rfl, rfl, rfl, rfl, rfl, rfl, rfl, rfl, rfl, rfl,
      List.forall_mem_nil _⟩
  | comparison =>
    simp only [Part.fields, LineDiff.Options.fields, List.forall_mem_cons]
    exact ⟨rfl, rfl, rfl, rfl, rfl, rfl, rfl, List.forall_mem_nil _⟩

theorem mem_names_of_mem_defaults :
    ∀ e ∈ defaults s part, ∃ n ∈ part.names, e.1 = Text.wide n := by
  cases part with
  | stylesheet => exact Request.forall_mem_entry _ (some (s.indentSize : Int)) (by decide)
  | comparison => exact Request.forall_mem_entry _ (some (s.contextLines : Int)) (by decide)

/-! ### The options -/

theorem exists_combine (htexts : ∀ e ∈ os, isText e.1 = true) :
    ∃ es, combine settings os overrides = .ok es := by
  unfold combine
  cases hnamed : named? os with
  | some es => exact ⟨_, rfl⟩
  | none =>
    obtain ⟨e, he, hname⟩ := named?_eq_none_iff.1 hnamed
    rw [htexts e he] at hname
    cases hname

/-- Of the three layers only a section can hold a name that is not one of a field. -/
theorem forall_mem_combine_iff (hes : combine settings os overrides = .ok es)
    (htexts : ∀ e ∈ os, isText e.1 = true)
    (hsettings : ∀ e ∈ settings, ∃ n ∈ names, e.1 = Text.wide n)
    (hoverrides : ∀ e ∈ overrides, ∃ n ∈ names, e.1 = Text.wide n) :
    (∀ e ∈ es, ∃ n ∈ names, e.1 = Text.wide n) ↔ ∀ e ∈ os, ∃ n ∈ names, e.1 = .text n := by
  have hfind (name : WideText) : (Entries.find? name es).isSome ↔
      (Entries.find? name overrides.reverse).isSome ∨ (os.given? name).isSome ∨
        (Entries.find? name settings).isSome := by
    rw [find?_combine hes, Option.isSome_or, Option.isSome_or, Bool.or_eq_true, Bool.or_eq_true]
  constructor
  · intro h e he
    obtain ⟨w, hw⟩ := exists_of_isText (htexts e he)
    have hgiven : (os.given? w).isSome := Options.isSome_given?_iff.2 ⟨e, he, hw⟩
    obtain ⟨e', he', rfl⟩ := Entries.isSome_find?_iff.1 ((hfind w).2 (.inr (.inl hgiven)))
    obtain ⟨n, hn, hname⟩ := h e' he'
    exact ⟨n, hn, hw.trans (congrArg _ hname)⟩
  · intro h e he
    rcases (hfind e.1).1 (Entries.isSome_find?_iff.2 ⟨e, he, rfl⟩) with hfound | hfound | hfound
    · obtain ⟨e', he', hname⟩ := Entries.isSome_find?_iff.1 hfound
      exact hname ▸ hoverrides e' (List.mem_reverse.1 he')
    · obtain ⟨e', he', hname⟩ := Options.isSome_given?_iff.1 hfound
      obtain ⟨n, hn, hname'⟩ := h e' he'
      exact ⟨n, hn, Given.Atom.text.inj (hname.symm.trans hname')⟩
    · obtain ⟨e', he', hname⟩ := Entries.isSome_find?_iff.1 hfound
      exact hname ▸ hsettings e' he'

/-- The options of a part are read from the three layers. -/
theorem config_eq (R : Given.Readers) (p : Preset) (s : Settings) (overrides : Entries)
    (part : Part) : p.config R s overrides part =
      combine (defaults s part) (p.options part) overrides >>= fun es =>
        blame part (part.check R es).result := by
  cases part <;> rfl

/-- **What the options of a part are read from**: under the name of each field the value that
counts, and under other names what the section holds there. -/
theorem exists_winners (R : Given.Readers) (s : Settings) (r : Request)
    (htexts : ∀ e ∈ p.options part, isText e.1 = true) :
    ∃ es, p.config R s (r.overrides part) part = blame part (part.check R es).result ∧
      (∀ f ∈ part.fields R, Entries.find? f.name es = f.winner s r (p.options part)) ∧
      ((∀ e ∈ es, ∃ f ∈ part.fields R, e.1 = f.name) ↔
        ∀ e ∈ p.options part, ∃ f ∈ part.fields R, e.1 = .text f.name) := by
  obtain ⟨es, hes⟩ : ∃ es, combine (defaults s part) (p.options part) (r.overrides part) = .ok es :=
    exists_combine htexts
  refine ⟨es, ?_, fun f hf => ?_, ?_⟩
  · rw [config_eq, hes]
    rfl
  · rw [find?_combine hes, Request.find?_overrides f hf, find?_defaults f hf]
    rfl
  · have hnames := forall_mem_combine_iff hes htexts mem_names_of_mem_defaults
      Request.mem_names_of_mem_overrides
    refine Iff.trans (forall₂_congr fun e _ => ?_)
      (hnames.trans (forall₂_congr fun e _ => Iff.symm ?_))
    · exact Part.exists_field_iff R part (e.1 = Text.wide ·)
    · exact Part.exists_field_iff R part (e.1 = .text ·)

theorem Part.not_refuses_iff :
    ¬part.Refuses R s r os ↔ (∀ f ∈ part.fields R, f.Accepts (f.winner s r os)) ∧
      ∀ e ∈ os, ∃ f ∈ part.fields R, e.1 = .text f.name := by
  simp [Part.Refuses, and_comm]

/-- **The options of a run** are what the values that count say, if the section is not refused. -/
theorem config_eq_ok_iff (htexts : ∀ e ∈ p.options part, isText e.1 = true) :
    p.config R s (r.overrides part) part = .ok o ↔ ¬part.Refuses R s r (p.options part) ∧
      ∀ f ∈ part.fields R, f.Takes part.standard o (f.winner s r (p.options part)) := by
  obtain ⟨es, hconfig, hwinner, hnames⟩ := exists_winners R s r htexts
  rw [hconfig, blame_eq_ok_iff, (part.reads R).result_eq_ok_iff, hnames, Part.not_refuses_iff]
  constructor
  · rintro ⟨htakes, hknown⟩
    have htakes : ∀ f ∈ part.fields R, f.Takes part.standard o (f.winner s r (p.options part)) :=
      fun f hf => hwinner f hf ▸ htakes f hf
    exact ⟨⟨fun f hf => (htakes f hf).accepts, hknown⟩, htakes⟩
  · rintro ⟨⟨-, hknown⟩, htakes⟩
    exact ⟨fun f hf => (hwinner f hf).symm ▸ htakes f hf, hknown⟩

/-- **A section is refused or gives options.** -/
theorem config_cases (htexts : ∀ e ∈ p.options part, isText e.1 = true) :
    (¬part.Refuses R s r (p.options part) ∧ ∃ o, p.config R s (r.overrides part) part = .ok o) ∨
      (part.Refuses R s r (p.options part) ∧ ∃ problems,
        p.config R s (r.overrides part) part =
          .error (.fault (.invalidOptions part problems))) := by
  obtain ⟨es, hconfig, hwinner, hnames⟩ := exists_winners R s r htexts
  have hread : (∃ o, (part.check R es).result = .ok o) ↔ ¬part.Refuses R s r (p.options part) := by
    rw [(part.reads R).exists_result_iff, hnames, Part.not_refuses_iff]
    exact and_congr_left fun _ => forall₂_congr fun f hf => by rw [hwinner f hf]
  rw [hconfig]
  cases hresult : (part.check R es).result with
  | ok o => exact .inl ⟨hread.1 ⟨o, hresult⟩, o, rfl⟩
  | error problems =>
    refine .inr ⟨Classical.byContradiction fun h => ?_, problems, rfl⟩
    obtain ⟨o, ho⟩ := hread.2 h
    rw [hresult] at ho
    cases ho

/-- The options of a section where no value has parts. -/
def Options.atoms? : Options → Option (List (Given.Atom × Given.Atom))
  | [] => some []
  | (k, .atom a) :: os => (atoms? os).map ((k, a) :: ·)
  | _ :: _ => none

theorem Options.eq_of_atoms? {atoms : List (Given.Atom × Given.Atom)}
    (h : os.atoms? = some atoms) : os = atoms.map fun e => (e.1, .atom e.2) := by
  induction os generalizing atoms with
  | nil =>
    obtain rfl := Option.some.inj h
    rfl
  | cons e os ih =>
    obtain ⟨k, v⟩ := e
    cases v with
    | atom a =>
      obtain ⟨rest, hrest, rfl⟩ := Option.map_eq_some_iff.1 h
      rw [ih hrest, List.map_cons]
    | _ => cases h

/-! ### What a request gives itself -/

namespace Part.SameUnasked

theorem symm (h : part.SameUnasked R r os os') : part.SameUnasked R r os' os :=
  fun name hname => (h name hname).symm

theorem trans {os'' : Options} (h : part.SameUnasked R r os os')
    (h' : part.SameUnasked R r os' os'') :
    part.SameUnasked R r os os'' :=
  fun name hname => (h' name hname).trans (h name hname)

/-- An option that the request gives may be left out. -/
theorem cons {n : WideText}
    (hasked : ∃ f ∈ part.fields R, Text.wide f.name = n ∧ f.asked r ≠ none) (v : Given)
    (os : Options) : part.SameUnasked R r ((.text n, v) :: os) os := by
  intro name hname
  obtain ⟨f, hf, rfl, hasked⟩ := hasked
  have hne : Text.wide f.name ≠ name := fun h => hasked (hname f hf h)
  rw [Options.given?_cons, if_neg hne, Option.or_none]

theorem winner_eq (h : part.SameUnasked R r os os') : ∀ f ∈ part.fields R,
    f.winner s r os' = f.winner s r os := by
  intro f hf
  unfold RecordField.winner
  cases hasked : f.asked r with
  | some v => rfl
  | none =>
    -- fields of one name are given alike by a request
    rw [h f.name fun f' hf' hname => ?_]
    rw [← Request.find?_overrides f' hf', hname, Request.find?_overrides f hf, hasked]

/-- A name that is not one of a field stands in both sections or in none. -/
theorem exists_unknown (h : part.SameUnasked R r os os') (htexts : ∀ e ∈ os, isText e.1 = true)
    (hunknown : ∃ e ∈ os, ∀ f ∈ part.fields R, e.1 ≠ .text f.name) :
    ∃ e ∈ os', ∀ f ∈ part.fields R, e.1 ≠ .text f.name := by
  obtain ⟨e, he, hname⟩ := hunknown
  obtain ⟨n, hn⟩ := exists_of_isText (htexts e he)
  have hgiven : (os.given? n).isSome := Options.isSome_given?_iff.2 ⟨e, he, hn⟩
  rw [← h n fun f hf hf' => absurd (hf' ▸ hn) (hname f hf)] at hgiven
  obtain ⟨e', he', hn'⟩ := Options.isSome_given?_iff.1 hgiven
  exact ⟨e', he', fun f hf => hn'.trans hn.symm ▸ hname f hf⟩

end Part.SameUnasked

/-- **What a section says of options that the request gives** makes no difference. -/
theorem config_congr (htexts : ∀ e ∈ p.options part, isText e.1 = true)
    (htexts' : ∀ e ∈ p'.options part, isText e.1 = true)
    (h : part.SameUnasked R r (p.options part) (p'.options part)) :
    p'.config R s (r.overrides part) part = .ok o ↔ p.config R s (r.overrides part) part = .ok o := by
  have hrefuses : part.Refuses R s r (p'.options part) ↔ part.Refuses R s r (p.options part) := by
    refine or_congr ⟨h.symm.exists_unknown htexts', h.exists_unknown htexts⟩ ?_
    exact exists_congr fun f => and_congr_right fun hf => by rw [h.winner_eq f hf]
  rw [config_eq_ok_iff htexts, config_eq_ok_iff htexts', hrefuses]
  exact and_congr_right fun _ => forall₂_congr fun f hf => by rw [h.winner_eq f hf]

end Preset

/-! ### The tool -/

namespace Request

open Session

variable {lib : Libraries} {s : Settings} {r : Request} {t : Tree} {src : Sources} {p : Preset}

/-- A tool takes the options of its part from the preset. -/
theorem applyTool_eq (lib : Libraries) (s : Settings) (r : Request) (src : Sources) :
    applyTool lib s r src = (do
      let preset ← orStop Preset.Failure.stop (Preset.load lib.load (← tree) r.presetPath)
      let o ← orStop Preset.Failure.stop (preset.config lib.readers s (r.overrides r.part) r.part)
      r.part.run s src o) := by
  unfold applyTool
  by_cases htool : r.tool = stylesheetTool
  · have hpart : r.part = .stylesheet := if_pos htool
    rw [hpart]
    simp only [if_pos htool]
    rfl
  · have hpart : r.part = .comparison := if_neg htool
    rw [hpart]
    simp only [if_neg htool]
    rfl

/-- **A tool runs with the options of its part**, or stops if there are none. -/
theorem start_applyTool (hload : Preset.load lib.load t r.presetPath = .ok p) :
    (applyTool lib s r src).start t = match p.config lib.readers s (r.overrides r.part) r.part with
      | .ok o => (r.part.run s src o).start t
      | .error e => ⟨.error e.stop, t, []⟩ := by
  have htree : (tree : Session Tree).start t = ⟨.ok t, t, []⟩ := rfl
  have hpreset : (orStop Preset.Failure.stop (Preset.load lib.load t r.presetPath)).start t =
      ⟨.ok p, t, []⟩ := by
    rw [hload]
    rfl
  rw [applyTool_eq, start_bind, htree]
  dsimp only
  rw [start_bind, hpreset]
  dsimp only
  rw [start_bind]
  cases p.config lib.readers s (r.overrides r.part) r.part with
  | ok o => rfl
  | error e => rfl

/-- **Which options a tool runs with.**  It stops, and blames the preset, if the section of the tool
is refused; else it runs, and each field of its options is what the value that counts for it says.
What the section says of options that the request gives makes no difference. -/
theorem applyTool_options (hload : Preset.load lib.load t r.presetPath = .ok p)
    (htexts : ∀ e ∈ p.options r.part, Preset.isText e.1 = true) :
    ((¬r.part.Refuses lib.readers s r (p.options r.part) ∧
        ∃ o, p.config lib.readers s (r.overrides r.part) r.part = .ok o ∧
          (∀ f ∈ r.part.fields lib.readers,
            f.Takes r.part.standard o (f.winner s r (p.options r.part))) ∧
          (applyTool lib s r src).start t = (r.part.run s src o).start t) ∨
      (r.part.Refuses lib.readers s r (p.options r.part) ∧ ∃ problems,
          p.config lib.readers s (r.overrides r.part) r.part =
            .error (.fault (.invalidOptions r.part problems)) ∧
          (applyTool lib s r src).start t =
            ⟨.error (Preset.Failure.fault (.invalidOptions r.part problems)).stop, t, []⟩)) ∧
    ∀ p' : Preset, (∀ e ∈ p'.options r.part, Preset.isText e.1 = true) →
      r.part.SameUnasked lib.readers r (p.options r.part) (p'.options r.part) → ∀ o,
        p'.config lib.readers s (r.overrides r.part) r.part = .ok o ↔
          p.config lib.readers s (r.overrides r.part) r.part = .ok o := by
  refine ⟨?_, fun p' htexts' hsame o => Preset.config_congr htexts htexts' hsame⟩
  rw [start_applyTool hload]
  rcases Preset.config_cases (s := s) (r := r) htexts with
    ⟨haccepted, o, ho⟩ | ⟨hrefused, problems, hfault⟩
  · rw [ho]
    exact .inl ⟨haccepted, o, rfl, ((Preset.config_eq_ok_iff htexts).1 ho).2, rfl⟩
  · rw [hfault]
    exact .inr ⟨hrefused, problems, rfl, rfl⟩

/-- A mode that is none stands in the preset, but the request gives another one: the run goes on as
if the preset were silent about it.  A size of zero is given as well as any other. -/
theorem applyTool_options_shadowed :
    let r : Request := { Request.standard (.ofText "in".toList) (.ofText "out".toList) with
      inputFile := "site.css".toList, presetFile := some "p.yaml".toList,
      mode := some "minify".toList, indentSize := some 0 }
    let s : Settings := { Settings.standard with indentSize := 7 }
    let source : Text := ".a, .b \x7b color: red; \x7d".toList
    let t : Tree := Tree.empty
      |>.put ["in".toList] .directory
      |>.putFile ["in".toList, "p.yaml".toList]
        (.text "css:\n  mode: shout\n  indent_size: 4\n  preserve_comments: no\n".toList)
    let silent : Preset := ⟨[(.text "preserve_comments".toList, .bool false)], []⟩
    ∃ p, Preset.load Preset.loadYaml t r.presetPath = .ok p ∧
      (∀ e ∈ p.options r.part, Preset.isText e.1 = true) ∧
      p.stylesheet.given? "mode".toList = some (.word "shout".toList) ∧
      ∃ o, p.stylesheetOptions .standard s r.stylesheetOverrides = .ok o ∧
        o.mode = .minify ∧ o.indentSize = 0 ∧ o.preserveComments = false ∧
        o.newlineAfterComma = Stylesheet.Options.standard.newlineAfterComma ∧
        (applyTool .standard s r ⟨source, []⟩).start t = (formatStylesheet s o source).start t ∧
        silent.stylesheetOptions .standard s r.stylesheetOverrides = .ok o := by
  intro r s source t silent
  have hread : ((Preset.load Preset.loadYaml t r.presetPath).toOption.bind fun p =>
      p.stylesheet.atoms?) = some [
        (.text "mode".toList, .text "shout".toList), (.text "indent_size".toList, .int 4),
        (.text "preserve_comments".toList, .bool false)] := by decide +kernel
  have hrun : ((applyTool .standard s r ⟨source, []⟩).start t).result.isOk = true := by
    decide +kernel
  have hpart : r.part = .stylesheet := if_pos rfl
  obtain ⟨p, hload, hstylesheet⟩ : ∃ p, Preset.load Preset.loadYaml t r.presetPath = .ok p ∧
      p.stylesheet = [(.text "mode".toList, .word "shout".toList),
        (.text "indent_size".toList, .int 4), (.text "preserve_comments".toList, .bool false)] := by
    cases hload : Preset.load Preset.loadYaml t r.presetPath with
    | error e =>
      rw [hload] at hread
      cases hread
    | ok p =>
      rw [hload] at hread
      exact ⟨p, rfl, Preset.Options.eq_of_atoms? hread⟩
  have htexts : ∀ e ∈ p.options r.part, Preset.isText e.1 = true := by
    rw [hpart, Preset.options, hstylesheet]
    decide
  obtain ⟨hcases, hsame⟩ := @applyTool_options .standard s r t ⟨source, []⟩ p hload htexts
  have hsame := hsame silent
  rw [hpart] at hcases hsame
  have hunasked : Preset.Part.stylesheet.SameUnasked Libraries.standard.readers r p.stylesheet
      silent.stylesheet := by
    rw [hstylesheet]
    refine .trans (.cons ?_ _ _) (.cons ?_ _ _)
    · exact ⟨_, List.mem_cons_self .., rfl, nofun⟩
    · exact ⟨_, List.mem_cons_of_mem _ (List.mem_cons_self ..), rfl, nofun⟩
  rcases hcases with ⟨-, o, ho, htakes, hstart⟩ | ⟨-, problems, -, hstart⟩
  · simp only [Preset.Part.fields, Stylesheet.Options.fields, List.forall_mem_cons] at htakes
    obtain ⟨hmode, hsize, -, -, -, -, -, -, hnewline, hcomments, -⟩ := htakes
    have hmode : (.minify : Stylesheet.Mode) = o.mode := Except.ok.inj hmode
    have hsize : 0 = o.indentSize := Except.ok.inj hsize
    rw [RecordField.winner, Preset.options, hstylesheet] at hcomments hnewline
    have hcomments : false = o.preserveComments := Except.ok.inj hcomments
    refine ⟨p, hload, htexts, ?_, o, ho, hmode.symm, hsize.symm, hcomments.symm, hnewline, hstart,
      ?_⟩
    · rw [hstylesheet]
      rfl
    · exact (hsame (by decide) hunasked o).2 ho
  · rw [hstart] at hrun
    cases hrun

end Request
end Galley
