/-
# What a preset is blamed for

A preset that is of no use is to be blamed for it: the options of a section are found, or the answer
is a fault of the preset (`Preset.Answers`).  That holds of all documents but those with a name that
is not a text where a name is put into words or becomes the name of an option
(`Preset.config_answers`).  Such a name is a key like `1` or `yes`, which stands for a number or for
a truth value; it breaks a run down if it is the name of an unknown section, or of an option in the
section that is wanted while all sections are as they should be.

What reads the file and the values is any library.  A file breaks a run down if the library says so,
as it does of bytes that are not text, and otherwise if the document that it reads does.
-/

import Galley.Proofs.Run.Options
import Galley.Run.Standard

namespace Galley
namespace Preset

open Given (Entries)

variable {α : Type} {p : Preset} {s : Settings} {overrides : Entries} {part : Part} {os : Options}
variable {R : Given.Readers} {ps : List (Given.Atom × Given)} {v : Given} {name : Text}

/-- Whether the options are found or the preset is blamed. -/
def Answers (r : Except Failure α) : Prop := (∃ a, r = .ok a) ∨ ∃ f, r = .error (.fault f)

theorem answers_ok (a : α) : Answers (.ok a) := Or.inl ⟨a, rfl⟩

theorem answers_fault (f : Fault) : Answers (.error (.fault f) : Except Failure α) := Or.inr ⟨f, rfl⟩

theorem not_answers_breakdown (b : Breakdown) :
    ¬Answers (.error (.breakdown b) : Except Failure α) := by
  rintro (⟨a, h⟩ | ⟨f, h⟩) <;> cases h

instance : (r : Except Failure α) → Decidable (Answers r)
  | .ok a => isTrue (answers_ok a)
  | .error (.fault f) => isTrue (answers_fault f)
  | .error (.breakdown b) => isFalse (not_answers_breakdown b)

/-! ### The options of a section -/

/-- The options of a section of a preset. -/
def options (p : Preset) : Part → Options
  | .stylesheet => p.stylesheet
  | .comparison => p.comparison

/-- The options that a section is for. -/
abbrev Part.Config : Part → Type
  | .stylesheet => Stylesheet.Options
  | .comparison => LineDiff.Options

/-- The options of a run from a section, the settings and overrides. -/
def config (R : Given.Readers) (p : Preset) (s : Settings) (overrides : Entries) :
    (part : Part) → Except Failure part.Config
  | .stylesheet => p.stylesheetOptions R s overrides
  | .comparison => p.comparisonOptions R s overrides

/-- Whether a name is a text. -/
def isText : Given.Atom → Bool
  | .text _ => true
  | _ => false

theorem exists_of_isText {a : Given.Atom} (h : isText a = true) : ∃ n, a = .text n := by
  cases a with
  | text n => exact ⟨n, rfl⟩
  | _ => cases h

theorem named?_eq_none_iff : named? os = none ↔ ∃ e ∈ os, isText e.1 = false := by
  induction os with
  | nil => simp [named?]
  | cons e os ih =>
    obtain ⟨a, v⟩ := e
    cases a with
    | text n => simp [named?, isText, ih]
    | _ => exact iff_of_true rfl ⟨_, List.mem_cons_self .., rfl⟩

theorem answers_blame (part : Part) (r : Except (List Given.Problem) α) : Answers (blame part r) := by
  cases r with
  | ok a => exact answers_ok a
  | error ps => exact answers_fault _

/-- What is made of the entries of a section is answered if all names of options are texts. -/
theorem answers_combine_iff {settings : Entries} {f : Entries → Except Failure α}
    (hf : ∀ es, Answers (f es)) :
    Answers (combine settings os overrides >>= f) ↔ ∀ e ∈ os, isText e.1 = true := by
  unfold combine
  cases hnamed : named? os with
  | none =>
    obtain ⟨e, he, hname⟩ := named?_eq_none_iff.1 hnamed
    refine iff_of_false (not_answers_breakdown _) fun h => ?_
    rw [h e he] at hname
    cases hname
  | some es =>
    refine iff_of_true (hf _) fun e he => ?_
    cases hname : isText e.1 with
    | true => rfl
    | false =>
      rw [named?_eq_none_iff.2 ⟨e, he, hname⟩] at hnamed
      cases hnamed

/-- **The options of a run** are answered if all names of options in the section are texts. -/
theorem answers_config_iff :
    Answers (p.config R s overrides part) ↔ ∀ e ∈ p.options part, isText e.1 = true := by
  cases part with
  | stylesheet => exact answers_combine_iff fun es => answers_blame _ _
  | comparison => exact answers_combine_iff fun es => answers_blame _ _

/-! ### Documents -/

/-- The options in a section of a mapping; the last section under a name counts. -/
def sectionOptions (part : Part) (ps : List (Given.Atom × Given)) : Options :=
  ((ps.reverse.find? fun q => q.1 == .text part.name).bind fun q => optionsOf? q.2).getD []

/-- Whether all sections of a mapping are those of a tool, and hold options. -/
def IsSound (ps : List (Given.Atom × Given)) : Prop :=
  ∀ q ∈ ps, isSection q.1 = true ∧ optionsOf? q.2 ≠ none

/-- Whether the names of a document are texts where it matters: the names of unknown sections, and
those of the options that are wanted if all sections are sound. -/
def NamesAreTexts (part : Part) (v : Given) : Prop :=
  ∀ ps, v = .mapping ps → (∀ q ∈ ps, isSection q.1 = false → isText q.1 = true) ∧
    (IsSound ps → ∀ e ∈ sectionOptions part ps, isText e.1 = true)

theorem isText_iff (k : Given.Atom) : isText k = true ↔ k.typeName = "str".toList := by
  have hother : ∀ w ∈ ["NoneType", "bool", "int", "float", "bytes", "datetime.date",
      "datetime.datetime"], w.toList ≠ "str".toList := by decide
  cases k with
  | text t => exact iff_of_true rfl rfl
  | _ => exact iff_of_false nofun (hother _ (by decide))

/-- Names are complained about if they can be put into words. -/
theorem answers_unknownSections_iff {keys : List Given.Atom} :
    Answers (.error (unknownSections keys) : Except Failure α) ↔ ∀ k ∈ keys, isText k = true := by
  cases hfind : keys.find? fun k => k.typeName != "str".toList with
  | some k =>
    have hname : isText k ≠ true := by simpa [isText_iff] using List.find?_some hfind
    have hbreakdown : unknownSections keys = .breakdown (.sectionNameNotText k) := by
      unfold unknownSections
      rw [hfind]
    rw [hbreakdown]
    exact iff_of_false (not_answers_breakdown _) fun h =>
      hname (h k (List.mem_of_find?_eq_some hfind))
  | none =>
    obtain ⟨f, hfault⟩ : ∃ f, unknownSections keys = .fault f := by
      unfold unknownSections
      rw [hfind]
      exact ⟨_, rfl⟩
    rw [hfault]
    refine iff_of_true (answers_fault f) fun k hk => (isText_iff k).2 ?_
    simpa using List.find?_eq_none.1 hfind k hk

/-- A preset with other options in the section of a name. -/
def withOptions (p : Preset) (k : Given.Atom) (os : Options) : Preset :=
  if k = .text Part.comparison.name then { p with comparison := os } else { p with stylesheet := os }

theorem addSections_cons_of_some {k : Given.Atom} (h : optionsOf? v = some os) :
    addSections p ((k, v) :: ps) = addSections (p.withOptions k os) ps := by
  rw [addSections, withOptions, h]
  by_cases hk : k = .text Part.comparison.name
  · rw [if_pos hk, if_pos hk]
  · rw [if_neg hk, if_neg hk]

theorem addSections_cons_of_none {k : Given.Atom} (h : optionsOf? v = none) :
    ∃ part, addSections p ((k, v) :: ps) = .error (.fault (.sectionNotMapping part)) := by
  rw [addSections, h]
  exact ⟨_, rfl⟩

theorem options_withOptions {k : Given.Atom} (hk : isSection k = true) (os : Options) (part : Part) :
    (p.withOptions k os).options part = if k = .text part.name then os else p.options part := by
  have hk : k = .text Part.stylesheet.name ∨ k = .text Part.comparison.name := by
    simpa [isSection] using hk
  rcases hk with rfl | rfl <;> cases part <;> rfl

/-- **Sections are added one after the other**, until one does not hold options. -/
theorem addSections_cases (p : Preset) (hps : ∀ q ∈ ps, isSection q.1 = true) :
    (¬IsSound ps ∧ ∃ part, addSections p ps = .error (.fault (.sectionNotMapping part))) ∨
      IsSound ps ∧ ∃ p', addSections p ps = .ok p' ∧
        ∀ part, p'.options part = ((ps.reverse.find? fun q => q.1 == .text part.name).bind
          fun q => optionsOf? q.2).getD (p.options part) := by
  induction ps generalizing p with
  | nil => exact Or.inr ⟨nofun, p, rfl, fun part => rfl⟩
  | cons q ps ih =>
    obtain ⟨k, v⟩ := q
    obtain ⟨hk, hps⟩ := List.forall_mem_cons.1 hps
    cases hv : optionsOf? v with
    | none => exact Or.inl ⟨fun h => (List.forall_mem_cons.1 h).1.2 hv, addSections_cons_of_none hv⟩
    | some os =>
      rw [addSections_cons_of_some hv]
      rcases ih (p.withOptions k os) hps with ⟨hsound, hfault⟩ | ⟨hsound, p', hok, hoptions⟩
      · exact Or.inl ⟨fun h => hsound (List.forall_mem_cons.1 h).2, hfault⟩
      · refine Or.inr ⟨List.forall_mem_cons.2 ⟨⟨hk, by simp [hv]⟩, hsound⟩, p', hok, fun part => ?_⟩
        rw [hoptions, List.reverse_cons, List.find?_append, options_withOptions hk]
        -- a later section of the name counts, else this one if it has the name
        cases hfind : ps.reverse.find? fun q => q.1 == .text part.name with
        | some q =>
          have hq := (hsound q (List.mem_reverse.1 (List.mem_of_find?_eq_some hfind))).2
          obtain ⟨os', hos'⟩ := Option.ne_none_iff_exists'.1 hq
          simp [hos']
        | none =>
          by_cases hname : k = .text part.name
          · simp [hname, hv]
          · simp [hname]

/-- **The preset of a document** is answered, and so are the options from it, if the names that
matter are texts. -/
theorem answers_ofValue_iff :
    Answers (ofValue name v >>= fun p => p.config R s overrides part) ↔ NamesAreTexts part v := by
  cases v with
  | atom a =>
    refine iff_of_true ?_ nofun
    cases a with
    | null => exact answers_config_iff.2 (by cases part <;> exact nofun)
    | _ => exact answers_fault _
  | sequence | object => exact iff_of_true (answers_fault _) nofun
  | mapping ps =>
    have hnames : NamesAreTexts part (.mapping ps) ↔
        (∀ q ∈ ps, isSection q.1 = false → isText q.1 = true) ∧
          (IsSound ps → ∀ e ∈ sectionOptions part ps, isText e.1 = true) := by
      simp [NamesAreTexts]
    rw [hnames]
    have hunknown : ((ps.map Prod.fst).filter fun k => !isSection k).isEmpty = true ↔
        ∀ q ∈ ps, isSection q.1 = true := by simp
    by_cases hknown : ∀ q ∈ ps, isSection q.1 = true
    · have hvalue : ofValue name (.mapping ps) = addSections empty ps := if_pos (hunknown.2 hknown)
      rw [hvalue]
      have htexts : ∀ q ∈ ps, isSection q.1 = false → isText q.1 = true := fun q hq h => by
        rw [hknown q hq] at h
        cases h
      rw [and_iff_right htexts]
      rcases addSections_cases empty hknown with ⟨hsound, part', hfault⟩ | ⟨hsound, p, hok, hoptions⟩
      · rw [hfault]
        exact iff_of_true (answers_fault _) fun h => absurd h hsound
      · have hp : p.options part = sectionOptions part ps := by
          rw [hoptions, sectionOptions]
          cases part <;> rfl
        rw [hok, imp_iff_right hsound, ← hp]
        exact answers_config_iff
    · have hvalue : ofValue name (.mapping ps) =
          .error (unknownSections ((ps.map Prod.fst).filter fun k => !isSection k)) :=
        if_neg fun h => hknown (hunknown.1 h)
      have hsound : ¬IsSound ps := fun h => hknown fun q hq => (h q hq).1
      rw [hvalue, and_iff_left fun h => absurd h hsound]
      refine answers_unknownSections_iff.trans ?_
      simp

/-- **What a preset is blamed for**, whatever reads its file and the values in it. -/
theorem config_answers (R : Given.Readers) (name : Text) (s : Settings) (overrides : Entries)
    (part : Part) :
    (∀ v, Answers (ofValue name v >>= fun p => p.config R s overrides part) ↔
        NamesAreTexts part v) ∧
      ∀ (load : Loader) (c : Content),
        Answers (ofContent load name c >>= fun p => p.config R s overrides part) ↔
          (∀ v, load c = .ok v → NamesAreTexts part v) ∧ ∀ b, load c ≠ .error (.broken b) := by
  refine ⟨fun v => answers_ofValue_iff, fun load c => ?_⟩
  unfold ofContent
  cases hload : load c with
  | ok v => simpa using answers_ofValue_iff
  | error e =>
    cases e with
    | unparsable => exact iff_of_true (answers_fault _) ⟨nofun, nofun⟩
    | broken b => exact iff_of_false (not_answers_breakdown b) fun h => h.2 b rfl

/-- A number or a time as the name of a section breaks down both tools, and as the name of an option
the tool of its section; so does a byte that is not text. -/
theorem config_answers_not :
    let run (content : Content) (part : Part) : Except Failure part.Config :=
      ofContent loadYaml "preset.yaml".toList content >>= fun p =>
        p.config .standard .standard [] part
    let text (content : String) : Content := .bytes (Utf8.encode content.toList)
    ¬Answers (run (text "1: \x7b\x7d\n") .stylesheet) ∧
      ¬Answers (run (text "1: \x7b\x7d\n") .comparison) ∧
      ¬Answers (run (text "2001-12-14 21:59:43: \x7b\x7d\n") .stylesheet) ∧
      ¬Answers (run (text "css:\n  2: 4\n") .stylesheet) ∧
      Answers (run (text "css:\n  2: 4\n") .comparison) ∧
      ¬Answers (run (.bytes [0xFF]) .comparison) := by
  decide +kernel

end Preset
end Galley
