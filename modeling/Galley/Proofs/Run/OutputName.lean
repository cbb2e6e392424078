/-
# The name of a formatted stylesheet

Where a request names no output, the output of a stylesheet is named after the input, with an ending
that is to tell the mode.  The name is chosen before the preset is read, so it tells the mode that
the request asks for, and this need not be the mode that the stylesheet is printed in.

The two agree except where the request leaves the mode open and the preset asks for a minified
stylesheet (`Request.outputName_tells`): then a minified stylesheet has the name of a beautified
one.  This holds with any libraries, as long as a mode is only read from its own word.
-/

import Galley.Proofs.Run.Options
import Galley.Proofs.Run.Session
import Galley.Proofs.Text.Lines
import Galley.Run.Standard
import Mathlib.Control.Monad.Basic

namespace Galley

/-! ### Names without directories -/

namespace Path

variable {p : Path} {t : Text} {c : Char}

/-- The last name of a path has no slash. -/
theorem slash_not_mem_name (t : Text) : '/' ∉ (ofText t).name := by
  unfold name
  split
  · rename_i n hn
    split
    · exact List.not_mem_nil
    · rename_i htop
      rcases List.mem_append.1 (List.mem_of_getLast? hn) with h | h
      · split at h
        · exact absurd (List.mem_singleton.1 h) htop
        · cases h
      · exact Text.not_mem_of_mem_splitAll (List.mem_filter.1 h).1
  · exact List.not_mem_nil

/-- What is left of a name without its extension stands in the name. -/
theorem mem_name_of_mem_stem (h : c ∈ p.stem) : c ∈ p.name := by
  unfold stem at h
  dsimp only at h
  split at h
  · exact h
  · have h := List.mem_of_mem_tail (List.mem_reverse.1 h)
    exact List.mem_reverse.1 ((List.dropWhile_sublist _).mem h)

/-- A text without a slash names what stands in a directory. -/
theorem name_append_ofText (p : Path) (hslash : '/' ∉ t) (hne : t ≠ []) (hdot : t ≠ ['.']) :
    (p.append (ofText t)).name = t := by
  have htop : t ≠ top := by
    rintro rfl
    exact hslash (List.mem_singleton_self _)
  have hhead : (t.head? == some '/') = false := by
    rw [beq_eq_false_iff_ne]
    intro h
    exact hslash (List.mem_of_head? h)
  have hnames : (ofText t).names = [t] := by
    rw [ofText, hhead, Text.splitAll_of_not_mem hslash]
    simp [hne, hdot]
  have habsolute : (ofText t).isAbsolute = false := by
    rw [isAbsolute, hnames]
    simpa using htop
  rw [append, habsolute, hnames, if_neg (by simp), name, List.getLast?_append]
  simp [htop]

end Path

/-! ### The ending -/

/-- The ending of a file name that tells a mode. -/
def Stylesheet.Mode.ending : Mode → Text
  | .beautify => ".formatted.css".toList
  | .minify => ".min.css".toList

theorem Stylesheet.Mode.ending_injective {m m' : Mode} (h : m.ending = m'.ending) : m = m' := by
  cases m with
  | beautify =>
    cases m' with
    | beautify => rfl
    | minify => exact absurd h (by decide)
  | minify =>
    cases m' with
    | beautify => exact absurd h (by decide)
    | minify => rfl

namespace Request

open Stylesheet (Mode)

variable {lib : Libraries} {s : Settings} {r : Request} {t : Tree} {a : Accomplished}

/-- The mode that a request asks for. -/
def askedMode (r : Request) : Mode := if r.mode = some "minify".toList then .minify else .beautify

/-- A name tells the mode that is asked for. -/
theorem derivedName_stylesheet (htool : r.tool = stylesheetTool) :
    r.derivedName = (Path.ofText r.inputFile).stem ++ r.askedMode.ending := by
  rw [derivedName, htool, if_neg (by decide), askedMode]
  split <;> rfl

theorem name_output_stylesheet (htool : r.tool = stylesheetTool) (hfile : r.outputFile = []) :
    (r.outputDir.append (.ofText r.outputName)).name =
      (Path.ofText r.inputFile).stem ++ r.askedMode.ending := by
  have hending : '/' ∉ r.askedMode.ending ∧ 2 ≤ r.askedMode.ending.length := by
    cases r.askedMode <;> decide
  rw [outputName, hfile, if_pos (by rfl), derivedName_stylesheet htool]
  refine Path.name_append_ofText _ (fun h => ?_) (fun h => ?_) fun h => ?_
  · rcases List.mem_append.1 h with h | h
    · exact Path.slash_not_mem_name _ (Path.mem_name_of_mem_stem h)
    · exact hending.1 h
  · have := congrArg List.length h
    rw [List.length_append, List.length_nil] at this
    omega
  · have := congrArg List.length h
    rw [List.length_append, List.length_singleton] at this
    omega

/-- **The name of the output tells the mode**, unless the request leaves the mode open and the
preset asks for a minified stylesheet. -/
theorem outputName_tells (hwords : lib.readers.ReadsWords) (htool : r.tool = stylesheetTool)
    (hfile : r.outputFile = []) (h : ((r.carryOut lib s).start t).result = .ok a) :
    ∃ F : r.Formatting lib s t a,
      a.located.output.name = (Path.ofText r.inputFile).stem ++ r.askedMode.ending ∧
      (a.located.output.name = (Path.ofText r.inputFile).stem ++ F.options.mode.ending ↔
        ¬ (r.mode = none ∧
          F.preset.stylesheet.given? "mode".toList = some (.word "minify".toList))) := by
  obtain ⟨F⟩ := exists_formatting htool h
  have hname : a.located.output.name = (Path.ofText r.inputFile).stem ++ r.askedMode.ending := by
    rw [F.output]
    exact name_output_stylesheet htool hfile
  have htells : a.located.output.name = (Path.ofText r.inputFile).stem ++ F.options.mode.ending ↔
      r.askedMode = F.options.mode := by
    rw [hname, List.append_cancel_left_eq]
    exact ⟨Mode.ending_injective, congrArg Mode.ending⟩
  refine ⟨F, hname, htells.trans ?_⟩
  have hmode := Preset.mode_stylesheetOptions hwords F.combine
  rw [askedMode]
  by_cases hasked : r.mode = some "minify".toList
  · rw [if_pos hasked, hmode.2 (.inl hasked), hasked]
    simp
  · rw [if_neg hasked, ← hmode.trans (or_iff_right hasked)]
    cases F.options.mode <;> simp

/-- A mode on the command line wins over the preset, and the name tells it. -/
theorem outputName_tells_asked :
    let r : Request := { Request.standard (.ofText "in".toList) (.ofText "out/css".toList) with
      inputFile := "themes/site.v2.css".toList, presetFile := some "p.yaml".toList,
      mode := some "minify".toList }
    let t : Tree := Tree.empty
      |>.put ["in".toList] .directory
      |>.put ["in".toList, "themes".toList] .directory
      |>.putFile ["in".toList, "themes".toList, "site.v2.css".toList]
        (.text ".a \x7b color: red; \x7d".toList)
      |>.putFile ["in".toList, "p.yaml".toList] (.text "css:\n  mode: beautify\n".toList)
    Libraries.standard.readers.ReadsWords ∧ r.tool = stylesheetTool ∧ r.outputFile = [] ∧
      ∃ a, ((r.carryOut .standard .standard).start t).result = .ok a ∧
        a.located.output.name = "site.v2.min.css".toList ∧
        ∃ F : r.Formatting .standard .standard t a, F.options.mode = .minify := by
  intro r t
  have hrun : ((r.carryOut .standard .standard).start t).result.isOk = true := by decide +kernel
  cases ha : ((r.carryOut .standard .standard).start t).result with
  | error stop => simp [ha, Except.isOk, Except.toBool] at hrun
  | ok a =>
    have hwords : Libraries.standard.readers.ReadsWords := Given.Readers.standard_readsWords
    obtain ⟨F, hname, htells⟩ := outputName_tells (r := r) hwords rfl rfl ha
    have hmode : F.options.mode = r.askedMode := by
      have htold := htells.2 fun h => nomatch h.1
      exact Mode.ending_injective (List.append_cancel_left (htold.symm.trans hname))
    exact ⟨hwords, rfl, rfl, a, rfl, hname.trans (by decide), F, hmode⟩

/-- A mode in the preset alone: what is written is minified, and the name tells otherwise. -/
theorem outputName_tells_not :
    let r : Request := { Request.standard (.ofText "in".toList) (.ofText "out".toList) with
      inputFile := "site.css".toList, presetFile := some "p.yaml".toList }
    let t : Tree := Tree.empty
      |>.put ["in".toList] .directory
      |>.putFile ["in".toList, "site.css".toList] (.text ".a \x7b color: red; \x7d".toList)
      |>.putFile ["in".toList, "p.yaml".toList] (.text "css:\n  mode: minify\n".toList)
    (((r.carryOut .standard .standard).start t).result.map fun a =>
        (a.located.output.name, a.product.output)) =
      .ok ("site.formatted.css".toList, Text.wide ".a\x7bcolor:red;\x7d".toList) ∧
    (((Preset.load Preset.loadYaml t r.presetPath).bind fun p =>
        p.stylesheetOptions .standard .standard r.stylesheetOverrides).map
          Stylesheet.Options.mode) = .ok .minify := by
  intro r t
  decide +kernel

end Request
end Galley
