/-
# What a run that goes through has done

`Session.Returns x t a u` says that the part `x` of a run, begun on the tree `t`, goes through with
the result `a` and leaves the tree `u`.  A part made of two goes through if both do, one on the tree
that the other leaves (`Session.returns_bind`), and each of the parts that all others are made of
has one lemma.

From these follows when each stage goes through, and from the stages when a whole run does
(`Request.returns_carryOut`).  `Request.Formatting` is what a run has done that formats a
stylesheet.
-/

import Galley.Run.Session

namespace Galley
namespace Session

variable {α β ε : Type} {x : Session α} {f : α → Session β} {t u v : Tree} {a : α} {b : β}

/-- The ending of one part after another: the second is not begun where the first stops. -/
theorem start_bind (x : Session α) (f : α → Session β) (t : Tree) :
    (x >>= f).start t =
      match x.start t with
      | ⟨.ok a, u, log⟩ => ⟨((f a).start u).result, ((f a).start u).tree, log ++ ((f a).start u).log⟩
      | ⟨.error stop, u, log⟩ => ⟨.error stop, u, log⟩ := by
  -- below the stops a part is a function of the tree, and the second gets the tree of the first
  have hbind : (x >>= f).run.run t =
      (x.run.run t >>= fun p => match p.1 with
        | .ok a => (f a).run.run p.2
        | .error stop => pure (.error stop, p.2)) := by
    rw [ExceptT.run_bind, StateT.run_bind]
    congr 1
    funext p
    obtain ⟨r, u⟩ := p
    cases r <;> rfl
  unfold start
  rw [hbind]
  cases h : (x.run.run t).value.1 with
  | ok a => simp [h]
  | error stop => simp [h]

/-- Whether a part of a run, begun on one tree, goes through with a result and leaves another
tree. -/
def Returns (x : Session α) (t : Tree) (a : α) (u : Tree) : Prop :=
  (x.start t).result = .ok a ∧ (x.start t).tree = u

theorem returns_of_result (h : (x.start t).result = .ok a) : Returns x t a (x.start t).tree :=
  ⟨h, rfl⟩

theorem returns_pure {a' : α} : Returns (pure a) t a' u ↔ a' = a ∧ u = t := by
  constructor
  · rintro ⟨ha, rfl⟩
    exact ⟨(Except.ok.inj ha).symm, rfl⟩
  · rintro ⟨rfl, rfl⟩
    exact ⟨rfl, rfl⟩

/-- **Two parts go through one after the other.** -/
theorem returns_bind :
    Returns (x >>= f) t b u ↔ ∃ a v, Returns x t a v ∧ Returns (f a) v b u := by
  unfold Returns
  rw [start_bind]
  obtain ⟨r, v, log⟩ := x.start t
  cases r with
  | ok a =>
    constructor
    · intro h
      exact ⟨a, v, ⟨rfl, rfl⟩, h⟩
    · rintro ⟨_, _, ⟨ha, rfl⟩, h⟩
      obtain rfl := Except.ok.inj ha
      exact h
  | error stop => exact iff_of_false nofun nofun

/-! ### The parts that others are made of -/

theorem returns_note {level : Int} {message : Text} {a : Unit} :
    Returns (note level message) t a u ↔ u = t :=
  ⟨fun h => h.2.symm, fun h => ⟨rfl, h.symm⟩⟩

theorem returns_warn {message : Text} {a : Unit} : Returns (warn message) t a u ↔ u = t :=
  ⟨fun h => h.2.symm, fun h => ⟨rfl, h.symm⟩⟩

theorem returns_logged {x : Logged α} : Returns (logged x) t a u ↔ a = x.value ∧ u = t := by
  constructor
  · rintro ⟨ha, rfl⟩
    exact ⟨(Except.ok.inj ha).symm, rfl⟩
  · rintro ⟨rfl, rfl⟩
    exact ⟨rfl, rfl⟩

theorem not_returns_refuse {message : Text} : ¬ Returns (refuse message) t a u := nofun

theorem returns_tree : Returns tree t v u ↔ v = t ∧ u = t := by
  constructor
  · rintro ⟨hv, rfl⟩
    exact ⟨(Except.ok.inj hv).symm, rfl⟩
  · rintro ⟨rfl, rfl⟩
    exact ⟨rfl, rfl⟩

theorem returns_setTree {a : Unit} : Returns (setTree v) t a u ↔ u = v :=
  ⟨fun h => h.2.symm, fun h => ⟨rfl, h.symm⟩⟩

theorem returns_orStop {stop : ε → Stop} {r : Except ε α} :
    Returns (orStop stop r) t a u ↔ r = .ok a ∧ u = t := by
  cases r with
  | ok b => rw [orStop, returns_pure, Except.ok.injEq, eq_comm]
  | error e => exact iff_of_false nofun nofun

theorem returns_ite (c : Prop) [Decidable c] {x y : Session α} :
    Returns (if c then x else y) t a u ↔ if c then Returns x t a u else Returns y t a u := by
  split <;> rfl

/-- A loop over what only says something goes through and leaves the tree as it is. -/
theorem returns_forIn {γ : Type} {xs : List γ} {say : γ → Session Unit}
    (hsay : ∀ c t a u, Returns (say c) t a u ↔ u = t) {a : PUnit} :
    Returns (forIn xs PUnit.unit fun c _ => do say c; pure (.yield PUnit.unit)) t a u ↔ u = t := by
  induction xs generalizing t with
  | nil => simp only [List.forIn_nil, returns_pure, true_and]
  | cons c xs ih =>
    simp only [List.forIn_cons, returns_bind, hsay, returns_pure, exists_and_left, exists_eq_left,
      exists_const, and_assoc, ih]

end Session

/-! ### The stages -/

open Session

variable {lib : Libraries} {s : Settings} {r : Request} {t u : Tree} {l : Located} {src : Sources}
variable {product : Product} {a : Accomplished} {written : List Path}

theorem returns_locateOther {other : Option Path} :
    (locateOther r).Returns t other u ↔
      (if r.tool = Request.comparisonTool then
        ∃ name, r.compareFile = some name ∧ name ≠ [] ∧
          t.has (r.inputDir.append (.ofText name)) = true ∧
          other = some (r.inputDir.append (.ofText name))
      else other = none) ∧ u = t := by
  rw [locateOther, returns_ite]
  split
  · cases r.compareFile with
    | none => exact iff_of_false not_returns_refuse (by simp)
    | some name =>
      cases name with
      | nil => exact iff_of_false not_returns_refuse (by simp)
      | cons c name =>
        simp only [returns_bind, returns_tree, returns_ite, returns_note, returns_pure,
          not_returns_refuse, and_assoc, exists_and_left, exists_eq_left, exists_const]
        simp [and_assoc]
  · exact returns_pure

/-- **The files are found** if they are there; the output directory is made, and the output is to
stand in it. -/
theorem returns_locate :
    (locate r).Returns t l u ↔
      t.has (r.inputDir.append (.ofText r.inputFile)) = true ∧
        (locateOther r).Returns t l.compare t ∧ t.makeDirectories r.outputDir = (.ok (), u) ∧
        l.input = r.inputDir.append (.ofText r.inputFile) ∧
        l.output = r.outputDir.append (.ofText r.outputName) := by
  simp only [locate, returns_ite, returns_bind, returns_tree, returns_note, returns_setTree,
    returns_orStop, returns_pure, not_returns_refuse, and_assoc, exists_and_left, exists_eq_left,
    ite_self, exists_const, false_and, exists_false, if_false_left, Bool.not_eq_true',
    Bool.not_eq_false]
  refine and_congr_right fun _ => ?_
  constructor
  · rintro ⟨other, v, hother, _, hmade, rfl, rfl⟩
    -- looking for the other text changes no tree
    obtain rfl := (returns_locateOther.1 hother).2
    exact ⟨hother, Prod.ext hmade rfl, rfl, rfl⟩
  · rintro ⟨hother, hu, hinput, houtput⟩
    refine ⟨l.compare, t, hother, (), by rw [hu], ?_, by rw [hu]⟩
    rw [← hinput, ← houtput]

theorem returns_readSource {p : Path} {text : Text} :
    (readSource p).Returns t text u ↔ t.readText p = .ok text ∧ u = t := by
  simp only [readSource, returns_bind, returns_tree, returns_note, returns_orStop, returns_pure,
    and_assoc, exists_and_left, exists_eq_left, exists_const]
  constructor
  · rintro ⟨_, htext, rfl, rfl⟩
    exact ⟨htext, rfl⟩
  · rintro ⟨htext, rfl⟩
    exact ⟨text, htext, rfl, rfl⟩

theorem returns_readSources :
    (readSources l).Returns t src u ↔
      t.readText l.input = .ok src.input ∧
        (match l.compare with
          | none => src.compare = []
          | some p => t.readText p = .ok src.compare) ∧ u = t := by
  rw [readSources]
  cases l.compare with
  | none =>
    simp only [returns_bind, returns_readSource, returns_note, returns_pure, and_assoc,
      exists_and_left, exists_eq_left, exists_const]
    constructor
    · rintro ⟨input, hinput, rfl, rfl⟩
      exact ⟨hinput, rfl, rfl⟩
    · rintro ⟨hinput, hcompare, rfl⟩
      exact ⟨src.input, hinput, by rw [← hcompare], rfl⟩
  | some p =>
    simp only [returns_bind, returns_readSource, returns_note, returns_pure, and_assoc,
      exists_and_left, exists_eq_left, exists_const]
    constructor
    · rintro ⟨input, hinput, compare, hcompare, rfl, rfl⟩
      exact ⟨hinput, hcompare, rfl⟩
    · rintro ⟨hinput, hcompare, rfl⟩
      exact ⟨src.input, hinput, src.compare, hcompare, rfl, rfl⟩

theorem returns_formatStylesheet {o : Stylesheet.Options} {source : Text} :
    (formatStylesheet s o source).Returns t product u ↔
      ∃ f, (Stylesheet.format o s.debug source).value = .ok f ∧ product = .stylesheet f ∧ u = t := by
  simp only [formatStylesheet, returns_bind, returns_note, returns_logged, returns_orStop,
    returns_pure, returns_forIn fun _ _ _ _ => returns_warn, and_assoc, exists_and_left,
    exists_eq_left, exists_const]

/-- **A stylesheet is formatted** if its options can be put together and its text is accepted. -/
theorem returns_applyTool_stylesheet (htool : r.tool = Request.stylesheetTool) :
    (applyTool lib s r src).Returns t product u ↔
      ∃ preset, Preset.load lib.load t r.presetPath = .ok preset ∧
        ∃ o, preset.stylesheetOptions lib.readers s r.stylesheetOverrides = .ok o ∧
          ∃ f, (Stylesheet.format o s.debug src.input).value = .ok f ∧
            product = .stylesheet f ∧ u = t := by
  simp only [applyTool, htool, if_true, returns_bind, returns_tree, returns_orStop,
    returns_formatStylesheet, and_assoc, exists_and_left, exists_eq_left]

theorem returns_writeFile {p : Path} {text : Text} {b : Unit} :
    (writeFile p text).Returns t b u ↔ t.write p (.text text) = .ok u := by
  simp only [writeFile, returns_bind, returns_tree, returns_orStop, returns_setTree, returns_note,
    and_assoc, exists_and_left, exists_eq_left, exists_const]
  constructor
  · rintro ⟨v, hv, rfl⟩
    exact hv
  · intro hu
    exact ⟨u, hu, rfl⟩

/-- **A product is written** if it can be encoded. -/
theorem returns_writeProduct {p : Path} {text : Text} :
    (writeProduct p product).Returns t text u ↔
      product.output = text.wide ∧ t.write p (.text text) = .ok u := by
  rw [writeProduct, ← WideText.narrow?_eq_some_iff]
  cases product.output.narrow? with
  | none =>
    refine iff_of_false (fun h => ?_) nofun
    -- what is left of the file is written, but then the run stops
    obtain ⟨_, _, -, h⟩ := returns_bind.1 h
    obtain ⟨_, _, -, h⟩ := returns_bind.1 h
    obtain ⟨_, _, -, h⟩ := returns_bind.1 h
    exact absurd h.1 nofun
  | some text' =>
    simp only [returns_bind, returns_writeFile, returns_pure, exists_const, Option.some.injEq]
    constructor
    · rintro ⟨v, hv, rfl, rfl⟩
      exact ⟨rfl, hv⟩
    · rintro ⟨rfl, hu⟩
      exact ⟨u, hu, rfl, rfl⟩

/-- **The output is written** where it is to stand, and its page beside it if it can be made. -/
theorem returns_writeOutput :
    (writeOutput lib s r l product).Returns t written u ↔
      ∃ text v, product.output = text.wide ∧ t.write l.output (.text text) = .ok v ∧
        if r.html then
          ∃ page, lib.highlight (.ofName product.language) s.highlightStyle r.inputFile text =
              .ok page ∧
            v.write (l.output.withEnding ".html".toList) (.text page) = .ok u ∧
            written = [l.output, l.output.withEnding ".html".toList]
        else written = [l.output] ∧ u = v := by
  simp only [writeOutput, returns_bind, returns_ite, returns_writeProduct, returns_writeFile,
    returns_orStop, returns_pure, exists_const, and_assoc]
  refine exists_congr fun text => exists_congr fun v => and_congr_right fun _ =>
    and_congr_right fun _ => ?_
  split
  · constructor
    · rintro ⟨page, _, hpage, rfl, w, hw, hwritten, rfl⟩
      exact ⟨page, hpage, hw, hwritten⟩
    · rintro ⟨page, hpage, hu, hwritten⟩
      exact ⟨page, v, hpage, rfl, u, hu, hwritten, rfl⟩
  · rfl

theorem returns_summarize {b : Unit} : (summarize written product).Returns t b u ↔ u = t := by
  simp only [summarize, returns_bind, returns_note, returns_pure,
    returns_forIn fun _ _ _ _ => returns_note, exists_eq_left, exists_const, true_and]

/-- **A run goes through** if its stages do, one after the other. -/
theorem Request.returns_carryOut :
    (r.carryOut lib s).Returns t a u ↔
      ∃ v w x src, (locate r).Returns t a.located v ∧ (readSources a.located).Returns v src w ∧
        (applyTool lib s r src).Returns w a.product x ∧
        (writeOutput lib s r a.located a.product).Returns x a.written u := by
  simp only [carryOut, prepare, returns_bind, returns_summarize, returns_pure, exists_eq_left,
    exists_const]
  constructor
  · rintro ⟨_, x, ⟨l, v, hl, src, w, hsrc, product, y, happly, rfl, rfl⟩, ws, z, hwrite, rfl, rfl⟩
    exact ⟨v, w, _, src, hl, hsrc, happly, hwrite⟩
  · rintro ⟨v, w, x, src, hl, hsrc, happly, hwrite⟩
    exact ⟨(a.located, a.product), x, ⟨a.located, v, hl, src, w, hsrc, a.product, x, happly, rfl,
      rfl⟩, a.written, u, hwrite, rfl, rfl⟩

/-- What a run has done that went through and formatted a stylesheet: what it has read, with which
options it has formatted the text, and where it has written the outcome. -/
structure Request.Formatting (lib : Libraries) (s : Settings) (r : Request) (t : Tree)
    (a : Accomplished) where
  tree : Tree
  source : Text
  preset : Preset
  options : Stylesheet.Options
  formatted : Stylesheet.Formatted
  directories : t.makeDirectories r.outputDir = (.ok (), tree)
  read : tree.readText (r.inputDir.append (.ofText r.inputFile)) = .ok source
  load : Preset.load lib.load tree r.presetPath = .ok preset
  combine : preset.stylesheetOptions lib.readers s r.stylesheetOverrides = .ok options
  format : (Stylesheet.format options s.debug source).value = .ok formatted
  product : a.product = .stylesheet formatted
  output : a.located.output = r.outputDir.append (.ofText r.outputName)
  write : ∃ u, tree.write a.located.output (.text formatted.output) = .ok u

/-- **A run that goes through with a stylesheet** has formatted it. -/
theorem Request.exists_formatting (htool : r.tool = stylesheetTool)
    (h : ((r.carryOut lib s).start t).result = .ok a) : Nonempty (r.Formatting lib s t a) := by
  obtain ⟨v, _, _, src, hlocate, hread, happly, hwrite⟩ := returns_carryOut.1 (returns_of_result h)
  obtain ⟨-, -, hv, hinput, houtput⟩ := returns_locate.1 hlocate
  obtain ⟨hsource, -, rfl⟩ := returns_readSources.1 hread
  obtain ⟨preset, hpreset, o, ho, f, hf, hproduct, rfl⟩ :=
    (returns_applyTool_stylesheet htool).1 happly
  obtain ⟨text, w, htext, hw, -⟩ := returns_writeOutput.1 hwrite
  rw [hproduct, Product.output, Text.wide_inj] at htext
  exact ⟨_, src.input, preset, o, f, hv, hinput ▸ hsource, hpreset, ho, hf, hproduct, houtput, w,
    htext ▸ hw⟩

end Galley
