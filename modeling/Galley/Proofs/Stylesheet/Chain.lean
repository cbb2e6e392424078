/-
# Formatting again

What is formatted may be formatted again, by other options.  Printed trees are read back
(`Galley.Proofs.Stylesheet.RoundTrip`), and no printer looks at places, so the text between two
formattings only passes on which rules and declarations are left and in which order:

    format o' (format o source) = format (o'.after o) source

where `o'.after o` prints like `o'` and leaves out, and sorts, what either does.  So formatting is
idempotent, and a chain of formattings is one formatting by the last options, with the filters of
all of them (`foldl_formatted`).
-/

import Galley.Proofs.Stylesheet.RoundTrip

namespace Galley
namespace Stylesheet

variable {o o' : Options} {debug : Bool} {source : Text}

/-- The text that formatting a text yields; a text that is refused yields the empty text. -/
def formatted (o : Options) (debug : Bool) (source : Text) : Text :=
  outputOf (format o debug source).value

/-- What formatting a text yields, apart from its log. -/
theorem value_format (o : Options) (debug : Bool) (source : Text) :
    (format o debug source).value =
      if source.allBlank then .error .blankText
      else if o.mode == .beautify && !o.indentFits then .error .indentTooWide
      else .ok ⟨render (rulesOf source) o,
        .of source (render (rulesOf source) o) (rulesOf source), rulesOf source⟩ := by
  unfold format
  cases source.allBlank with
  | true => rfl
  | false =>
    cases o.mode == .beautify && !o.indentFits with
    | true => rfl
    | false => rfl

/-- A text with nothing but blanks has no rules. -/
theorem rulesOf_eq_nil (h : source.allBlank = true) : rulesOf source = [] := by
  have hparse : parse (Token.scanFrom .start (source ++ [])) =
      parse (Token.scanFrom (Position.start.advance source) []) :=
    Token.scanFrom_blanks parse (fun _ _ h => parse_blank h) .start h []
  rwa [List.append_nil, Token.scanFrom_nil, parse_nil] at hparse

theorem render_nil (o : Options) : render [] o = [] := by
  unfold render
  cases o.mode <;> rfl

/-- **A formatting whose indentation can be built yields the printed tree**; a blank text, which is
refused, has the empty tree. -/
theorem formatted_eq_render (ho : o.mode = .beautify → o.indentFits = true) :
    formatted o debug source = render (rulesOf source) o := by
  rw [formatted, value_format]
  cases hb : source.allBlank with
  | true =>
    rw [if_pos rfl, rulesOf_eq_nil hb, render_nil]
    rfl
  | false =>
    have hfits : (o.mode == .beautify && !o.indentFits) = false := by
      cases hm : o.mode with
      | beautify => simp [ho hm]
      | minify => rfl
    rw [if_neg Bool.false_ne_true, hfits, if_neg Bool.false_ne_true]
    rfl

/-- What a printer writes is read back. -/
theorem eraseAll_rulesOf_render (s : Text) (o : Options) :
    Rule.eraseAll (rulesOf (render (rulesOf s) o)) =
      Rule.eraseAll (Rule.normalAll o (rulesOf s)) := by
  unfold render
  cases o.mode with
  | beautify => exact eraseAll_rulesOf_beautify (allWellFormed_rulesOf s) o
  | minify => exact eraseAll_rulesOf_minify (allWellFormed_rulesOf s) o

/-- **Printing what was printed is printing once** by the later options, with what the earlier ones
leave out and sort. -/
theorem render_rulesOf_render (o' o : Options) (s : Text) :
    render (rulesOf (render (rulesOf s) o)) o' = render (rulesOf s) (o'.after o) := by
  rw [← render_eraseAll, eraseAll_rulesOf_render, render_eraseAll, ← render_normalAll,
    Rule.normalAll_normalAll, ← Options.unfiltered_after o' o, render_normalAll]

/-- **Formatting what was formatted is formatting once.** -/
theorem formatted_formatted (ho : o.mode = .beautify → o.indentFits = true)
    (ho' : o'.mode = .beautify → o'.indentFits = true) :
    formatted o' debug (formatted o debug source) = formatted (o'.after o) debug source := by
  have hafter : (o'.after o).mode = .beautify → (o'.after o).indentFits = true := ho'
  rw [formatted_eq_render ho, formatted_eq_render ho', render_rulesOf_render,
    formatted_eq_render hafter]

theorem Options.after_self (o : Options) : o.after o = o := by
  simp [after]

/-- **Formatting is idempotent.** -/
theorem formatted_idempotent (ho : o.mode = .beautify → o.indentFits = true) :
    formatted o debug (formatted o debug source) = formatted o debug source := by
  rw [formatted_formatted ho ho, Options.after_self]

/-! ### Any number of formattings -/

/-- The options of one formatting that stands for several, one after the other. -/
def Options.collapse (o : Options) (os : List Options) : Options :=
  os.foldl (fun o o' => o'.after o) o

theorem foldl_formatted (os : List Options)
    (hos : ∀ o' ∈ o :: os, o'.mode = .beautify → o'.indentFits = true) :
    os.foldl (fun t o' => formatted o' debug t) (formatted o debug source) =
      formatted (o.collapse os) debug source := by
  induction os generalizing o with
  | nil => rfl
  | cons o' os ih =>
    obtain ⟨ho, ho', hos⟩ : (o.mode = .beautify → o.indentFits = true) ∧
        (o'.mode = .beautify → o'.indentFits = true) ∧
        ∀ o'' ∈ os, o''.mode = .beautify → o''.indentFits = true := by
      simpa using hos
    rw [List.foldl_cons, formatted_formatted ho ho', Options.collapse, List.foldl_cons]
    exact ih (List.forall_mem_cons.2 ⟨ho', hos⟩)

/-- **The options of several formattings** are the last ones, with comments kept where all keep
them, and rules left out and declarations sorted where any of them does so. -/
theorem Options.collapse_eq (o : Options) (os : List Options) :
    o.collapse os =
      { (o :: os).getLast (List.cons_ne_nil o os) with
        preserveComments := (o :: os).all Options.preserveComments
        dropEmptyRules := (o :: os).any Options.dropEmptyRules
        sortDeclarations := (o :: os).any Options.sortDeclarations } := by
  induction os generalizing o with
  | nil => simp [collapse]
  | cons o' os ih =>
    have hfold : o.collapse (o' :: os) = (o'.after o).collapse os := rfl
    rw [hfold, ih]
    cases os with
    | nil => simp [after]
    | cons o'' os => simp [after, Bool.and_assoc, Bool.or_assoc]

/-- **A chain of formattings is one formatting.**  Feeding the output of each formatting to the
next one ends with the output of the last one alone, where comments are kept if all keep them, and
rules without declarations are left out and declarations are sorted if any does so. -/
theorem foldl_outputOf_format (os : List Options) (hne : os ≠ [])
    (hos : ∀ o ∈ os, o.mode = .beautify → o.indentType = .spaces → o.indentSize < powerOfTwo 63)
    (debug : Bool) (source : Text) :
    os.foldl (fun t o => outputOf (format o debug t).value) source =
      outputOf (format
        { os.getLast hne with
          preserveComments := os.all Options.preserveComments
          dropEmptyRules := os.any Options.dropEmptyRules
          sortDeclarations := os.any Options.sortDeclarations } debug source).value := by
  obtain ⟨o, os, rfl⟩ := List.exists_cons_of_ne_nil hne
  have hfits : ∀ o' ∈ o :: os, o'.mode = .beautify → o'.indentFits = true := by
    intro o' ho' hmode
    cases ht : o'.indentType with
    | spaces =>
      have hsize : o'.indentSize < powerOfTwo 63 := hos o' ho' hmode ht
      simp [Options.indentFits, hsize]
    | tabs => simp [Options.indentFits, ht]
  rw [← Options.collapse_eq]
  exact foldl_formatted os hfits

/-- Two layouts and then compact text, with a comment, an empty rule and declarations out of
order. -/
theorem foldl_outputOf_format_layouts :
    let os : List Options :=
      [{ Options.standard with indentSize := 4, sortDeclarations := true },
        { Options.standard with indentType := .tabs, preserveComments := false },
        { Options.standard with mode := .minify, dropEmptyRules := true }]
    let source := "/* c */ b { z: 1; a: 2 !important } @media x { c { } }".toList
    os ≠ [] ∧
      (∀ o ∈ os, o.mode = .beautify → o.indentType = .spaces → o.indentSize < powerOfTwo 63) ∧
      os.foldl (fun t o => outputOf (format o false t).value) source =
        outputOf (format
          { Options.standard with
            mode := .minify
            preserveComments := false
            dropEmptyRules := true
            sortDeclarations := true } false source).value :=
  ⟨by simp, by decide, foldl_outputOf_format _ (by simp) (by decide) false _⟩

end Stylesheet
end Galley
