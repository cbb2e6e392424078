/-
# Findings and counts of formatted text

Formatting is not a way to get rid of a finding.  A text that has been formatted, under any options,
has the findings of the text that it was formatted from, and as many declarations
(`format_findings`).

What a formatting may change does not bear on that:

| change | why it has no effect |
| --- | --- |
| comments are left out | they have no findings and are not counted |
| declarations are sorted | the findings of a rule come in another order |
| rules are left out | they have no declarations, and their selectors are not blank |

The last line needs what the parser makes sure of: a rule without selector has a declaration.  The
number of rules may only go down, and it stays where no rules are left out.
-/

import Galley.Proofs.Stylesheet.Chain

namespace Galley
namespace Stylesheet

variable {o o' : Options} {debug inner : Bool} {source : Text} {ds : List Declaration} {r : Rule}
  {rs : List Rule}

/-! ### Findings -/

/-- What an issue reports, without its place. -/
def Issue.report (i : Issue) : Severity × Text × Text :=
  (i.finding.severity, i.finding.code, i.finding.message)

/-- The findings about some rules, without their places. -/
def findings (rs : List Rule) : List Finding := (validate rs).map Issue.finding

theorem findings_cons (r : Rule) (rs : List Rule) :
    findings (r :: rs) = r.issues.map Issue.finding ++ findings rs := by
  simp [findings, validate]

theorem findings_style (s : Text) (ds : List Declaration) (children : List Rule) (p : Position) :
    (Rule.style s ds children p).issues.map Issue.finding =
      (if s.allBlank then [Finding.emptySelector] else []) ++ ds.flatMap Declaration.findings := by
  rw [Rule.issues, List.map_map]
  exact List.map_id _

/-- Findings do not depend on places. -/
theorem findings_eraseAll (rs : List Rule) : findings (Rule.eraseAll rs) = findings rs := by
  induction rs with
  | nil => rfl
  | cons r rs ih =>
    rw [Rule.eraseAll, findings_cons, findings_cons, ih]
    cases r with
    | style s ds children p => rw [Rule.erase, findings_style, findings_style]
    | comment t p => rfl
    | statement k pre p => rfl
    | group k pre ds children p => rfl

/-- **What is left out has no issues.** -/
theorem issues_of_skipped (hr : r.WellFormed inner) (h : r.skipped o = true) : r.issues = [] := by
  cases r with
  | style s ds children p =>
    have hempty := Rule.isEmpty_of_skipped h
    rw [Rule.isEmpty, Bool.and_eq_true, List.isEmpty_iff] at hempty
    obtain ⟨rfl, -⟩ := hempty
    obtain ⟨hs, hne, -, -⟩ := hr
    obtain ⟨c, cs, rfl⟩ := List.exists_cons_of_ne_nil fun hnil => hne hnil rfl
    have hsolid := hs.phrase.tidy.head_solid
    simp [Rule.issues, Text.allBlank, hsolid]
  | comment t p => rfl
  | statement k pre p => rfl
  | group k pre ds children p => rfl

/-- **The normal form of a tree has the findings of the tree**, in some order. -/
theorem findings_normalAll_perm (h : Rule.AllWellFormed inner rs) :
    (findings (Rule.normalAll o rs)).Perm (findings rs) := by
  induction rs with
  | nil => exact List.Perm.refl _
  | cons r rs ih =>
    obtain ⟨hr, hrs⟩ := h
    rw [Rule.normalAll, findings_cons]
    cases hskip : r.skipped o with
    | true =>
      rw [issues_of_skipped hr hskip]
      exact ih hrs
    | false =>
      rw [if_neg (by simp), findings_cons]
      refine List.Perm.append ?_ (ih hrs)
      cases r with
      | style s ds children p =>
        rw [Rule.normal, findings_style, findings_style]
        exact ((Declaration.inOrder_perm o ds).flatMap_right _).append_left _
      | comment t p => exact List.Perm.refl _
      | statement k pre p => exact List.Perm.refl _
      | group k pre ds children p => exact List.Perm.refl _

/-- The reports of the issues of one severity are made of the findings. -/
theorem map_report_filter_validate (q : Finding → Bool) (rs : List Rule) :
    ((validate rs).filter fun i => q i.finding).map Issue.report =
      ((findings rs).filter q).map fun f => (f.severity, f.code, f.message) := by
  rw [findings, List.filter_map, List.map_map]
  rfl

/-! ### Counts -/

namespace Rule

/-- Whether a tally has the declarations of another one and no more rules, or as many if `all`
says so. -/
structure Tally.Within (all : Bool) (a b : Tally) : Prop where
  declarations : a.declarations = b.declarations
  rules_le : a.rules ≤ b.rules
  rules_eq : all = true → a.rules = b.rules

theorem Tally.Within.refl (all : Bool) (a : Tally) : a.Within all a :=
  ⟨rfl, le_rfl, fun _ => rfl⟩

theorem Tally.Within.add {all : Bool} {a b c d : Tally} (h : a.Within all b)
    (h' : c.Within all d) : (a.add c).Within all (b.add d) :=
  ⟨congrArg₂ _ h.declarations h'.declarations, Nat.add_le_add h.rules_le h'.rules_le,
    fun hall => congrArg₂ _ (h.rules_eq hall) (h'.rules_eq hall)⟩

theorem tallyAll_eraseAll (rs : List Rule) : tallyAll (eraseAll rs) = tallyAll rs := by
  induction rs using forest_induction with
  | nil => rfl
  | comment t p rs ih => rw [eraseAll, tallyAll, tallyAll, ih]; rfl
  | statement k pre p rs ih => rw [eraseAll, tallyAll, tallyAll, ih]; rfl
  | group k pre ds children p rs ihc ih =>
    rw [eraseAll, tallyAll, tallyAll, ih, erase, tally, tally, ihc]
  | style s ds children p rs ihc ih =>
    rw [eraseAll, tallyAll, tallyAll, ih, erase, tally, tally, ihc]

/-- What has no declarations counts none. -/
theorem declarations_tallyAll (h : allEmpty rs = true) : (tallyAll rs).declarations = 0 := by
  induction rs using forest_induction with
  | nil => rfl
  | comment t p rs ih => simpa [tallyAll, tally, Tally.add, allEmpty, isEmpty] using ih h
  | statement k pre p rs ih => simp [allEmpty, isEmpty] at h
  | group k pre ds children p rs ihc ih =>
    simp only [allEmpty, isEmpty, Bool.and_eq_true] at h
    simp [tallyAll, tally, Tally.add, ihc h.1.2, ih h.2]
  | style s ds children p rs ihc ih =>
    simp only [allEmpty, isEmpty, Bool.and_eq_true, List.isEmpty_iff] at h
    simp [tallyAll, tally, Tally.add, h.1.1, ihc h.1.2, ih h.2]

/-- **The normal form of a tree counts the declarations of the tree** and no more rules; as many if
no rules are left out. -/
theorem tallyAll_normalAll (o : Options) (rs : List Rule) :
    (tallyAll (normalAll o rs)).Within (!o.dropEmptyRules) (tallyAll rs) := by
  -- the rules of the list: what is left out counts as nothing
  have cons : ∀ r rs, (r.skipped o = true → Tally.Within (!o.dropEmptyRules) ⟨0, 0⟩ (tally r)) →
      Tally.Within (!o.dropEmptyRules) (tally (normal o r)) (tally r) →
      (tallyAll (normalAll o rs)).Within (!o.dropEmptyRules) (tallyAll rs) →
      (tallyAll (normalAll o (r :: rs))).Within (!o.dropEmptyRules) (tallyAll (r :: rs)) := by
    intro r rs hskip hr hrs
    rw [normalAll, tallyAll]
    cases h : r.skipped o with
    | true =>
      have hadd := (hskip h).add hrs
      simpa [Tally.add] using hadd
    | false =>
      rw [if_neg (by simp), tallyAll]
      exact hr.add hrs
  induction rs using forest_induction with
  | nil => exact Tally.Within.refl _ _
  | comment t p rs ih =>
    exact cons _ rs (fun _ => Tally.Within.refl _ _) (Tally.Within.refl _ _) ih
  | statement k pre p rs ih =>
    exact cons _ rs (fun _ => Tally.Within.refl _ _) (Tally.Within.refl _ _) ih
  | group k pre ds children p rs ihc ih =>
    exact cons _ rs (by simp [skipped]) ihc ih
  | style s ds children p rs ihc ih =>
    refine cons _ rs (fun h => ?_) ?_ ih
    · rw [skipped, Bool.and_eq_true, isEmpty, Bool.and_eq_true, List.isEmpty_iff] at h
      obtain ⟨hdrop, rfl, hc⟩ := h
      refine ⟨?_, Nat.zero_le _, by simp [hdrop]⟩
      simp [tally, Tally.add, declarations_tallyAll hc]
    · have hlen : (Declaration.inOrder o ds).length = ds.length :=
        (Declaration.inOrder_perm o ds).length_eq
      rw [normal, tally, tally, hlen]
      exact (Tally.Within.refl _ _).add ihc

end Rule

/-! ### Formatted texts -/

/-- **When a formatting succeeds, and with what.** -/
theorem format_eq_ok_iff {f : Formatted} :
    (format o debug source).value = .ok f ↔
      source.allBlank = false ∧ (o.mode == .beautify && !o.indentFits) = false ∧
        f = ⟨render (rulesOf source) o,
          .of source (render (rulesOf source) o) (rulesOf source), rulesOf source⟩ := by
  rw [value_format, eq_comm (a := f)]
  cases source.allBlank with
  | true => simp
  | false =>
    cases o.mode == .beautify && !o.indentFits with
    | true => simp
    | false => simp

/-- **Formatting keeps the findings and the counts.**  Where a text is formatted and the output is
formatted again, under any options, both formattings report the same errors and the same warnings,
though perhaps in another order, and as many declarations.  The second one reports no more rules,
and as many if the first one leaves no rules out. -/
theorem format_findings {debug' : Bool} {f f' : Formatted}
    (h : (format o debug source).value = .ok f)
    (h' : (format o' debug' f.output).value = .ok f') :
    (f'.statistics.errors.map Issue.report).Perm (f.statistics.errors.map Issue.report) ∧
      (f'.statistics.warnings.map Issue.report).Perm (f.statistics.warnings.map Issue.report) ∧
      f'.statistics.tally.declarations = f.statistics.tally.declarations ∧
      f'.statistics.tally.rules ≤ f.statistics.tally.rules ∧
      (o.dropEmptyRules = false → f'.statistics.tally.rules = f.statistics.tally.rules) := by
  obtain ⟨-, -, rfl⟩ := format_eq_ok_iff.1 h
  obtain ⟨-, -, rfl⟩ := format_eq_ok_iff.1 h'
  -- the rules that are read back are the normal form of the rules, but for their places
  have hread := eraseAll_rulesOf_render source o
  have hfindings : (findings (rulesOf (render (rulesOf source) o))).Perm
      (findings (rulesOf source)) := by
    rw [← findings_eraseAll, hread, findings_eraseAll]
    exact findings_normalAll_perm (allWellFormed_rulesOf source)
  have hreports : ∀ q : Finding → Bool,
      (((validate (rulesOf (render (rulesOf source) o))).filter fun i => q i.finding).map
        Issue.report).Perm
        (((validate (rulesOf source)).filter fun i => q i.finding).map Issue.report) := by
    intro q
    rw [map_report_filter_validate, map_report_filter_validate]
    exact (hfindings.filter q).map _
  have htally : (Rule.tallyAll (rulesOf (render (rulesOf source) o))).Within
      (!o.dropEmptyRules) (Rule.tallyAll (rulesOf source)) := by
    rw [← Rule.tallyAll_eraseAll, hread, Rule.tallyAll_eraseAll]
    exact Rule.tallyAll_normalAll o _
  exact ⟨hreports fun f => f.severity == .error, hreports fun f => !(f.severity == .error),
    htally.declarations, htally.rules_le, fun hdrop => htally.rules_eq (by rw [hdrop]; rfl)⟩

/-- A rule with every kind of finding, and rules that are left out before compact text is laid out
again. -/
theorem format_findings_compact :
    let o : Options :=
      { Options.standard with mode := .minify, dropEmptyRules := true, sortDeclarations := true }
    let source :=
      ".b \x7b z y: 1; : 2; c; a: ; \x7d .e \x7b \x7d @m \x7b .g \x7b /* n */ \x7d \x7d".toList
    ∃ f f', (format o false source).value = .ok f ∧
      (format Options.standard true f.output).value = .ok f' ∧
      (f'.statistics.errors.map Issue.report).Perm (f.statistics.errors.map Issue.report) ∧
      (f'.statistics.warnings.map Issue.report).Perm (f.statistics.warnings.map Issue.report) ∧
      f'.statistics.tally.declarations = f.statistics.tally.declarations ∧
      f'.statistics.tally.rules ≤ f.statistics.tally.rules ∧
      (o.dropEmptyRules = false → f'.statistics.tally.rules = f.statistics.tally.rules) := by
  intro o source
  have h : (format o false source).value = .ok _ :=
    format_eq_ok_iff.2 ⟨by decide +kernel, by decide, rfl⟩
  have h' : (format Options.standard true (render (rulesOf source) o)).value = .ok _ :=
    format_eq_ok_iff.2 ⟨by decide +kernel, by decide, rfl⟩
  exact ⟨_, _, h, h', format_findings h h'⟩

end Stylesheet
end Galley
