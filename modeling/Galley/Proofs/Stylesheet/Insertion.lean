/-
# One declaration more

What is found about a stylesheet is found rule by rule and declaration by declaration, so a further
declaration adds its own issues and takes none away (`validate_insert`): the issues found before it
and those found after it stay as they are, and its own come in between, located at its rule.

Among its own issues there is an error for a blank property and one for a property with a space,
and a property of spaces has both (`countP_isError_issues`).
-/

import Galley.Stylesheet.Lint

namespace Galley
namespace Stylesheet

/-- The issues of a declaration in a rule at a place. -/
def Declaration.issues (d : Declaration) (p : Position) : List Issue :=
  d.findings.map fun f => ⟨f, p⟩

/-- The number of errors in a stylesheet. -/
def errorCount (rs : List Rule) : Nat := (validate rs).countP Issue.isError

theorem validate_append (rs rs' : List Rule) : validate (rs ++ rs') = validate rs ++ validate rs' :=
  List.flatMap_append

theorem validate_cons (r : Rule) (rs : List Rule) : validate (r :: rs) = r.issues ++ validate rs :=
  List.flatMap_cons

/-- The issues of the declarations at the end of a rule come last among those of the rule. -/
theorem issues_style_append (s : Text) (ds es : List Declaration) (children : List Rule)
    (p : Position) :
    (Rule.style s (ds ++ es) children p).issues =
      (Rule.style s ds children p).issues ++ es.flatMap fun e => e.issues p := by
  rw [Rule.issues, Rule.issues, List.flatMap_append, ← List.append_assoc, List.map_append,
    List.map_flatMap]
  rfl

/-- **The errors in a declaration**: one for a blank property and one for a property with a space. -/
theorem countP_isError_issues (d : Declaration) (p : Position) :
    (d.issues p).countP Issue.isError =
      (if d.property.allBlank then 1 else 0) + if d.property.contains ' ' then 1 else 0 := by
  rw [Declaration.issues, Declaration.findings]
  -- an empty value, the finding in the middle, is a warning
  cases d.property.allBlank <;> cases d.value.allBlank <;> cases d.property.contains ' ' <;> rfl

/-- **A further declaration adds its own issues**, in one place, and takes none away.  The errors
become more by one for a blank property and by one for a property with a space. -/
theorem validate_insert (before after : List Rule) (s : Text) (ds es : List Declaration)
    (d : Declaration) (children : List Rule) (p : Position) :
    let old := before ++ .style s (ds ++ es) children p :: after
    let new := before ++ .style s (ds ++ d :: es) children p :: after
    let found := validate (before ++ [.style s ds children p])
    let rest := (es.flatMap fun e => e.issues p) ++ validate after
    validate old = found ++ rest ∧ validate new = found ++ d.issues p ++ rest ∧
      errorCount new = errorCount old + (if d.property.allBlank then 1 else 0) +
        (if d.property.contains ' ' then 1 else 0) ∧
      (d.property.allBlank = true → errorCount old < errorCount new) := by
  intro old new found rest
  have hfound : found = validate before ++ (Rule.style s ds children p).issues :=
    calc found = validate before ++ validate [.style s ds children p] := validate_append ..
      _ = validate before ++ (Rule.style s ds children p).issues :=
        congrArg _ (List.append_nil _)
  have hvalidate : ∀ es', validate (before ++ .style s (ds ++ es') children p :: after) =
      found ++ ((es'.flatMap fun e => e.issues p) ++ validate after) := by
    intro es'
    rw [validate_append, validate_cons, issues_style_append, hfound]
    simp only [List.append_assoc]
  have hold : validate old = found ++ rest := hvalidate es
  have hnew : validate new = found ++ d.issues p ++ rest := by
    rw [hvalidate (d :: es), List.flatMap_cons, List.append_assoc, List.append_assoc]
  have hcount : errorCount new = errorCount old + (if d.property.allBlank then 1 else 0) +
      (if d.property.contains ' ' then 1 else 0) := by
    rw [errorCount, errorCount, hold, hnew]
    simp only [List.countP_append, countP_isError_issues]
    omega
  refine ⟨hold, hnew, hcount, fun hblank => ?_⟩
  rw [hcount, hblank, if_pos rfl]
  omega

/-- A declaration of spaces between two equal ones, after rules of other kinds: two errors more, and
a warning. -/
theorem validate_insert_spaces :
    let d : Declaration := ⟨"  ".toList, [], false⟩
    let e : Declaration := ⟨"a b".toList, "1".toList, false⟩
    let p : Position := ⟨2, 5⟩
    let old : List Rule := [.comment "/**/".toList ⟨1, 1⟩,
      .group "@m".toList [] [e] [.style [] [e] [] ⟨1, 9⟩] ⟨1, 5⟩, .style " ".toList [e, e] [] p,
      .style "q".toList [d] [] ⟨3, 1⟩]
    let new : List Rule := [.comment "/**/".toList ⟨1, 1⟩,
      .group "@m".toList [] [e] [.style [] [e] [] ⟨1, 9⟩] ⟨1, 5⟩, .style " ".toList [e, d, e] [] p,
      .style "q".toList [d] [] ⟨3, 1⟩]
    (validate old).map Issue.finding = [.emptySelector, .invalidProperty "a b".toList,
        .invalidProperty "a b".toList, .emptyProperty, .emptyValue "  ".toList,
        .invalidProperty "  ".toList] ∧
      (∃ found rest, validate old = found ++ rest ∧
        validate new = found ++
          [⟨.emptyProperty, p⟩, ⟨.emptyValue "  ".toList, p⟩, ⟨.invalidProperty "  ".toList, p⟩] ++
          rest) ∧
      d.property.allBlank = true ∧ errorCount new = errorCount old + 2 ∧
      errorCount old < errorCount new := by
  intro d e p old new
  obtain ⟨hold, hnew, hcount, hless⟩ := validate_insert
    [.comment "/**/".toList ⟨1, 1⟩, .group "@m".toList [] [e] [.style [] [e] [] ⟨1, 9⟩] ⟨1, 5⟩]
    [.style "q".toList [d] [] ⟨3, 1⟩] " ".toList [e] [e] d [] p
  have hblank : d.property.allBlank = true := by decide
  exact ⟨by decide, ⟨_, _, hold, hnew⟩, hblank, hcount, hless hblank⟩

end Stylesheet
end Galley
