/-
# Filters as a normal form

Leaving out comments, leaving out rules without declarations and sorting declarations are the only
things that the options do to a tree before it is printed: both printers print the normal form of
the tree as it stands (`print_normalAll`).  The beautifier decides about blank lines by looking
ahead to what it will leave out, and has to see the same there.

A normal form takes comments and empty rules away and nothing else.  `Rule.itemsAll` lists the
declarations and statements of a tree, each with the rules that it stands in; a normal form has the
same items in the same rules, in some order (`Rule.itemsAll_normalAll_perm`).
-/

import Galley.Proofs.Stylesheet.Normal

namespace Galley
namespace Stylesheet
namespace Rule

/-- What stands in a block besides comments and further blocks. -/
inductive Item where
  | declaration (d : Declaration)
  | statement (keyword prelude : Text) (position : Position)
  deriving DecidableEq, Repr

mutual
/-- The items of a rule, each with the rules around it, the innermost first and without what
stands in them. -/
def items (around : List Rule) : Rule → List (List Rule × Item)
  | .comment _ _ => []
  | .statement k pre p => [(around, .statement k pre p)]
  | .group k pre ds children p =>
    ds.map (fun d => (.group k pre [] [] p :: around, .declaration d)) ++
      itemsAll (.group k pre [] [] p :: around) children
  | .style s ds children p =>
    ds.map (fun d => (.style s [] [] p :: around, .declaration d)) ++
      itemsAll (.style s [] [] p :: around) children

/-- The items of several rules. -/
def itemsAll (around : List Rule) : List Rule → List (List Rule × Item)
  | [] => []
  | r :: rs => items around r ++ itemsAll around rs
end

variable {o : Options} {r : Rule} {rs : List Rule} {around : List Rule}

/-- Rules without declarations have no items. -/
theorem itemsAll_of_allEmpty (h : allEmpty rs = true) : itemsAll around rs = [] := by
  induction rs using forest_induction generalizing around with
  | nil => rfl
  | comment t p rs ih => exact ih h
  | statement k pre p rs ih => simp [allEmpty, isEmpty] at h
  | group k pre ds children p rs ihc ih =>
    simp [allEmpty, isEmpty] at h
    simp [itemsAll, items, h.1.1, ihc h.1.2, ih h.2]
  | style s ds children p rs ihc ih =>
    simp [allEmpty, isEmpty] at h
    simp [itemsAll, items, h.1.1, ihc h.1.2, ih h.2]

/-- What is left out has no items. -/
theorem items_of_skipped (h : r.skipped o = true) : items around r = [] := by
  have hone : itemsAll around [r] = [] :=
    itemsAll_of_allEmpty (by simp [allEmpty, isEmpty_of_skipped h])
  simpa [itemsAll] using hone

/-- **A normal form has the items of the tree**, in the same rules. -/
theorem itemsAll_normalAll_perm (o : Options) (around : List Rule) (rs : List Rule) :
    (itemsAll around (normalAll o rs)).Perm (itemsAll around rs) := by
  -- the rules of the list: those that are left out have no items
  have cons : ∀ around r rs, (items around (normal o r)).Perm (items around r) →
      (itemsAll around (normalAll o rs)).Perm (itemsAll around rs) →
      (itemsAll around (normalAll o (r :: rs))).Perm (itemsAll around (r :: rs)) := by
    intro around r rs hr hrs
    rw [normalAll, itemsAll]
    cases h : r.skipped o with
    | true => rwa [if_pos rfl, items_of_skipped h, List.nil_append]
    | false => exact hr.append hrs
  induction rs using forest_induction generalizing around with
  | nil => exact .nil
  | comment t p rs ih => exact cons around _ rs (.refl _) (ih around)
  | statement k pre p rs ih => exact cons around _ rs (.refl _) (ih around)
  | group k pre ds children p rs ihc ih =>
    exact cons around _ rs (((Declaration.inOrder_perm o ds).map _).append (ihc _)) (ih around)
  | style s ds children p rs ihc ih =>
    exact cons around _ rs (((Declaration.inOrder_perm o ds).map _).append (ihc _)) (ih around)

end Rule

/-- **The filters are a normal form.** -/
theorem print_normalAll (o : Options) (rs : List Rule) :
    beautify rs o = beautify (Rule.normalAll o rs) o.unfiltered ∧
      minify rs o = minify (Rule.normalAll o rs) o.unfiltered ∧
      (Rule.itemsAll [] (Rule.normalAll o rs)).Perm (Rule.itemsAll [] rs) :=
  ⟨(beautify_normalAll o rs).symm, (minifyRules_normalAll o rs).symm,
    Rule.itemsAll_normalAll_perm o [] rs⟩

end Stylesheet
end Galley
