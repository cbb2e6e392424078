/-
# Normal forms of rule trees

Three of the options change what is printed and not how: comments may be left out, rules without
declarations may be left out, and declarations may be sorted.  `Rule.normalAll` does all of this to
a tree at every depth.

- A printer under any options prints the normal form of the tree under the options that leave
  everything as it is (`minifyRules_normalAll`, `Page.emitRules_normalAll`).
- Two normal forms, one after the other, are one normal form under the options taken together
  (`Rule.normalAll_normalAll`).

`Rule.eraseAll` forgets the places of the rules.  No printer looks at them, and a tree and its
printed text agree up to them.
-/

import Galley.Proofs.Stylesheet.WellFormed
import Galley.Stylesheet.Printer

namespace Galley
namespace Stylesheet

/-! ### Trees -/

namespace Rule

/-- **Induction over a list of rules and the lists inside it.** -/
theorem forest_induction {P : List Rule → Prop} (nil : P [])
    (comment : ∀ t p rs, P rs → P (.comment t p :: rs))
    (statement : ∀ k pre p rs, P rs → P (.statement k pre p :: rs))
    (group : ∀ k pre ds children p rs, P children → P rs → P (.group k pre ds children p :: rs))
    (style : ∀ s ds children p rs, P children → P rs → P (.style s ds children p :: rs))
    (rs : List Rule) : P rs := by
  refine Rule.rec_1 (motive_1 := fun r => ∀ rs, P rs → P (r :: rs)) (motive_2 := P)
    comment ?_ statement ?_ nil (fun r rs hr hrs => hr rs hrs) rs
  · exact fun s ds children p hc rs hrs => style s ds children p rs hc hrs
  · exact fun k pre ds children p hc rs hrs => group k pre ds children p rs hc hrs

mutual
/-- A rule without its place and the places inside it. -/
def erase : Rule → Rule
  | .comment t _ => .comment t .start
  | .statement k pre _ => .statement k pre .start
  | .group k pre ds children _ => .group k pre ds (eraseAll children) .start
  | .style s ds children _ => .style s ds (eraseAll children) .start

/-- Several rules without their places. -/
def eraseAll : List Rule → List Rule
  | [] => []
  | r :: rs => erase r :: eraseAll rs
end

mutual
/-- A rule with what the options leave out of it taken out and its declarations in order. -/
def normal (o : Options) : Rule → Rule
  | .comment t p => .comment t p
  | .statement k pre p => .statement k pre p
  | .group k pre ds children p =>
    .group k pre (Declaration.inOrder o ds) (normalAll o children) p
  | .style s ds children p => .style s (Declaration.inOrder o ds) (normalAll o children) p

/-- The rules that the options do not leave out, each in its normal form. -/
def normalAll (o : Options) : List Rule → List Rule
  | [] => []
  | r :: rs => if r.skipped o then normalAll o rs else normal o r :: normalAll o rs
end

end Rule

namespace Options

/-- The options that print like these and change no tree. -/
def unfiltered (o : Options) : Options :=
  { o with preserveComments := true, dropEmptyRules := false, sortDeclarations := false }

/-- The options that print like these and leave out, and sort, also what others do. -/
def after (o' o : Options) : Options :=
  { o' with
    preserveComments := o.preserveComments && o'.preserveComments
    dropEmptyRules := o.dropEmptyRules || o'.dropEmptyRules
    sortDeclarations := o.sortDeclarations || o'.sortDeclarations }

theorem unfiltered_after (o' o : Options) : (o'.after o).unfiltered = o'.unfiltered := rfl

end Options

variable {o o' : Options} {ds : List Declaration} {r : Rule} {rs : List Rule}

/-! ### Sorted declarations -/

namespace Declaration

/-- No declaration is lost or added. -/
theorem inOrder_perm (o : Options) (ds : List Declaration) : (inOrder o ds).Perm ds := by
  unfold inOrder
  split
  · exact List.mergeSort_perm _ _
  · exact List.Perm.refl _

theorem mem_inOrder {d : Declaration} : d ∈ inOrder o ds ↔ d ∈ ds := (inOrder_perm o ds).mem_iff

theorem isEmpty_inOrder : (inOrder o ds).isEmpty = ds.isEmpty := by
  rw [Bool.eq_iff_iff, List.isEmpty_iff, List.isEmpty_iff, List.eq_nil_iff_forall_not_mem,
    List.eq_nil_iff_forall_not_mem]
  simp only [mem_inOrder]

theorem inOrder_unfiltered : inOrder o.unfiltered ds = ds := rfl

/-- Sorted declarations are not sorted any further. -/
theorem inOrder_inOrder : inOrder o' (inOrder o ds) = inOrder (o'.after o) ds := by
  unfold inOrder Options.after
  cases o.sortDeclarations with
  | false => rfl
  | true =>
    simp only [Bool.true_or, if_true]
    split
    · refine List.mergeSort_of_pairwise (List.pairwise_mergeSort ?_ ?_ ds)
      · exact fun a b c => Text.le_trans
      · intro a b
        rw [Bool.or_eq_true]
        exact Text.le_total a.property b.property
    · rfl

end Declaration

namespace Rule

/-! ### What is left out -/

/-- What is left out has no declarations. -/
theorem isEmpty_of_skipped (h : r.skipped o = true) : r.isEmpty = true := by
  cases r with
  | comment t p => rfl
  | statement k pre p => simp [skipped] at h
  | group k pre ds children p => simp [skipped] at h
  | style s ds children p =>
    rw [skipped, Bool.and_eq_true] at h
    exact h.2

theorem skipped_unfiltered (r : Rule) : r.skipped o.unfiltered = false := by
  cases r <;> simp [skipped, Options.unfiltered]

theorem skipped_after (r : Rule) :
    r.skipped (o'.after o) = (r.skipped o || r.skipped o') := by
  cases r with
  | comment t p => simp [skipped, Options.after]
  | statement k pre p => rfl
  | group k pre ds children p => rfl
  | style s ds children p =>
    exact Bool.and_or_distrib_right _ _ _

/-- What is left out of rules is left out of each of them. -/
theorem normalAll_append (o : Options) (rs rs' : List Rule) :
    normalAll o (rs ++ rs') = normalAll o rs ++ normalAll o rs' := by
  induction rs with
  | nil => rfl
  | cons r rs ih =>
    rw [List.cons_append, normalAll, normalAll, ih]
    split <;> rfl

/-- **Normal forms are empty where the trees are.** -/
theorem allEmpty_normalAll (o : Options) (rs : List Rule) :
    allEmpty (normalAll o rs) = allEmpty rs := by
  induction rs using forest_induction with
  | nil => rfl
  | comment t p rs ih =>
    rw [normalAll, allEmpty, isEmpty, Bool.true_and]
    split
    · exact ih
    · rw [normal, allEmpty, isEmpty, Bool.true_and, ih]
  | statement k pre p rs ih => rfl
  | group k pre ds children p rs ihc ih =>
    simp [normalAll, skipped, normal, allEmpty, isEmpty, Declaration.isEmpty_inOrder, ihc, ih]
  | style s ds children p rs ihc ih =>
    rw [normalAll]
    split
    · rename_i h
      rw [ih, allEmpty, isEmpty_of_skipped h, Bool.true_and]
    · simp [normal, allEmpty, isEmpty, Declaration.isEmpty_inOrder, ihc, ih]

/-- The normal form of a rule is left out where the rule is. -/
theorem skipped_normal (r : Rule) : (normal o r).skipped o' = r.skipped o' := by
  cases r with
  | comment t p => rfl
  | statement k pre p => rfl
  | group k pre ds children p => rfl
  | style s ds children p =>
    simp [normal, skipped, isEmpty, Declaration.isEmpty_inOrder, allEmpty_normalAll]

/-! ### Two normal forms -/

/-- **A normal form of a normal form is a normal form.** -/
theorem normalAll_normalAll (o' o : Options) (rs : List Rule) :
    normalAll o' (normalAll o rs) = normalAll (o'.after o) rs := by
  -- the rules of the list: what is left out once is left out of both
  have cons : ∀ r rs, normal o' (normal o r) = normal (o'.after o) r →
      normalAll o' (normalAll o rs) = normalAll (o'.after o) rs →
      normalAll o' (normalAll o (r :: rs)) = normalAll (o'.after o) (r :: rs) := by
    intro r rs hr hrs
    rw [normalAll, normalAll, skipped_after]
    cases h : r.skipped o with
    | true => exact hrs
    | false => simp [normalAll, skipped_normal, hr, hrs]
  induction rs using forest_induction with
  | nil => rfl
  | comment t p rs ih => exact cons _ rs rfl ih
  | statement k pre p rs ih => exact cons _ rs rfl ih
  | group k pre ds children p rs ihc ih =>
    refine cons _ rs ?_ ih
    rw [normal, normal, normal, Declaration.inOrder_inOrder, ihc]
  | style s ds children p rs ihc ih =>
    refine cons _ rs ?_ ih
    rw [normal, normal, normal, Declaration.inOrder_inOrder, ihc]

/-- **A normal form is read back as it stands if the tree is.** -/
theorem allWellFormed_normalAll (inner : Bool) (h : AllWellFormed inner rs) :
    AllWellFormed inner (normalAll o rs) := by
  -- the rules of the list: those that stay are well formed
  have cons : ∀ inner r rs, WellFormed inner (normal o r) → AllWellFormed inner (normalAll o rs) →
      AllWellFormed inner (normalAll o (r :: rs)) := by
    intro inner r rs hr hrs
    rw [normalAll]
    split
    · exact hrs
    · exact ⟨hr, hrs⟩
  have declarations : ∀ ds : List Declaration, (∀ d ∈ ds, d.WellFormed) →
      ∀ d ∈ Declaration.inOrder o ds, d.WellFormed :=
    fun ds hds d hd => hds d (Declaration.mem_inOrder.1 hd)
  induction rs using forest_induction generalizing inner with
  | nil => exact h
  | comment t p rs ih => exact cons inner _ rs h.1 (ih inner h.2)
  | statement k pre p rs ih => exact cons inner _ rs h.1 (ih inner h.2)
  | group k pre ds children p rs ihc ih =>
    obtain ⟨⟨hk, hpre, hds, hc⟩, hrs⟩ := h
    exact cons inner _ rs ⟨hk, hpre, declarations ds hds, ihc true hc⟩ (ih inner hrs)
  | style s ds children p rs ihc ih =>
    obtain ⟨⟨hs, hne, hds, hc⟩, hrs⟩ := h
    refine cons inner _ rs ⟨hs, fun h hd => hne h ?_, declarations ds hds, ihc true hc⟩
      (ih inner hrs)
    rw [← List.isEmpty_iff, ← Declaration.isEmpty_inOrder (o := o), hd]
    rfl

/-! ### Places -/

theorem allEmpty_eraseAll (rs : List Rule) : allEmpty (eraseAll rs) = allEmpty rs := by
  induction rs using forest_induction with
  | nil => rfl
  | comment t p rs ih => exact ih
  | statement k pre p rs ih => rfl
  | group k pre ds children p rs ihc ih => simp [eraseAll, erase, allEmpty, isEmpty, ihc, ih]
  | style s ds children p rs ihc ih => simp [eraseAll, erase, allEmpty, isEmpty, ihc, ih]

theorem skipped_erase (r : Rule) : r.erase.skipped o = r.skipped o := by
  cases r with
  | comment t p => rfl
  | statement k pre p => rfl
  | group k pre ds children p => rfl
  | style s ds children p => simp [erase, skipped, isEmpty, allEmpty_eraseAll]

theorem eraseAll_append (rs rs' : List Rule) :
    eraseAll (rs ++ rs') = eraseAll rs ++ eraseAll rs' := by
  induction rs with
  | nil => rfl
  | cons r rs ih => rw [List.cons_append, eraseAll, eraseAll, ih, List.cons_append]

end Rule

/-! ### Printers and normal forms -/

/-- **Compact text is that of the normal form.** -/
theorem minifyRules_normalAll (o : Options) (rs : List Rule) :
    minifyRules o.unfiltered (Rule.normalAll o rs) = minifyRules o rs := by
  -- the rules of the list: those that are left out have no text
  have cons : ∀ r rs, (r.skipped o = true → minifyRule o r = []) →
      (r.skipped o = false → minifyRule o.unfiltered (r.normal o) = minifyRule o r) →
      minifyRules o.unfiltered (Rule.normalAll o rs) = minifyRules o rs →
      minifyRules o.unfiltered (Rule.normalAll o (r :: rs)) = minifyRules o (r :: rs) := by
    intro r rs hskip hr hrs
    rw [Rule.normalAll, minifyRules]
    cases h : r.skipped o with
    | true => rw [if_pos rfl, hskip h, hrs, List.nil_append]
    | false => rw [if_neg (by simp), minifyRules, hr h, hrs]
  induction rs using Rule.forest_induction with
  | nil => rfl
  | comment t p rs ih =>
    refine cons _ rs ?_ ?_ ih <;> cases hp : o.preserveComments <;>
      simp [Rule.skipped, Rule.normal, minifyRule, Options.unfiltered, hp]
  | statement k pre p rs ih => exact cons _ rs (by simp [Rule.skipped]) (fun _ => rfl) ih
  | group k pre ds children p rs ihc ih =>
    refine cons _ rs (by simp [Rule.skipped]) (fun _ => ?_) ih
    rw [Rule.normal, minifyRule, minifyRule, ihc, Declaration.inOrder_unfiltered]
  | style s ds children p rs ihc ih =>
    refine cons _ rs (fun h => ?_) (fun h => ?_) ih
    · rw [minifyRule]
      exact if_pos h
    · rw [Rule.normal, minifyRule, minifyRule, ihc, Declaration.inOrder_unfiltered]
      exact (if_neg (by simp [Options.unfiltered])).trans (if_neg (ne_true_of_eq_false h)).symm

/-- Compact text does not tell where the rules stood. -/
theorem minifyRules_eraseAll (o : Options) (rs : List Rule) :
    minifyRules o (Rule.eraseAll rs) = minifyRules o rs := by
  induction rs using Rule.forest_induction with
  | nil => rfl
  | comment t p rs ih => rw [Rule.eraseAll, minifyRules, minifyRules, ih]; rfl
  | statement k pre p rs ih => rw [Rule.eraseAll, minifyRules, minifyRules, ih]; rfl
  | group k pre ds children p rs ihc ih =>
    rw [Rule.eraseAll, minifyRules, minifyRules, ih, Rule.erase, minifyRule, minifyRule, ihc]
  | style s ds children p rs ihc ih =>
    rw [Rule.eraseAll, minifyRules, minifyRules, ih, Rule.erase, minifyRule, minifyRule, ihc]
    simp [Rule.isEmpty, Rule.allEmpty_eraseAll]

namespace Page

/-- A block of the normal form has content where the block has. -/
theorem hasContent_normalAll (o : Options) (ds : List Declaration) (children : List Rule) :
    hasContent o.unfiltered (Declaration.inOrder o ds) (Rule.normalAll o children) =
      hasContent o ds children := by
  unfold hasContent
  rw [Declaration.isEmpty_inOrder]
  congr 1
  induction children with
  | nil => rfl
  | cons r rs ih =>
    rw [Rule.normalAll, List.any_cons]
    cases h : r.skipped o with
    | true => simpa [h] using ih
    | false => simp [Rule.skipped_unfiltered]

theorem openBlock_normalAll (o : Options) (level : Nat) (head : Text) (ds : List Declaration)
    (children : List Rule) (page : Page) :
    openBlock o.unfiltered level head (Declaration.inOrder o ds) (Rule.normalAll o children) page =
      openBlock o level head ds children page := by
  rw [openBlock, openBlock, hasContent_normalAll]
  rfl

theorem closeBlock_normalAll (o : Options) (level : Nat) (ds : List Declaration)
    (children : List Rule) (page : Page) :
    closeBlock o.unfiltered level (Declaration.inOrder o ds) (Rule.normalAll o children) page =
      closeBlock o level ds children page := by
  rw [closeBlock, closeBlock, hasContent_normalAll]
  rfl

/-- **The lines are those of the normal form.** -/
theorem emitRules_normalAll (o : Options) (level : Nat) (rs : List Rule) (page : Page) :
    emitRules o.unfiltered level (Rule.normalAll o rs) page = emitRules o level rs page := by
  -- the rules of the list: those that are left out have no lines
  have cons : ∀ level page r rs, (r.skipped o = true → emitRule o level r page = page) →
      (r.skipped o = false →
        emitRule o.unfiltered level (r.normal o) page = emitRule o level r page) →
      (∀ page, emitRules o.unfiltered level (Rule.normalAll o rs) page =
        emitRules o level rs page) →
      emitRules o.unfiltered level (Rule.normalAll o (r :: rs)) page =
        emitRules o level (r :: rs) page := by
    intro level page r rs hskip hr hrs
    rw [Rule.normalAll, emitRules]
    cases h : r.skipped o with
    | true => rw [if_pos rfl, hskip h, hrs]
    | false => rw [if_neg (by simp), emitRules, hr h, hrs]
  induction rs using Rule.forest_induction generalizing level page with
  | nil => rfl
  | comment t p rs ih =>
    refine cons level page _ rs ?_ ?_ (ih level) <;> cases hp : o.preserveComments <;>
      simp [Rule.skipped, Rule.normal, emitRule, Options.unfiltered, hp]
    rfl
  | statement k pre p rs ih =>
    exact cons level page _ rs (by simp [Rule.skipped]) (fun _ => rfl) (ih level)
  | group k pre ds children p rs ihc ih =>
    refine cons level page _ rs (by simp [Rule.skipped]) (fun _ => ?_) (ih level)
    rw [Rule.normal, emitRule, emitRule, openBlock_normalAll, ihc, closeBlock_normalAll]
  | style s ds children p rs ihc ih =>
    refine cons level page _ rs (fun h => ?_) (fun h => ?_) (ih level)
    · rw [emitRule]
      exact if_pos h
    · rw [Rule.normal, emitRule, emitRule, openBlock_normalAll, ihc, closeBlock_normalAll]
      exact (if_neg (by simp [Options.unfiltered])).trans (if_neg (ne_true_of_eq_false h)).symm

theorem hasContent_eraseAll (o : Options) (ds : List Declaration) (children : List Rule) :
    hasContent o ds (Rule.eraseAll children) = hasContent o ds children := by
  unfold hasContent
  congr 1
  induction children with
  | nil => rfl
  | cons r rs ih => rw [Rule.eraseAll, List.any_cons, List.any_cons, ih, Rule.skipped_erase]

/-- The lines do not tell where the rules stood. -/
theorem emitRules_eraseAll (o : Options) (level : Nat) (rs : List Rule) (page : Page) :
    emitRules o level (Rule.eraseAll rs) page = emitRules o level rs page := by
  induction rs using Rule.forest_induction generalizing level page with
  | nil => rfl
  | comment t p rs ih => rw [Rule.eraseAll, emitRules, emitRules, ih]; rfl
  | statement k pre p rs ih => rw [Rule.eraseAll, emitRules, emitRules, ih]; rfl
  | group k pre ds children p rs ihc ih =>
    rw [Rule.eraseAll, emitRules, emitRules, ih, Rule.erase, emitRule, emitRule, ihc, openBlock,
      openBlock, closeBlock, closeBlock, hasContent_eraseAll]
  | style s ds children p rs ihc ih =>
    rw [Rule.eraseAll, emitRules, emitRules, ih, Rule.erase, emitRule, emitRule, ihc, openBlock,
      openBlock, closeBlock, closeBlock, hasContent_eraseAll]
    simp [Rule.isEmpty, Rule.allEmpty_eraseAll]

end Page

/-- **Text on lines is that of the normal form.** -/
theorem beautify_normalAll (o : Options) (rs : List Rule) :
    beautify (Rule.normalAll o rs) o.unfiltered = beautify rs o := by
  rw [beautify, beautify, emittedLines, emittedLines, Page.emitRules_normalAll]

/-- **A printed text is that of the normal form.** -/
theorem render_normalAll (o : Options) (rs : List Rule) :
    render (Rule.normalAll o rs) o.unfiltered = render rs o := by
  unfold render
  rw [show o.unfiltered.mode = o.mode from rfl]
  cases o.mode with
  | beautify => exact beautify_normalAll o rs
  | minify => exact minifyRules_normalAll o rs

/-- A printed text does not tell where the rules stood. -/
theorem render_eraseAll (o : Options) (rs : List Rule) :
    render (Rule.eraseAll rs) o = render rs o := by
  unfold render
  cases o.mode with
  | beautify => rw [beautify, beautify, emittedLines, emittedLines, Page.emitRules_eraseAll]
  | minify => exact minifyRules_eraseAll o rs

end Stylesheet
end Galley
