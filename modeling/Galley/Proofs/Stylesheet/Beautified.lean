/-
# A stylesheet on lines

The lines of a tree without comments are in order (`laid_linesAll`), whatever the options are.  Each
construct has lines of its own kind:

| construct | lines |
| --- | --- |
| head of a block | a plain one if the brace is on a new line, then one that ends with the brace |
| declaration | a plain one |
| at-rule without a block | one that ends a rule |
| closing brace | one that ends a rule and closes a block |

A plain line has no brace at its end and ends no rule, because the texts of a parsed tree are free
of the marks that would make it look like another one: a property does not begin with `@`, a prelude
has no semicolon, and a selector has no opening brace and does not begin with a closing one.

None of these texts has a line feed in it, so the lines can be told from the text (`linesOf`).
-/

import Galley.Proofs.Stylesheet.Outline
import Galley.Proofs.Stylesheet.Shape

namespace Galley
namespace Stylesheet

variable {o : Options} {level : Nat} {lines content : List Text} {t head : Text} {r : Rule}
  {rs : List Rule}

/-! ### The lines of each construct -/

/-- What can be the head of a block. -/
structure IsHead (head : Text) : Prop where
  trimmed : IsTrimmed head
  not_open : '{' ∉ head
  not_close : head.head? ≠ some '}'
  not_statement : head.head? = some '@' → ';' ∉ head

/-- The heading of an at-rule has no brace and no semicolon. -/
theorem IsKeyword.not_mem_heading {k pre : Text} (hk : IsKeyword k)
    (hpre : IsPhrase [';', '{', '}'] pre) :
    ∀ c ∈ [';', '{', '}'], c ∉ Rule.heading k pre := by
  intro c hc hmem
  have hmark : isPunctuation c = true := by
    simp only [List.mem_cons, List.not_mem_nil, or_false] at hc
    rcases hc with rfl | rfl | rfl <;> rfl
  have hkeyword : c ∉ k := fun h => by
    simp [(not_isPunctuation_of_mem_word hk.1.2 h).1] at hmark
  have hspace : c ∉ [' '] := by
    rintro h
    obtain rfl : c = ' ' := by simpa using h
    simp [isPunctuation] at hmark
  unfold Rule.heading at hmem
  split at hmem
  · exact hkeyword hmem
  · rcases List.mem_append.1 hmem with h | h
    · exact (List.mem_append.1 h).elim hkeyword hspace
    · exact hpre.free c h hc

theorem IsKeyword.head?_heading {k pre : Text} (hk : IsKeyword k) :
    (Rule.heading k pre).head? = some '@' := by
  obtain ⟨⟨hne, -⟩, hat⟩ := hk
  unfold Rule.heading
  split
  · exact hat
  · rw [List.append_assoc, List.head?_append_of_ne_nil _ hne, hat]

theorem IsKeyword.isHead {k pre : Text} (hk : IsKeyword k)
    (hpre : IsPhrase [';', '{', '}'] pre) : IsHead (Rule.heading k pre) where
  trimmed := (hk.isTidy_heading hpre).isTrimmed
  not_open := hk.not_mem_heading hpre '{' (by simp)
  not_close := by simp [hk.head?_heading]
  not_statement _ := hk.not_mem_heading hpre ';' (by simp)

theorem IsSelector.isHead {inner : Bool} {s : Text} (h : IsSelector inner s) : IsHead s where
  trimmed := h.phrase.tidy.isTrimmed
  not_open := h.phrase.free_of_mem '{' (by simp)
  not_close := h.not_stray.2
  not_statement hat := absurd hat h.not_keyword

/-- The line of an opening brace. -/
theorem opensLine_brace (o : Options) (level : Nat) (t : Text) :
    opensLine (Page.margin o level ++ (t ++ ['{'])) = true := by
  rw [opensLine_margin o level (by simp), List.getLast?_concat]
  rfl

/-- No rule ends with the line of an opening brace. -/
theorem endsRule_brace (o : Options) (level : Nat) (ht : IsTrimmed (t ++ ['{'])) :
    endsRule (Page.margin o level ++ (t ++ ['{'])) = false := by
  have hclose : t ++ ['{'] ≠ ['}'] := by
    intro h
    have hlast := congrArg List.getLast? h
    rw [List.getLast?_concat] at hlast
    simp at hlast
  rw [endsRule_margin o level (by simp) ht, List.getLast?_concat]
  simp [hclose]

/-- A head on a line of its own is a plain line. -/
theorem IsHead.isPlain (h : IsHead head) (hne : head ≠ []) :
    IsPlain (Page.margin o level ++ head) := by
  refine isPlain_margin hne h.trimmed ?_ ?_ ?_
  · exact fun hlast => h.not_open (List.mem_of_getLast? hlast)
  · rintro rfl
    exact h.not_close rfl
  · exact fun hat hlast => h.not_statement hat (List.mem_of_getLast? hlast)

/-- A text that begins with its property or, if there is none, with the colon. -/
theorem Declaration.head?_spaced (o : Options) (d : Declaration) :
    (d.spaced o).head? = some ':' ∨
      d.property ≠ [] ∧ (d.spaced o).head? = d.property.head? := by
  unfold Declaration.spaced
  cases d.property with
  | nil => left; split <;> rfl
  | cons c cs => exact Or.inr ⟨List.cons_ne_nil c cs, rfl⟩

/-- A declaration is on a plain line. -/
theorem Declaration.WellFormed.entryLine {d : Declaration} (h : d.WellFormed) :
    Stands o level (Page.margin o level ++ d.spaced o) ∧
      IsPlain (Page.margin o level ++ d.spaced o) := by
  have hne : d.spaced o ≠ [] := by simp [Declaration.spaced]
  have hlast : (d.spaced o).getLast? = some ';' := List.getLast?_concat
  have htrimmed : IsTrimmed (d.spaced o) := by
    have solid : ∀ c, isPunctuation c = true → ∀ d ∈ some c, Text.isBlank d = false := by
      rintro c hc d ⟨⟩
      exact isBlank_of_isPunctuation hc
    refine ⟨?_, hlast ▸ solid ';' rfl⟩
    rcases Declaration.head?_spaced o d with hcolon | ⟨-, hproperty⟩
    · exact hcolon ▸ solid ':' rfl
    · rw [hproperty]
      exact h.property.tidy.isTrimmed.head
  refine ⟨⟨_, rfl, hne, htrimmed⟩, isPlain_margin hne htrimmed ?_ ?_ ?_⟩
  · simp [hlast]
  · intro hclose
    simp [hclose] at hlast
  · intro hat
    rcases Declaration.head?_spaced o d with hcolon | ⟨-, hproperty⟩
    · simp [hcolon] at hat
    · exact absurd (hproperty ▸ hat) h.not_keyword

/-- An at-rule without a block ends with its line. -/
theorem IsKeyword.statementLine {k pre : Text} (hk : IsKeyword k)
    (hpre : IsPhrase [';', '{', '}'] pre) (o : Options) (level : Nat) :
    Stands o level (Page.margin o level ++ (Rule.heading k pre ++ [';'])) ∧
      opensLine (Page.margin o level ++ (Rule.heading k pre ++ [';'])) = false ∧
      closesLine (Page.margin o level ++ (Rule.heading k pre ++ [';'])) = false ∧
      endsRule (Page.margin o level ++ (Rule.heading k pre ++ [';'])) = true := by
  have hne : Rule.heading k pre ++ [';'] ≠ [] := by simp
  have htrimmed : IsTrimmed (Rule.heading k pre ++ [';']) :=
    isTrimmed_append_mark rfl (hk.isTidy_heading hpre).isTrimmed.head
  have hat : (Rule.heading k pre ++ [';']).head? = some '@' := by
    rw [List.head?_append, hk.head?_heading]
    rfl
  have hlast : (Rule.heading k pre ++ [';']).getLast? = some ';' := List.getLast?_concat
  refine ⟨⟨_, rfl, hne, htrimmed⟩, ?_, ?_, ?_⟩
  · rw [opensLine_margin o level hne, hlast]
    rfl
  · rw [closesLine_margin o level htrimmed, beq_eq_false_iff_ne]
    intro hclose
    simp [hclose] at hlast
  · rw [endsRule_margin o level hne htrimmed, hat, hlast]
    simp

/-- The line of a head before that of its brace. -/
theorem IsHead.ownLine (h : IsHead head) :
    ∀ line ∈ ownLines o level head, Stands o level line ∧ IsPlain line := by
  intro line hl
  obtain ⟨hne, rfl⟩ := of_mem_ownLines hl
  exact ⟨⟨head, rfl, hne, h.trimmed⟩, h.isPlain hne⟩

/-- **A block is in order if its content is.** -/
theorem Laid.block (hh : IsHead head) (hc : Laid o (level + 1) content) :
    Laid o level (blockLines o level head content) := by
  have htrimmed := isTrimmed_beforeBrace (o := o) hh.trimmed
  have hs : Stands o level (Page.margin o level ++ (beforeBrace o head ++ ['{'])) :=
    ⟨_, rfl, by simp, htrimmed⟩
  have hopen := opensLine_brace o level (beforeBrace o head)
  have hends := endsRule_brace o level htrimmed
  have hown : Balanced (ownLines o level head) := balanced_plain hh.ownLine
  obtain ⟨-, hcopen, hclose⟩ := closingLine o level
  refine ⟨firm_blockLines hh.trimmed hc.firm, ?_, fun front back hf hb => ?_⟩
  · rw [blockLines, headLines, List.append_assoc]
    exact hown.append
      (hc.balanced.padded.braces hopen (Bool.or_eq_false_iff.1 hends).1 hclose hcopen)
  · rw [blockLines, headLines, List.append_assoc, throughout_append]
    exact ⟨throughout_plain hh.ownLine hf, hc.braces hs hopen hends (hf.append hown) hb⟩

/-! ### Trees -/

/-- The declarations of a block are on plain lines. -/
theorem plain_entryLines {ds : List Declaration} (h : ∀ d ∈ ds, d.WellFormed) :
    ∀ line ∈ entryLines o level ds, Stands o level line ∧ IsPlain line := by
  intro line hl
  obtain ⟨d, hd, rfl⟩ := List.mem_map.1 hl
  exact (h d hd).entryLine

/-- A rule other than a comment ends with its last line. -/
theorem endsRule_getLast_lines {inner : Bool} (h : r.WellFormed inner)
    (hcomment : r.isComment = false) :
    ∀ line ∈ (r.lines o level).getLast?, endsRule line = true := by
  have block : ∀ (head : Text) (content : List Text),
      ∀ line ∈ (blockLines o level head content).getLast?, endsRule line = true := by
    intro head content line hl
    rw [blockLines, ← List.append_assoc, List.getLast?_concat, Option.mem_some_iff] at hl
    rw [← hl, endsRule, (closingLine o level).2.2, Bool.true_or]
  cases r with
  | comment t p => simp [Rule.isComment] at hcomment
  | statement k pre p =>
    rintro line ⟨⟩
    exact (h.1.statementLine h.2 o level).2.2.2
  | group k pre ds children p => exact block _ _
  | style s ds children p => exact block _ _

/-- **The lines of a tree without comments are in order.** -/
theorem laid_linesAll {inner : Bool} (h : Rule.AllWellFormed inner rs)
    (hcomments : Rule.comments rs = []) : Laid o level (Rule.linesAll o level rs) := by
  -- the rules of the list: one and then, behind the gap, the others
  have cons : ∀ {inner : Bool} {level : Nat} {r : Rule} {rs : List Rule}, r.WellFormed inner →
      r.isComment = false → Laid o level (r.lines o level) →
      Laid o level (Rule.linesAll o level rs) → Laid o level (Rule.linesAll o level (r :: rs)) := by
    intro inner level r rs hr hcomment hlines hrest
    have hgap : r.wantsGap o = o.blankLineAfterRule := by
      cases r with
      | comment t p => simp [Rule.isComment] at hcomment
      | _ => rfl
    rw [Rule.linesAll, hgap]
    split
    · rwa [List.append_nil]
    · rename_i hne
      refine hlines.followed (endsRule_getLast_lines hr hcomment) hrest (lines_ne_nil o level r) ?_
      rwa [Ne, ← List.isEmpty_iff, isEmpty_linesAll]
  induction rs using Rule.forest_induction generalizing inner level with
  | nil => exact ⟨.nil, .of_neutral (by simp [Rule.linesAll]), fun _ _ _ _ => throughout_nil⟩
  | comment t p rs ih => simp at hcomments
  | statement k pre p rs ih =>
    refine cons h.1 rfl ?_ (ih h.2 hcomments)
    obtain ⟨hs, hopen, hclose, hends⟩ := h.1.1.statementLine h.1.2 o level
    refine ⟨.of_solid (List.forall_mem_singleton.2 hs.not_allBlank),
      .of_neutral (List.forall_mem_singleton.2 ⟨hopen, hclose⟩), fun front back hf hb => ?_⟩
    exact throughout_singleton.2 (laidAt_of_stands hs hf hopen hclose fun _ => hb)
  | group k pre ds children p rs ihc ih =>
    obtain ⟨hk, hpre, hds, hc⟩ := h.1
    simp only [Rule.comments_group, List.append_eq_nil_iff] at hcomments
    exact cons h.1 rfl (.block (hk.isHead hpre) (.plain_append (plain_entryLines hds)
      (ihc hc hcomments.1))) (ih h.2 hcomments.2)
  | style s ds children p rs ihc ih =>
    obtain ⟨hs, -, hds, hc⟩ := h.1
    simp only [Rule.comments_style, List.append_eq_nil_iff] at hcomments
    exact cons h.1 rfl (.block hs.isHead (.plain_append (plain_entryLines hds)
      (ihc hc hcomments.1))) (ih h.2 hcomments.2)

/-! ### Line feeds -/

/-- A tidy text has no line feed. -/
theorem IsTidy.not_mem_newline (h : IsTidy t) : '\n' ∉ t := by
  intro hmem
  have := eq_space_of_tidyFrom h.tidyFrom_false '\n' hmem (by decide)
  simp at this

theorem not_mem_newline_margin (o : Options) (level : Nat) : '\n' ∉ Page.margin o level := by
  have hunit : '\n' ∉ o.indent := by
    unfold Options.indent
    cases o.indentType with
    | spaces => simp [Indentation.unit, List.mem_replicate]
    | tabs => simp [Indentation.unit]
  simp [Page.margin, List.mem_flatten, List.mem_replicate, hunit]

/-- A line has no line feed if its text has none. -/
theorem not_mem_newline_append (o : Options) (level : Nat) (ht : '\n' ∉ t) :
    '\n' ∉ Page.margin o level ++ t := fun h =>
  (List.mem_append.1 h).elim (not_mem_newline_margin o level) ht

theorem not_mem_newline_entryLines {ds : List Declaration} (h : ∀ d ∈ ds, d.WellFormed) :
    ∀ line ∈ entryLines o level ds, '\n' ∉ line := by
  intro line hl
  obtain ⟨d, hd, rfl⟩ := List.mem_map.1 hl
  have hproperty := (h d hd).property.tidy.not_mem_newline
  have hbody := (isBody_spaced d (h d hd)).1.tidy.not_mem_newline
  have hcolon : '\n' ∉ (if o.spaceAfterColon then ": ".toList else [':']) := by split <;> decide
  refine not_mem_newline_append o level ?_
  rw [Declaration.spaced, ← Declaration.spacedBody]
  simp only [List.mem_append, not_or]
  exact ⟨⟨⟨hproperty, hcolon⟩, hbody⟩, by decide⟩

theorem not_mem_newline_headLines (hh : '\n' ∉ head) :
    ∀ line ∈ headLines o level head, '\n' ∉ line := by
  have hbefore : '\n' ∉ beforeBrace o head := by
    unfold beforeBrace
    split
    · simp
    · split <;> simp [hh]
  refine List.forall_mem_append.2 ⟨fun line hl => ?_, List.forall_mem_singleton.2 ?_⟩
  · obtain ⟨-, rfl⟩ := of_mem_ownLines hl
    exact not_mem_newline_append o level hh
  · exact not_mem_newline_append o level (by simp [hbefore])

theorem not_mem_newline_blockLines (hh : '\n' ∉ head) (hc : ∀ line ∈ content, '\n' ∉ line) :
    ∀ line ∈ blockLines o level head content, '\n' ∉ line := by
  have hblank : ∀ wanted, ∀ line ∈ blankLine wanted, '\n' ∉ line := by
    intro wanted
    cases wanted <;> simp [blankLine]
  refine List.forall_mem_append.2 ⟨not_mem_newline_headLines hh,
    List.forall_mem_append.2 ⟨?_, List.forall_mem_singleton.2 ?_⟩⟩
  · unfold padded
    split
    · simp
    · exact List.forall_mem_append.2
        ⟨List.forall_mem_append.2 ⟨hblank _, hc⟩, hblank _⟩
  · exact not_mem_newline_append o level (by decide)

/-- **No line of a tree without comments has a line feed in it.** -/
theorem not_mem_newline_linesAll {inner : Bool} (h : Rule.AllWellFormed inner rs)
    (hcomments : Rule.comments rs = []) :
    ∀ line ∈ Rule.linesAll o level rs, '\n' ∉ line := by
  -- the rules of the list, one before the others
  have cons : ∀ {level : Nat} {r : Rule} {rs : List Rule}, (∀ line ∈ r.lines o level, '\n' ∉ line) →
      (∀ line ∈ Rule.linesAll o level rs, '\n' ∉ line) →
      ∀ line ∈ Rule.linesAll o level (r :: rs), '\n' ∉ line := by
    intro level r rs hr hrs
    rw [Rule.linesAll]
    refine List.forall_mem_append.2 ⟨hr, ?_⟩
    split
    · simp
    · refine List.forall_mem_append.2 ⟨?_, hrs⟩
      cases r.wantsGap o <;> simp [blankLine]
  induction rs using Rule.forest_induction generalizing inner level with
  | nil => simp [Rule.linesAll]
  | comment t p rs ih => simp at hcomments
  | statement k pre p rs ih =>
    have hhead := (h.1.1.isTidy_heading h.1.2).not_mem_newline
    refine cons (List.forall_mem_singleton.2 ?_) (ih h.2 hcomments)
    exact not_mem_newline_append o level (by simp [hhead])
  | group k pre ds children p rs ihc ih =>
    obtain ⟨hk, hpre, hds, hc⟩ := h.1
    simp only [Rule.comments_group, List.append_eq_nil_iff] at hcomments
    exact cons (not_mem_newline_blockLines (hk.isTidy_heading hpre).not_mem_newline
      (List.forall_mem_append.2 ⟨not_mem_newline_entryLines hds, ihc hc hcomments.1⟩))
      (ih h.2 hcomments.2)
  | style s ds children p rs ihc ih =>
    obtain ⟨hs, -, hds, hc⟩ := h.1
    simp only [Rule.comments_style, List.append_eq_nil_iff] at hcomments
    exact cons (not_mem_newline_blockLines hs.phrase.tidy.not_mem_newline
      (List.forall_mem_append.2 ⟨not_mem_newline_entryLines hds, ihc hc hcomments.1⟩))
      (ih h.2 hcomments.2)

/-! ### The text of a stylesheet -/

/-- The lines of a text that line feeds separate; the empty text has none. -/
def linesOf (t : Text) : List Text := if t.isEmpty then [] else t.splitOn '\n'

/-- Lines without line feeds in them can be told from the text. -/
theorem linesOf_join (h : ∀ line ∈ lines, '\n' ∉ line) (hne : lines ≠ [[]]) :
    linesOf (Text.join ['\n'] lines) = lines := by
  unfold linesOf
  split
  · rename_i hempty
    match lines with
    | [] => rfl
    | [line] =>
      rw [Text.join, List.intercalate_singleton, List.isEmpty_iff] at hempty
      exact absurd (congrArg (fun l => [l]) hempty) hne
    | line :: line' :: lines => simp [Text.join, List.intercalate_cons_cons] at hempty
  · rename_i hempty
    refine List.splitOn_intercalate '\n' h ?_
    rintro rfl
    exact hempty rfl

/-- A tree has no comments if comments are left out. -/
theorem comments_normalAll (ho : o.preserveComments = false) (rs : List Rule) :
    Rule.comments (Rule.normalAll o rs) = [] := by
  -- the rules of the list: those that are left out have no comments
  have cons : ∀ r rs, (r.skipped o = false → Rule.comments [r.normal o] = []) →
      Rule.comments (Rule.normalAll o rs) = [] →
      Rule.comments (Rule.normalAll o (r :: rs)) = [] := by
    intro r rs hr hrs
    rw [Rule.normalAll]
    cases h : r.skipped o with
    | true => exact hrs
    | false =>
      rw [if_neg Bool.false_ne_true, ← List.singleton_append, Rule.comments_append, hr h, hrs]
      rfl
  induction rs using Rule.forest_induction with
  | nil => rfl
  | comment t p rs ih => exact cons _ rs (by simp [Rule.skipped, ho]) ih
  | statement k pre p rs ih => exact cons _ rs (fun _ => rfl) ih
  | group k pre ds children p rs ihc ih =>
    exact cons _ rs (fun _ => by simp [Rule.normal, ihc]) ih
  | style s ds children p rs ihc ih =>
    exact cons _ rs (fun _ => by simp [Rule.normal, ihc]) ih

/-- **The text of a stylesheet on lines, without its comments.**  Its lines are those of the tree
that the options leave, with a blank line between a rule and the next one if that is wanted, and
each of them is in order between the lines before it and the lines behind it. -/
theorem laidAt_beautify (source : Text) (o : Options) (ho : o.preserveComments = false) :
    linesOf (beautify (rulesOf source) o) =
        Rule.linesAll o 0 (Rule.normalAll o (rulesOf source)) ∧
      ∀ before line after, linesOf (beautify (rulesOf source) o) = before ++ line :: after →
        LaidAt o before line after := by
  have hw : Rule.AllWellFormed false (Rule.normalAll o (rulesOf source)) :=
    Rule.allWellFormed_normalAll false (wellFormed_parse (Lexed.scanFrom .start source))
  have hcomments := comments_normalAll ho (rulesOf source)
  have hlaid : Laid o 0 (Rule.linesAll o 0 (Rule.normalAll o (rulesOf source))) :=
    laid_linesAll hw hcomments
  have hlines : linesOf (beautify (rulesOf source) o) =
      Rule.linesAll o 0 (Rule.normalAll o (rulesOf source)) := by
    rw [← beautify_normalAll, beautify_eq_join hw]
    refine linesOf_join (not_mem_newline_linesAll hw hcomments) fun h => ?_
    exact absurd (hlaid.firm.head [] (by rw [h]; rfl)) (by decide)
  refine ⟨hlines, fun before line after h => ?_⟩
  have hthere := hlaid.stands [] [] rfl (by simp [Joins]) before line after (hlines.symm.trans h)
  rwa [List.nil_append, List.append_nil] at hthere

/-- An at-rule before a group with two rules inside, one of them empty, and a comment that is left
out. -/
theorem laidAt_beautify_nested :
    let source := "@import a;@media b\x7bc\x7bd:e\x7df\x7b\x7d\x7d/*g*/".toList
    let o := { Options.standard with preserveComments := false, blankLineAfterBrace := true }
    o.preserveComments = false ∧
      linesOf (beautify (rulesOf source) o) =
        ["@import a;".toList, [], "@media b \x7b".toList, [], "  c \x7b".toList, [],
          "    d: e;".toList, "  \x7d".toList, [], "  f \x7b".toList, "  \x7d".toList,
          "\x7d".toList] ∧
      ∀ before line after, linesOf (beautify (rulesOf source) o) = before ++ line :: after →
        LaidAt o before line after := by
  intro source o
  exact ⟨rfl, by decide +kernel, (laidAt_beautify source o rfl).2⟩

end Stylesheet
end Galley
