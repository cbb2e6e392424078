/-
# The outline of text on lines

A reader of text on lines sees no tree.  He sees lines that end with an opening brace, lines that
are a closing brace, other lines and blank ones.  Of each line between the lines before it and the
lines behind it the following can be said (`LaidAt`):

| line | what is said of it |
| --- | --- |
| not blank | its margin counts the braces open there |
| with an opening brace | its block ends with a closing brace, and begins with a blank line if that is wanted and the block is not blank |
| a closing brace | its block begins with an opening brace, and ends with a blank line in the same way |
| blank | the lines beside it are not; it is beside a brace and inside its block, or behind a rule if that is wanted |
| the last one of a rule | what follows is blank or a closing brace, or no blank line is wanted |

The block of a brace is what is between it and the brace that is paired with it; inside it the
braces are paired with each other (`Balanced`).

What is shown of lines is shown where they stand, for any lines before and behind them
(`Throughout`): a stretch is in order if its parts are in order there (`throughout_append`), and
nothing is to be said about how two stretches fit together.
-/

import Galley.Proofs.Stylesheet.Lines

namespace Galley
namespace Stylesheet

/-! ### Lines with braces -/

/-- Whether a line ends with an opening brace. -/
def opensLine (line : Text) : Bool := line.getLast? == some '{'

/-- Whether a line is a closing brace. -/
def closesLine (line : Text) : Bool := Text.trim line == ['}']

/-- Whether a rule ends with a line: with its closing brace or, if it is an at-rule without a block,
with its semicolon. -/
def endsRule (line : Text) : Bool :=
  closesLine line || ((Text.trim line).head? == some '@' && line.getLast? == some ';')

/-- Lines whose braces are paired with each other. -/
structure Balanced (lines : List Text) : Prop where
  opened : ∀ part, part <+: lines → part.countP closesLine ≤ part.countP opensLine
  settled : lines.countP closesLine = lines.countP opensLine

/-- What holds of a line between the lines before it and the lines behind it. -/
structure LaidAt (o : Options) (before : List Text) (line : Text) (after : List Text) : Prop where
  indented : line.allBlank = false → ∃ depth c cs, line = Page.margin o depth ++ c :: cs ∧
    Text.isBlank c = false ∧
    depth + (before ++ [line]).countP closesLine = before.countP opensLine
  opened : opensLine line = true → ∃ inside close rest, after = inside ++ close :: rest ∧
    closesLine close = true ∧ Balanced inside ∧
    ((∃ next ∈ after.head?, next.allBlank = true) ↔
      o.blankLineAfterBrace = true ∧ ∃ entry ∈ inside, entry.allBlank = false)
  closed : closesLine line = true → ∃ rest brace inside, before = rest ++ brace :: inside ∧
    opensLine brace = true ∧ Balanced inside ∧
    ((∃ prev ∈ before.getLast?, prev.allBlank = true) ↔
      o.blankLineBeforeCloseBrace = true ∧ ∃ entry ∈ inside, entry.allBlank = false)
  blank : line.allBlank = true → ∃ prev ∈ before.getLast?, ∃ next ∈ after.head?,
    prev.allBlank = false ∧ next.allBlank = false ∧
    (opensLine prev = true ∨ closesLine next = true ∨
      endsRule prev = true ∧ o.blankLineAfterRule = true)
  sibling : endsRule line = true → ∀ next ∈ after.head?,
    next.allBlank = true ∨ closesLine next = true ∨ o.blankLineAfterRule = false

/-- Whether something holds of every line of a stretch between the lines in front of it and the
lines at its back. -/
def Throughout (P : List Text → Text → List Text → Prop) (front lines back : List Text) : Prop :=
  ∀ before line after, lines = before ++ line :: after → P (front ++ before) line (after ++ back)

variable {P : List Text → Text → List Text → Prop} {o : Options} {level : Nat}
  {a b front back lines content : List Text} {line t : Text}

/-! ### Stretches of lines -/

theorem throughout_nil : Throughout P front [] back := by
  intro before line after h
  simp at h

theorem throughout_singleton : Throughout P front [line] back ↔ P front line back := by
  constructor
  · intro h
    simpa using h [] line [] rfl
  · intro h before line' after heq
    obtain ⟨rfl, rfl, rfl⟩ : before = [] ∧ line' = line ∧ after = [] := by
      cases before with
      | nil => simpa [eq_comm] using heq
      | cons l ls => simp at heq
    simpa using h

/-- **A stretch holds if its parts do where they stand.** -/
theorem throughout_append :
    Throughout P front (a ++ b) back ↔
      Throughout P front a (b ++ back) ∧ Throughout P (front ++ a) b back := by
  constructor
  · refine fun h => ⟨?_, ?_⟩
    · rintro before line after rfl
      simpa using h before line (after ++ b) (by simp)
    · rintro before line after rfl
      simpa using h (a ++ before) line after (by simp)
  · rintro ⟨ha, hb⟩ before line after heq
    rcases List.append_eq_append_iff.1 heq with ⟨as, rfl, rfl⟩ | ⟨bs, rfl, hbs⟩
    · simpa using hb as line after rfl
    · cases bs with
      | nil => simpa using hb [] line after (by simpa using hbs.symm)
      | cons l ls =>
        obtain ⟨rfl, rfl⟩ := List.cons.inj hbs
        simpa using ha before line ls rfl

theorem throughout_cons :
    Throughout P front (line :: lines) back ↔
      P front line (lines ++ back) ∧ Throughout P (front ++ [line]) lines back := by
  rw [← List.singleton_append, throughout_append, throughout_singleton]

/-! ### Balanced lines -/

theorem countP_closesLine_concat (before : List Text) (line : Text) :
    (before ++ [line]).countP closesLine =
      before.countP closesLine + if closesLine line then 1 else 0 := by
  rw [List.countP_append, List.countP_singleton]

namespace Balanced

theorem append (ha : Balanced a) (hb : Balanced b) : Balanced (a ++ b) where
  opened part hpart := by
    rcases List.prefix_or_prefix_of_prefix hpart (List.prefix_append a b) with h | ⟨rest, rfl⟩
    · exact ha.opened part h
    · have h₁ := hb.opened rest ((List.prefix_append_right_inj a).1 hpart)
      have h₂ := ha.settled
      simp only [List.countP_append]
      omega
  settled := by
    have h₁ := ha.settled
    have h₂ := hb.settled
    simp only [List.countP_append]
    omega

theorem of_neutral (h : ∀ line ∈ lines, opensLine line = false ∧ closesLine line = false) :
    Balanced lines := by
  have none : ∀ part, part <+: lines →
      part.countP closesLine = 0 ∧ part.countP opensLine = 0 := by
    intro part hpart
    constructor <;> refine List.countP_eq_zero.2 fun line hl => ?_
    · simp [(h line (hpart.mem hl)).2]
    · simp [(h line (hpart.mem hl)).1]
  refine ⟨fun part hpart => ?_, ?_⟩
  · rw [(none part hpart).1]
    exact Nat.zero_le _
  · rw [(none lines List.prefix_rfl).1, (none lines List.prefix_rfl).2]

theorem blankLine (wanted : Bool) : Balanced (Stylesheet.blankLine wanted) := by
  refine of_neutral fun line hl => ?_
  cases wanted with
  | false => simp [Stylesheet.blankLine] at hl
  | true =>
    obtain rfl : line = [] := by simpa [Stylesheet.blankLine] using hl
    decide

theorem padded (h : Balanced content) : Balanced (padded o content) := by
  rw [Stylesheet.padded]
  split
  · exact of_neutral (by simp)
  · exact ((blankLine _).append h).append (blankLine _)

/-- The braces of a block and what is between them. -/
theorem braces {brace close : Text} (h : Balanced lines) (ho : opensLine brace = true)
    (ho' : closesLine brace = false) (hc : closesLine close = true)
    (hc' : opensLine close = false) : Balanced (brace :: (lines ++ [close])) where
  opened part hpart := by
    rcases List.prefix_cons_iff.1 hpart with rfl | ⟨rest, rfl, hrest⟩
    · simp
    rw [List.countP_cons_of_pos ho, List.countP_cons_of_neg (by simp [ho'])]
    rcases List.prefix_concat_iff.1 hrest with rfl | hrest
    · rw [List.countP_append, List.countP_append, List.countP_singleton, List.countP_singleton, hc,
        hc', h.settled, if_pos rfl, if_neg Bool.false_ne_true]
    · exact Nat.le_succ_of_le (h.opened rest hrest)
  settled := by
    simp [List.countP_append, ho, ho', hc, hc', h.settled]

end Balanced

/-! ### Margins -/

/-- Trimming takes off a margin. -/
theorem trim_margin (o : Options) (level : Nat) (ht : IsTrimmed t) :
    Text.trim (Page.margin o level ++ t) = t := by
  have hmargin := List.all_eq_true.1 (allBlank_margin o level)
  have htrim := ht.trim_append (show Text.allBlank [] = true from rfl)
  rw [List.append_nil] at htrim
  rw [Text.trim, Text.trimLeft, List.dropWhile_append_of_pos hmargin]
  exact htrim

theorem opensLine_margin (o : Options) (level : Nat) (hne : t ≠ []) :
    opensLine (Page.margin o level ++ t) = (t.getLast? == some '{') := by
  rw [opensLine, List.getLast?_append_of_ne_nil _ hne]

theorem closesLine_margin (o : Options) (level : Nat) (ht : IsTrimmed t) :
    closesLine (Page.margin o level ++ t) = (t == ['}']) := by
  rw [closesLine, trim_margin o level ht]

theorem endsRule_margin (o : Options) (level : Nat) (hne : t ≠ []) (ht : IsTrimmed t) :
    endsRule (Page.margin o level ++ t) =
      (t == ['}'] || (t.head? == some '@' && t.getLast? == some ';')) := by
  rw [endsRule, closesLine_margin o level ht, trim_margin o level ht,
    List.getLast?_append_of_ne_nil _ hne]

/-- A line that is no brace and ends no rule. -/
structure IsPlain (line : Text) : Prop where
  opens : opensLine line = false
  ends : endsRule line = false

theorem IsPlain.closes (h : IsPlain line) : closesLine line = false :=
  (Bool.or_eq_false_iff.1 h.ends).1

/-- A line with a text that ends with neither brace nor semicolon, or with a semicolon but is no
at-rule. -/
theorem isPlain_margin (hne : t ≠ []) (ht : IsTrimmed t) (hopen : t.getLast? ≠ some '{')
    (hclose : t ≠ ['}']) (hends : t.head? = some '@' → t.getLast? ≠ some ';') :
    IsPlain (Page.margin o level ++ t) where
  opens := by
    rw [opensLine_margin o level hne]
    simpa using hopen
  ends := by
    rw [endsRule_margin o level hne ht]
    simpa [hclose] using hends

/-- The line of a closing brace. -/
theorem closingLine (o : Options) (level : Nat) :
    Stands o level (Page.margin o level ++ ['}']) ∧
      opensLine (Page.margin o level ++ ['}']) = false ∧
      closesLine (Page.margin o level ++ ['}']) = true := by
  have hs : Stands o level (Page.margin o level ++ ['}']) := stands_mark rfl
  have htrimmed : IsTrimmed ['}'] := isTrimmed_append_mark (t := []) rfl (by simp)
  refine ⟨hs, ?_, ?_⟩
  · rw [opensLine_margin o level (by simp)]
    rfl
  · rw [closesLine_margin o level htrimmed]
    rfl

/-! ### Lines where they stand -/

/-- Whether so many blocks are open behind some lines. -/
def AtDepth (depth : Nat) (lines : List Text) : Prop :=
  lines.countP opensLine = depth + lines.countP closesLine

/-- Whether the end of a rule may come before some lines. -/
def Joins (o : Options) (back : List Text) : Prop :=
  ∀ next ∈ back.head?,
    next.allBlank = true ∨ closesLine next = true ∨ o.blankLineAfterRule = false

theorem AtDepth.append (h : AtDepth level front) (hl : Balanced lines) :
    AtDepth level (front ++ lines) := by
  have := hl.settled
  unfold AtDepth at h ⊢
  simp only [List.countP_append]
  omega

theorem AtDepth.open (h : AtDepth level front) (ho : opensLine line = true)
    (hc : closesLine line = false) : AtDepth (level + 1) (front ++ [line]) := by
  unfold AtDepth at h ⊢
  simp [List.countP_append, ho, hc, h]
  omega

/-- The margin of a line that is no closing brace. -/
theorem Stands.indented (h : Stands o level line) (hf : AtDepth level front)
    (hc : closesLine line = false) :
    ∃ depth c cs, line = Page.margin o depth ++ c :: cs ∧ Text.isBlank c = false ∧
      depth + (front ++ [line]).countP closesLine = front.countP opensLine := by
  obtain ⟨t, rfl, hne, ht⟩ := h
  obtain ⟨c, cs, rfl⟩ := List.exists_cons_of_ne_nil hne
  refine ⟨level, c, cs, rfl, ht.head c rfl, ?_⟩
  rw [countP_closesLine_concat, hc, hf]
  rfl

/-- A line that is no brace. -/
theorem laidAt_of_stands (h : Stands o level line) (hf : AtDepth level front)
    (ho : opensLine line = false) (hc : closesLine line = false)
    (hb : endsRule line = true → Joins o back) : LaidAt o front line back where
  indented _ := h.indented hf hc
  opened hopen := absurd hopen (by simp [ho])
  closed hclose := absurd hclose (by simp [hc])
  blank hblank := absurd hblank (by simp [h.not_allBlank])
  sibling hends := hb hends

theorem balanced_plain (h : ∀ line ∈ lines, Stands o level line ∧ IsPlain line) :
    Balanced lines :=
  .of_neutral fun line hl => ⟨(h line hl).2.opens, (h line hl).2.closes⟩

theorem throughout_plain (h : ∀ line ∈ lines, Stands o level line ∧ IsPlain line)
    (hf : AtDepth level front) : Throughout (LaidAt o) front lines back := by
  induction lines generalizing front with
  | nil => exact throughout_nil
  | cons line lines ih =>
    obtain ⟨⟨hs, hp⟩, hrest⟩ := List.forall_mem_cons.1 h
    refine throughout_cons.2 ⟨laidAt_of_stands hs hf hp.opens hp.closes fun hends => ?_,
      ih hrest (hf.append (balanced_plain (List.forall_mem_singleton.2 ⟨hs, hp⟩)))⟩
    exact absurd hends (by simp [hp.ends])

/-- A blank line. -/
theorem laidAt_blank {prev next : Text} (hprev : prev ∈ front.getLast?)
    (hnext : next ∈ back.head?) (hps : prev.allBlank = false) (hns : next.allBlank = false)
    (h : opensLine prev = true ∨ closesLine next = true ∨
      endsRule prev = true ∧ o.blankLineAfterRule = true) :
    LaidAt o front [] back where
  indented hsolid := absurd hsolid (by decide)
  opened hopen := absurd hopen (by decide)
  closed hclose := absurd hclose (by decide)
  blank _ := ⟨prev, hprev, next, hnext, hps, hns, h⟩
  sibling hends := absurd hends (by decide)

theorem throughout_blankLine (wanted : Bool) (h : wanted = true → LaidAt o front [] back) :
    Throughout (LaidAt o) front (blankLine wanted) back := by
  cases wanted with
  | false => exact throughout_nil
  | true => exact throughout_singleton.2 (h rfl)

/-- Lines of a level that are in order wherever so many blocks are open. -/
structure Laid (o : Options) (level : Nat) (lines : List Text) : Prop where
  firm : Firm lines
  balanced : Balanced lines
  stands : ∀ front back, AtDepth level front → Joins o back →
    Throughout (LaidAt o) front lines back

/-- Plain lines may come before others. -/
theorem Laid.plain_append (h : ∀ line ∈ a, Stands o level line ∧ IsPlain line)
    (hb : Laid o level b) : Laid o level (a ++ b) where
  firm := (Firm.of_solid fun line hl => (h line hl).1.not_allBlank).append hb.firm
  balanced := (balanced_plain h).append hb.balanced
  stands _ _ hf hjoins := throughout_append.2
    ⟨throughout_plain h hf, hb.stands _ _ (hf.append (balanced_plain h)) hjoins⟩

/-- Behind the end of a rule come others of its level, with a blank line between them if wanted. -/
theorem Laid.followed (ha : Laid o level a) (hends : ∀ line ∈ a.getLast?, endsRule line = true)
    (hb : Laid o level b) (hane : a ≠ []) (hbne : b ≠ []) :
    Laid o level (a ++ (blankLine o.blankLineAfterRule ++ b)) where
  firm := ha.firm.beside _ hb.firm hane hbne
  balanced := ha.balanced.append ((Balanced.blankLine _).append hb.balanced)
  stands := by
    intro front back hf hjoins
    obtain ⟨next, rest, rfl⟩ := List.exists_cons_of_ne_nil hbne
    rw [throughout_append, throughout_append]
    refine ⟨ha.stands _ _ hf ?_, throughout_blankLine _ fun hw => ?_,
      hb.stands _ _ ((hf.append ha.balanced).append (.blankLine _)) hjoins⟩
    · -- what follows the rule is the blank line or, if none is wanted, whatever it is
      cases hw : o.blankLineAfterRule with
      | true =>
        rintro line ⟨⟩
        exact Or.inl rfl
      | false => exact fun line _ => Or.inr (Or.inr hw)
    · have hlast := List.getLast?_eq_some_getLast hane
      have hprev : a.getLast hane ∈ (front ++ a).getLast? := by
        rwa [List.getLast?_append_of_ne_nil _ hane]
      exact laidAt_blank hprev rfl (ha.firm.last _ hlast) (hb.firm.head next rfl)
        (Or.inr (Or.inr ⟨hends _ hlast, hw⟩))

/-! ### Blocks -/

/-- A block begins with a blank line if that is wanted and there is something in it. -/
theorem blank_head_padded (hc : Firm content) {next : Text} (hn : next.allBlank = false) :
    (∃ line ∈ (padded o content ++ next :: back).head?, line.allBlank = true) ↔
      o.blankLineAfterBrace = true ∧ ∃ entry ∈ padded o content, entry.allBlank = false := by
  cases content with
  | nil => simp [padded, hn]
  | cons entry entries =>
    have hentry : entry.allBlank = false := hc.head entry rfl
    have hmem : ∃ line ∈ padded o (entry :: entries), line.allBlank = false :=
      ⟨entry, by simp [padded], hentry⟩
    rw [and_iff_left hmem]
    cases hw : o.blankLineAfterBrace with
    | true => simp [padded, hw, blankLine, Text.allBlank]
    | false => simp [padded, hw, blankLine, hentry]

/-- A block ends with a blank line if that is wanted and there is something in it. -/
theorem blank_last_padded (hc : Firm content) {brace : Text} (hn : brace.allBlank = false) :
    (∃ line ∈ (front ++ brace :: padded o content).getLast?, line.allBlank = true) ↔
      o.blankLineBeforeCloseBrace = true ∧
        ∃ entry ∈ padded o content, entry.allBlank = false := by
  cases content with
  | nil => simp [padded, hn]
  | cons entry entries =>
    have hentry : entry.allBlank = false := hc.head entry rfl
    have hmem : ∃ line ∈ padded o (entry :: entries), line.allBlank = false :=
      ⟨entry, by simp [padded], hentry⟩
    have hpadded : front ++ brace :: padded o (entry :: entries) =
        front ++ brace :: blankLine o.blankLineAfterBrace ++ (entry :: entries) ++
          blankLine o.blankLineBeforeCloseBrace := by
      simp [padded]
    rw [and_iff_left hmem, hpadded]
    cases o.blankLineBeforeCloseBrace with
    | true =>
      rw [show blankLine true = [[]] from rfl, List.getLast?_concat]
      simp [Text.allBlank]
    | false =>
      rw [show blankLine false = [] from rfl, List.append_nil,
        List.getLast?_append_of_ne_nil _ (List.cons_ne_nil entry entries)]
      refine iff_of_false ?_ Bool.false_ne_true
      rintro ⟨line, hl, hblank⟩
      simp [hc.last line hl] at hblank

/-- What is between two braces. -/
theorem Laid.padded {brace close : Text} (hc : Laid o level content)
    (hbrace : opensLine brace = true) (hbs : brace.allBlank = false)
    (hclose : closesLine close = true) (hcs : close.allBlank = false)
    (hf : AtDepth level (front ++ [brace])) :
    Throughout (LaidAt o) (front ++ [brace]) (padded o content) (close :: back) := by
  rw [Stylesheet.padded]
  split
  · exact throughout_nil
  rename_i hne
  have hne : content ≠ [] := by simpa using hne
  rw [List.append_assoc, throughout_append, throughout_append]
  refine ⟨throughout_blankLine _ fun _ => ?_, hc.stands _ _ (hf.append (.blankLine _)) ?_,
    throughout_blankLine _ fun _ => ?_⟩
  · -- behind the opening brace
    obtain ⟨entry, entries, rfl⟩ := List.exists_cons_of_ne_nil hne
    exact laidAt_blank List.getLast?_concat rfl hbs (hc.firm.head entry rfl) (Or.inl hbrace)
  · intro next hnext
    cases hw : o.blankLineBeforeCloseBrace with
    | true =>
      obtain rfl : [] = next := by simpa [hw, blankLine] using hnext
      exact Or.inl rfl
    | false =>
      obtain rfl : close = next := by simpa [hw, blankLine] using hnext
      exact Or.inr (Or.inl hclose)
  · -- before the closing brace
    have hlast := List.getLast?_eq_some_getLast hne
    have hprev : content.getLast hne ∈
        (front ++ [brace] ++ blankLine o.blankLineAfterBrace ++ content).getLast? := by
      rwa [List.getLast?_append_of_ne_nil _ hne]
    exact laidAt_blank hprev rfl (hc.firm.last _ hlast) hcs (Or.inr (Or.inl hclose))

/-- The braces of a block and what is between them. -/
theorem Laid.braces {brace : Text} (hc : Laid o (level + 1) content) (hs : Stands o level brace)
    (hbrace : opensLine brace = true) (hends : endsRule brace = false) (hf : AtDepth level front)
    (hb : Joins o back) :
    Throughout (LaidAt o) front
      (brace :: (Stylesheet.padded o content ++ [Page.margin o level ++ ['}']])) back := by
  obtain ⟨hcs, hcopen, hclose⟩ := closingLine o level
  have hbclose : closesLine brace = false := (Bool.or_eq_false_iff.1 hends).1
  have hdepth : AtDepth (level + 1) (front ++ [brace]) := hf.open hbrace hbclose
  have hinside : AtDepth (level + 1) (front ++ [brace] ++ Stylesheet.padded o content) :=
    hdepth.append hc.balanced.padded
  rw [throughout_cons, throughout_append, throughout_singleton]
  refine ⟨?_, hc.padded hbrace hs.not_allBlank hclose hcs.not_allBlank hdepth, ?_⟩
  · rw [List.append_assoc]
    exact {
      indented := fun _ => hs.indented hf hbclose
      opened := fun _ => ⟨Stylesheet.padded o content, _, back, rfl, hclose, hc.balanced.padded,
        blank_head_padded hc.firm hcs.not_allBlank⟩
      closed := fun h => absurd h (by simp [hbclose])
      blank := fun h => absurd h (by simp [hs.not_allBlank])
      sibling := fun h => absurd h (by simp [hends]) }
  · rw [List.append_assoc, List.singleton_append] at hinside ⊢
    exact {
      indented := fun _ => by
        refine ⟨level, '}', [], rfl, by decide, ?_⟩
        rw [countP_closesLine_concat, if_pos hclose, hinside]
        omega
      opened := fun h => absurd h (by simp [hcopen])
      closed := fun _ => ⟨front, brace, Stylesheet.padded o content, rfl, hbrace,
        hc.balanced.padded, blank_last_padded hc.firm hs.not_allBlank⟩
      blank := fun h => absurd h (by simp [hcs.not_allBlank])
      sibling := fun _ => hb }

end Stylesheet
end Galley
