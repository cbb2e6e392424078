/-
# The table of rules for reports

Reports are cut into tokens by one table of rules (`Report.rules`).  Most of them apply at the start of
a line only and take the line with its end, as it stands in the table of `Galley.Highlight.Report`; a
fence and number columns are taken alone, and then the rules for records find what is left of the
line.

Each rule finds what the function for its row finds (`head?_outcomes_heading` and so on), and so the
first rule that applies takes a line for what the first function that applies takes it for
(`next_rules`, `steps_line`).  Where the parts of a line can be told from the line all ways to match a
rule come to the same.  A fence is the exception: its language and its line feed may be left out, and
the way that is tried first takes them.

No rule of the table stays at a place or leaves out a part of what it takes (`goesOn_of_mem_rules`);
this can be told from how the rules are written (`Rule.isTiled`).
-/

import Galley.Proofs.Highlight.Columns
import Galley.Proofs.Highlight.Rules
import Galley.Proofs.Text.Lines

namespace Galley
namespace Highlight
namespace Report

open Pattern

/-! ### The table -/

/-- The rest of a line and its end. -/
def lineRest : Pattern := .run 0 (· != '\n') ++ .word ['\n']

/-- Spaces, digits and some mark. -/
def column (mark : Text) : Pattern := .run 0 (· == ' ') ++ (.run 0 Text.isDecimal ++ .word mark)

/-- The heading of a part. -/
def headingRule : Rule where
  pattern := .lineStart ++
    (.group 1 (.either (.word "Diff Comparison".toList)
      (.either (.word "JSON Comparison:".toList) (.word "Statistics:".toList))) ++
    .group 2 lineRest)
  action := .byGroups [.heading, .heading]

/-- The heading of the split layout. -/
def sidesRule : Rule where
  pattern := .lineStart ++
    (.group 1 (.word "OLD (Left) | NEW (Right)".toList) ++ .group 2 (.word ['\n']))
  action := .byGroups [.subheading, .blank]

/-- A ruled line. -/
def rulingRule : Rule where
  pattern := .lineStart ++ (.run 10 (fun c => c == '=' || c == '-') ++ .word ['\n'])
  action := .whole .frame

/-- A code fence. -/
def fenceRule : Rule where
  pattern := .lineStart ++
    (.word "```".toList ++ (.optional (.group 1 (.word "diff".toList)) ++ .optional (.word ['\n'])))
  action := .whole .frame

/-- A statistic. -/
def statisticRule : Rule where
  pattern := .lineStart ++
    (.group 1 (.either (.word "Lines ".toList ++ .run 1 Text.isWordChar)
      (.word "Similarity".toList)) ++
    (.group 2 (.word [':']) ++ (.group 3 (.run 0 (· == ' ')) ++
    (.group 4 (.run 1 Text.isDecimal ++ .optional (.word ['%'])) ++ .group 5 (.word ['\n'])))))
  action := .byGroups [.label, .punctuation, .blank, .number, .blank]

/-- The mark of lines that are left out. -/
def omissionRule : Rule where
  pattern := .lineStart ++ .word ['.', '.', '.', '\n']
  action := .whole .subheading

/-- The number columns of the split layout. -/
def splitColumnsRule : Rule where
  pattern := .lineStart ++ .group 1 (column [' ', '|'] ++ (column [' ', '|'] ++ .word [' ']))
  action := .whole .number

/-- The number column of the inline layout. -/
def inlineColumnRule : Rule where
  pattern := .lineStart ++ .group 1 (column [':', ' '])
  action := .whole .number

/-- A record behind a mark. -/
def markedRule (mark : Text) (kind : Class) : Rule where
  pattern := .word mark ++ lineRest
  action := .whole kind

/-- Any other line. -/
def plainRule : Rule where
  pattern := lineRest
  action := .whole .plain

/-- A line without an end. -/
def lastRule : Rule where
  pattern := .run 1 (· != '\n')
  action := .whole .plain

/-- The rules for records, which apply anywhere in a line. -/
def recordRules : List Rule :=
  [markedRule ['+', ' '] .inserted, markedRule ['-', ' '] .deleted, plainRule, lastRule]

/-- The rules for reports. -/
def rules : List Rule :=
  [headingRule, sidesRule, rulingRule, fenceRule, statisticRule, omissionRule, splitColumnsRule,
    inlineColumnRule] ++ recordRules

variable {atStart : Bool} {t w line more rest : Text} {m : Match} {ss : List Span} {p : Pattern}

/-! ### Ends of lines -/

theorem startsLine_lineFeed (atStart : Bool) (t : Text) :
    startsLine atStart (t ++ ['\n']) = true := by
  simp [startsLine]

/-- No line starts behind a part of a line. -/
theorem startsLine_of_not_mem (atStart : Bool) (ht : '\n' ∉ t) (hne : t ≠ []) :
    startsLine atStart t = false := by
  rw [startsLine, List.getLast?_eq_some_getLast hne, Option.elim_some, beq_eq_false_iff_ne]
  exact fun h => ht (h ▸ List.getLast_mem hne)

/-- The end of a line is taken where nothing is left of the line. -/
theorem mem_ways_lineFeed (hline : '\n' ∉ line) :
    m ∈ (Pattern.word ['\n']).ways atStart (line ++ '\n' :: more) ↔
      line = [] ∧ m = ⟨['\n'], [], more⟩ := by
  rw [mem_ways_word]
  cases line with
  | nil => simp
  | cons c line =>
    refine iff_of_false ?_ (by simp)
    rintro ⟨rest, h, -⟩
    exact hline ((List.cons.inj h).1 ▸ List.mem_cons_self ..)

theorem mem_ways_lineRest (hline : '\n' ∉ line) :
    m ∈ lineRest.ways atStart (line ++ '\n' :: more) ↔ m = ⟨line ++ ['\n'], [], more⟩ := by
  rw [lineRest, (Takes.run (by decide)).mem_ways_append]
  constructor
  · rintro ⟨u, v, -, rfl, y, hy, rfl⟩
    have hv : '\n' ∉ v := fun hmem => hline (List.mem_append_right u hmem)
    obtain ⟨rfl, rfl⟩ := (mem_ways_lineFeed hv).1 hy
    rw [List.append_nil]
  · rintro rfl
    have hall : ∀ c ∈ line, (c != '\n') = true := by
      intro c hc
      rw [bne_iff_ne]
      exact fun h => hline (h ▸ hc)
    exact ⟨line, [], ⟨Nat.zero_le _, hall⟩, (List.append_nil line).symm, _,
      (mem_ways_lineFeed List.not_mem_nil).2 ⟨rfl, rfl⟩, rfl⟩

theorem mem_ways_group_lineFeed {i : Nat} (hline : '\n' ∉ line) :
    m ∈ (Pattern.group i (.word ['\n'])).ways atStart (line ++ '\n' :: more) ↔
      line = [] ∧ m = ⟨['\n'], [(i, ['\n'])], more⟩ := by
  rw [mem_ways_group]
  simp only [mem_ways_lineFeed hline, and_assoc, exists_and_left, exists_eq_left]
  rfl

theorem mem_ways_group_lineRest {i : Nat} (hline : '\n' ∉ line) :
    m ∈ (Pattern.group i lineRest).ways atStart (line ++ '\n' :: more) ↔
      m = ⟨line ++ ['\n'], [(i, line ++ ['\n'])], more⟩ := by
  rw [mem_ways_group]
  simp only [mem_ways_lineRest hline, exists_eq_left]
  rfl

/-! ### Records -/

/-- The spans of a line as the tokens of a step, which ends the line. -/
def ended (more : Text) (ss : List Span) : List Token × Place := (ss.map Span.token, ⟨true, more⟩)

/-- A match that ends in a line feed ends the line. -/
theorem outcome_eq_ended {r : Rule} {u : Text} (htaken : m.taken = u ++ ['\n']) (hrest : m.rest = more)
    (htokens : r.action.tokens m = ss.map Span.token) : r.outcome ⟨atStart, t⟩ m = ended more ss := by
  rw [Rule.outcome, htaken, hrest, htokens, startsLine_lineFeed, ended]

theorem cutStart?_eq_some_iff : cutStart? w t = some rest ↔ t = w ++ rest := by
  unfold cutStart?
  split
  · rename_i h
    obtain ⟨v, rfl⟩ := List.isPrefixOf_iff_prefix.1 h
    simp
  · rename_i h
    refine iff_of_false nofun ?_
    rintro rfl
    exact h (List.isPrefixOf_iff_prefix.2 (List.prefix_append w rest))

/-- A record rule takes the rest of a line that begins with its mark. -/
theorem head?_outcomes_marked {mark : Text} {kind : Class} (hmark : '\n' ∉ mark)
    (hline : '\n' ∉ line) :
    ((markedRule mark kind).outcomes ⟨atStart, line ++ '\n' :: more⟩).head? =
      (cutStart? mark line).map fun _ => ended more [⟨kind, line ++ ['\n']⟩] := by
  refine Rule.head?_outcomes (fun m hm => ?_) fun v hv => ?_
  · obtain ⟨_, v, rfl, rfl, y, hy, rfl⟩ := (Takes.word hmark).mem_ways_append.1 hm
    have hv : '\n' ∉ v := fun hmem => hline (List.mem_append_right _ hmem)
    rw [(mem_ways_lineRest hv).1 hy]
    refine ⟨v, cutStart?_eq_some_iff.2 rfl, outcome_eq_ended (List.append_assoc ..).symm rfl ?_⟩
    rw [List.append_assoc]
    rfl
  · obtain rfl := cutStart?_eq_some_iff.1 hv
    have hv : '\n' ∉ v := fun hmem => hline (List.mem_append_right _ hmem)
    exact (Takes.word hmark).ways_append_ne_nil rfl rfl
      (List.ne_nil_of_mem ((mem_ways_lineRest hv).2 rfl))

theorem head?_outcomes_plain (hline : '\n' ∉ line) :
    (plainRule.outcomes ⟨atStart, line ++ '\n' :: more⟩).head? =
      some (ended more [⟨.plain, line ++ ['\n']⟩]) := by
  have hways := Rule.head?_outcomes (r := plainRule) (p := ⟨atStart, line ++ '\n' :: more⟩)
    (o := some ()) (f := fun _ => ended more [⟨.plain, line ++ ['\n']⟩]) (fun m hm => ?_)
    fun _ _ => List.ne_nil_of_mem ((mem_ways_lineRest hline).2 rfl)
  · exact hways
  · rw [(mem_ways_lineRest hline).1 hm]
    exact ⟨(), rfl, outcome_eq_ended rfl rfl rfl⟩

/-- **What is left of a line is a record**, for the rules for records. -/
theorem next_recordRules (atStart : Bool) (hline : '\n' ∉ line) :
    next recordRules ⟨atStart, line ++ '\n' :: more⟩ = some (ended more [record line]) := by
  rw [recordRules, next_cons, next_cons, next_cons, head?_outcomes_marked (by decide) hline,
    head?_outcomes_marked (by decide) hline, head?_outcomes_plain hline, Option.some_or, record,
    cutStart?, cutStart?]
  split
  · rfl
  · split <;> rfl

/-! ### Headings -/

/-- A heading is told by its first character. -/
theorem eq_of_head?_headings :
    ∀ h ∈ headings, ∀ h' ∈ headings, h.head? = h'.head? → h = h' := by decide

theorem ne_nil_of_mem_headings : ∀ h ∈ headings, h ≠ [] := by decide

theorem heading?_eq_some_iff :
    heading? line = some ss ↔
      ∃ h ∈ headings, ∃ u, line = h ++ u ∧ ss = [⟨.heading, h⟩, ⟨.heading, u ++ ['\n']⟩] := by
  rw [heading?, Option.map_eq_some_iff]
  constructor
  · rintro ⟨h, hfind, rfl⟩
    have hbegins : h <+: line := by simpa using List.find?_some hfind
    obtain ⟨u, rfl⟩ := hbegins
    exact ⟨h, List.mem_of_find?_eq_some hfind, u, rfl, by simp⟩
  · rintro ⟨h, hmem, u, rfl, rfl⟩
    obtain ⟨h', hfind⟩ := Option.isSome_iff_exists.1 ((List.find?_isSome
      (p := fun h' : Text => h'.isPrefixOf (h ++ u))).2
        ⟨h, hmem, List.isPrefixOf_iff_prefix.2 (List.prefix_append h u)⟩)
    have hbegins : h' <+: h ++ u := by simpa using List.find?_some hfind
    have hmem' := List.mem_of_find?_eq_some hfind
    -- both are beginnings of the line, so they have one first character
    have hhead : ∀ g ∈ headings, g <+: h ++ u → g.head? = (h ++ u).head? := by
      rintro g hg ⟨v, hv⟩
      rw [← hv, List.head?_append_of_ne_nil _ (ne_nil_of_mem_headings g hg)]
    obtain rfl : h' = h := eq_of_head?_headings h' hmem' h hmem
      ((hhead h' hmem' hbegins).trans (hhead h hmem (List.prefix_append h u)).symm)
    exact ⟨h', hfind, by simp⟩

theorem head?_outcomes_heading (hline : '\n' ∉ line) :
    (headingRule.outcomes ⟨true, line ++ '\n' :: more⟩).head? = (heading? line).map (ended more) := by
  have htakes : (Pattern.either (.word "Diff Comparison".toList)
      (.either (.word "JSON Comparison:".toList) (.word "Statistics:".toList))).Takes
        (· ∈ headings) :=
    ((Takes.word (by decide)).either ((Takes.word (by decide)).either (Takes.word (by decide)))).congr
      fun u => by simp [headings]
  refine Rule.head?_outcomes_lineStart (fun m hm => ?_) fun ss hss => ?_
  · rw [htakes.mem_ways_group_append] at hm
    obtain ⟨h, u, hmem, rfl, y, hy, rfl⟩ := hm
    have hu : '\n' ∉ u := fun hmem => hline (List.mem_append_right _ hmem)
    rw [(mem_ways_group_lineRest hu).1 hy]
    have htokens : ([⟨.heading, h⟩, ⟨.heading, u ++ ['\n']⟩] : List Span).map Span.token =
        pieces .heading h ++ (pieces .heading (u ++ ['\n']) ++ []) := by
      rw [pieces_of_ne_nil (ne_nil_of_mem_headings h hmem), pieces_of_ne_nil (by simp)]
      rfl
    exact ⟨_, heading?_eq_some_iff.2 ⟨h, hmem, u, rfl, rfl⟩,
      outcome_eq_ended (List.append_assoc ..).symm rfl htokens.symm⟩
  · obtain ⟨h, hmem, u, rfl, rfl⟩ := heading?_eq_some_iff.1 hss
    have hu : '\n' ∉ u := fun hmem => hline (List.mem_append_right _ hmem)
    exact htakes.ways_group_append_ne_nil hmem rfl
      (List.ne_nil_of_mem ((mem_ways_group_lineRest hu).2 rfl))

/-! ### Lines of one form -/

theorem head?_outcomes_sides (hline : '\n' ∉ line) :
    (sidesRule.outcomes ⟨true, line ++ '\n' :: more⟩).head? = (sides? line).map (ended more) := by
  have htakes := Takes.word (w := "OLD (Left) | NEW (Right)".toList) (by decide)
  refine Rule.head?_outcomes_lineStart (fun m hm => ?_) fun ss hss => ?_
  · rw [htakes.mem_ways_group_append] at hm
    obtain ⟨_, v, rfl, rfl, y, hy, rfl⟩ := hm
    obtain ⟨rfl, rfl⟩ := (mem_ways_group_lineFeed fun h => hline (List.mem_append_right _ h)).1 hy
    exact ⟨_, if_pos (List.append_nil _), outcome_eq_ended rfl rfl rfl⟩
  · unfold sides? at hss
    split at hss
    · rename_i hsides
      exact htakes.ways_group_append_ne_nil rfl (hsides.trans (List.append_nil _).symm)
        (List.ne_nil_of_mem ((mem_ways_group_lineFeed List.not_mem_nil).2 ⟨rfl, rfl⟩))
    · cases hss

theorem ruling?_eq_some_iff :
    ruling? line = some ss ↔ (10 ≤ line.length ∧ ∀ c ∈ line, (c == '=' || c == '-') = true) ∧
      ss = [⟨.frame, line ++ ['\n']⟩] := by
  rw [ruling?, Option.ite_none_right_eq_some, List.all_eq_true, Option.some_inj, eq_comm (a := ss)]

theorem head?_outcomes_ruling (hline : '\n' ∉ line) :
    (rulingRule.outcomes ⟨true, line ++ '\n' :: more⟩).head? = (ruling? line).map (ended more) := by
  have htakes := Takes.run (n := 10) (f := fun c => c == '=' || c == '-') (by decide)
  refine Rule.head?_outcomes_lineStart (fun m hm => ?_) fun ss hss => ?_
  · rw [htakes.mem_ways_append] at hm
    obtain ⟨u, v, hu, rfl, y, hy, rfl⟩ := hm
    obtain ⟨rfl, rfl⟩ := (mem_ways_lineFeed fun h => hline (List.mem_append_right _ h)).1 hy
    rw [List.append_nil]
    exact ⟨_, ruling?_eq_some_iff.2 ⟨hu, rfl⟩, outcome_eq_ended rfl rfl rfl⟩
  · obtain ⟨hruling, -⟩ := ruling?_eq_some_iff.1 hss
    exact htakes.ways_append_ne_nil hruling (List.append_nil _).symm
      (List.ne_nil_of_mem ((mem_ways_lineFeed List.not_mem_nil).2 ⟨rfl, rfl⟩))

theorem head?_outcomes_omission (hline : '\n' ∉ line) :
    (omissionRule.outcomes ⟨true, line ++ '\n' :: more⟩).head? =
      (omission? line).map (ended more) := by
  have hdots : '\n' ∉ ['.', '.', '.'] := by decide
  have hmark : ∀ rest, line ++ '\n' :: more = ['.', '.', '.', '\n'] ++ rest ↔
      line = ['.', '.', '.'] ∧ more = rest := fun rest => Text.append_mark_inj hline hdots
  refine Rule.head?_outcomes_lineStart (fun m hm => ?_) fun ss hss => ?_
  · rw [mem_ways_word] at hm
    obtain ⟨rest, hrest, rfl⟩ := hm
    obtain ⟨rfl, rfl⟩ := (hmark rest).1 hrest
    exact ⟨_, if_pos rfl, outcome_eq_ended (u := ['.', '.', '.']) rfl rfl rfl⟩
  · unfold omission? at hss
    split at hss
    · rename_i hdots
      exact List.ne_nil_of_mem (mem_ways_word.2 ⟨more, (hmark more).2 ⟨hdots, rfl⟩, rfl⟩)
    · cases hss

/-! ### Statistics -/

/-- A label is a word behind another, or one certain word. -/
theorem isLabel_iff :
    isLabel t = true ↔ (∃ a b, a = "Lines ".toList ∧
      (1 ≤ b.length ∧ ∀ c ∈ b, Text.isWordChar c = true) ∧ t = a ++ b) ∨
        t = "Similarity".toList := by
  have hword : ((cutStart? "Lines ".toList t).any fun word => !word.isEmpty &&
      word.all Text.isWordChar) = true ↔ ∃ a b, a = "Lines ".toList ∧
        (1 ≤ b.length ∧ ∀ c ∈ b, Text.isWordChar c = true) ∧ t = a ++ b := by
    rw [Option.any_eq_true]
    simp only [cutStart?_eq_some_iff, Bool.and_eq_true, List.all_eq_true, Bool.not_eq_true',
      List.isEmpty_eq_false_iff, ← List.length_pos_iff]
    constructor
    · rintro ⟨b, ht, hb⟩
      exact ⟨_, b, rfl, hb, ht⟩
    · rintro ⟨_, b, rfl, hb, ht⟩
      exact ⟨b, ht, hb⟩
  rw [isLabel, Bool.or_eq_true, beq_iff_eq, hword, or_comm]

/-- An amount is a number or a percentage. -/
theorem isAmount_iff :
    isAmount t = true ↔ ∃ a b, (1 ≤ a.length ∧ ∀ c ∈ a, Text.isDecimal c = true) ∧
      (b = ['%'] ∨ b = []) ∧ t = a ++ b := by
  rw [isAmount, Bool.and_eq_true, Bool.or_eq_true, decide_eq_true_iff, List.isEmpty_iff, beq_iff_eq,
    or_comm]
  constructor
  · rintro ⟨hlength, hrest⟩
    obtain ⟨ht, hdigits, -⟩ := run_iff.1
      (⟨rfl, rfl⟩ : t.takeWhile Text.isDecimal = _ ∧ t.dropWhile Text.isDecimal = _)
    have hsum := congrArg List.length ht
    rw [List.length_append] at hsum
    exact ⟨_, _, ⟨by omega, hdigits⟩, hrest, ht⟩
  · rintro ⟨a, b, ⟨hpos, ha⟩, hb, rfl⟩
    have hstop : ∀ c ∈ b.head?, Text.isDecimal c = false := by
      rcases hb with rfl | rfl
      · simp only [List.head?_cons, Option.mem_some_iff, forall_eq']
        decide
      · simp
    rw [(run_iff.2 ⟨rfl, ha, hstop⟩).2, List.length_append]
    exact ⟨by omega, hb⟩

theorem not_colon_of_isLabel (h : isLabel t = true) : ':' ∉ t := by
  rcases isLabel_iff.1 h with ⟨_, b, rfl, ⟨-, hb⟩, rfl⟩ | rfl
  · intro hmem
    rcases List.mem_append.1 hmem with hmem | hmem
    · exact absurd hmem (by decide)
    · exact absurd (hb _ hmem) (by decide)
  · decide

/-- The spans of a statistic. -/
def statisticSpans (label gap amount : Text) : List Span :=
  [⟨.label, label⟩, ⟨.punctuation, [':']⟩] ++ (if gap.isEmpty then [] else [⟨.blank, gap⟩]) ++
    [⟨.number, amount⟩, ⟨.blank, ['\n']⟩]

theorem statistic?_eq_some_iff :
    statistic? line = some ss ↔ ∃ label gap amount, isLabel label = true ∧ IsSpaces gap ∧
      isAmount amount = true ∧ line = label ++ ':' :: (gap ++ amount) ∧
        ss = statisticSpans label gap amount := by
  rw [statistic?, Option.bind_eq_some_iff]
  constructor
  · rintro ⟨⟨label, after⟩, hcut, h⟩
    obtain ⟨-, rfl⟩ := Text.splitFirst_eq_some_iff.1 hcut
    dsimp only at h
    rw [Option.ite_none_right_eq_some, Bool.and_eq_true, Option.some_inj] at h
    obtain ⟨⟨hlabel, hamount⟩, rfl⟩ := h
    obtain ⟨hafter, hgap, -⟩ := run_iff.1
      (⟨rfl, rfl⟩ : after.takeWhile (· == ' ') = _ ∧ after.dropWhile (· == ' ') = _)
    exact ⟨label, _, _, hlabel, hgap, hamount, by rw [← hafter], by simp [statisticSpans]⟩
  · rintro ⟨label, gap, amount, hlabel, hgap, hamount, rfl, rfl⟩
    refine ⟨(label, gap ++ amount),
      Text.splitFirst_eq_some_iff.2 ⟨not_colon_of_isLabel hlabel, rfl⟩, ?_⟩
    have hdigit : ∀ c ∈ amount.head?, (c == ' ') = false := by
      obtain ⟨a, b, ⟨hpos, ha⟩, -, rfl⟩ := isAmount_iff.1 hamount
      exact IsDigits.head?_ne_space ha (List.ne_nil_of_length_pos hpos) b
    obtain ⟨htake, hdrop⟩ := run_iff.2 ⟨rfl, hgap, hdigit⟩
    dsimp only
    rw [htake, hdrop, hlabel, hamount]
    simp [statisticSpans]

/-- What the groups of a statistic take. -/
theorem map_token_statisticSpans {label gap amount : Text} (hlabel : isLabel label = true)
    (hamount : isAmount amount = true) :
    (statisticSpans label gap amount).map Span.token =
      pieces .label label ++ (pieces .punctuation [':'] ++ (pieces .blank gap ++
        (pieces .number amount ++ (pieces .blank ['\n'] ++ [])))) := by
  have hlabel' : label ≠ [] := by
    rintro rfl
    revert hlabel
    decide
  have hamount' : amount ≠ [] := by
    rintro rfl
    revert hamount
    decide
  rw [pieces_of_ne_nil hlabel', pieces_of_ne_nil hamount', pieces_of_ne_nil (List.cons_ne_nil _ _),
    pieces_of_ne_nil (List.cons_ne_nil _ _)]
  cases gap with
  | nil => rfl
  | cons c gap => rfl

theorem head?_outcomes_statistic (hline : '\n' ∉ line) :
    (statisticRule.outcomes ⟨true, line ++ '\n' :: more⟩).head? =
      (statistic? line).map (ended more) := by
  have hlabel : (Pattern.either (.word "Lines ".toList ++ .run 1 Text.isWordChar)
      (.word "Similarity".toList)).Takes (isLabel · = true) :=
    (((Takes.word (by decide)).append (Takes.run (by decide))).either (Takes.word (by decide))).congr
      fun u => isLabel_iff.symm
  have hcolon : (Pattern.word [':']).Takes (· = [':']) := Takes.word (by decide)
  have hgap : (Pattern.run 0 (· == ' ')).Takes IsSpaces :=
    (Takes.run (by decide)).congr fun u => and_iff_right (Nat.zero_le _)
  have hamount : (.run 1 Text.isDecimal ++ .optional (.word ['%']) : Pattern).Takes
      (isAmount · = true) :=
    ((Takes.run (by decide)).append (Takes.word (by decide)).optional).congr
      fun u => isAmount_iff.symm
  refine Rule.head?_outcomes_lineStart (fun m hm => ?_) fun ss hss => ?_
  · obtain ⟨label, v₁, hl, rfl, y₁, hy₁, rfl⟩ := hlabel.mem_ways_group_append.1 hm
    obtain ⟨_, v₂, rfl, rfl, y₂, hy₂, rfl⟩ := hcolon.mem_ways_group_append.1 hy₁
    obtain ⟨gap, v₃, hg, rfl, y₃, hy₃, rfl⟩ := hgap.mem_ways_group_append.1 hy₂
    obtain ⟨amount, v₄, ha, rfl, y₄, hy₄, rfl⟩ := hamount.mem_ways_group_append.1 hy₃
    have hv : '\n' ∉ v₄ := fun h => hline (by simp [h])
    obtain ⟨rfl, rfl⟩ := (mem_ways_group_lineFeed hv).1 hy₄
    exact ⟨_, statistic?_eq_some_iff.2 ⟨label, gap, amount, hl, hg, ha, by simp, rfl⟩,
      outcome_eq_ended (u := label ++ ':' :: (gap ++ amount)) (by simp) rfl
        (map_token_statisticSpans hl ha).symm⟩
  · obtain ⟨label, gap, amount, hl, hg, ha, rfl, rfl⟩ := statistic?_eq_some_iff.1 hss
    exact hlabel.ways_group_append_ne_nil hl rfl (hcolon.ways_group_append_ne_nil rfl rfl
      (hgap.ways_group_append_ne_nil hg rfl
        (hamount.ways_group_append_ne_nil ha (List.append_nil amount).symm
          (List.ne_nil_of_mem ((mem_ways_group_lineFeed List.not_mem_nil).2 ⟨rfl, rfl⟩)))))

/-! ### Fences -/

/-- A word at the beginning of a text if it is there, and what follows. -/
def cutOptional (w t : Text) : Text × Text :=
  match cutStart? w t with
  | some rest => (w, rest)
  | none => ([], t)

/-- A code fence and what follows it in its line. -/
def cutFence? (line : Text) : Option (Text × Text) :=
  (cutStart? "```".toList line).map fun rest =>
    ("```".toList ++ (cutOptional "diff".toList rest).1, (cutOptional "diff".toList rest).2)

theorem cutOptional_append (w t : Text) : (cutOptional w t).1 ++ (cutOptional w t).2 = t := by
  unfold cutOptional
  split
  · rename_i hcut
    exact (cutStart?_eq_some_iff.1 hcut).symm
  · rfl

theorem cutStart?_getD (w t : Text) : (cutStart? w t).getD t = (cutOptional w t).2 := by
  unfold cutOptional
  cases cutStart? w t <;> rfl

theorem cutFence?_append {x : Text × Text} (h : cutFence? line = some x) : line = x.1 ++ x.2 := by
  obtain ⟨rest, hcut, rfl⟩ := Option.map_eq_some_iff.1 h
  rw [List.append_assoc, cutOptional_append]
  exact cutStart?_eq_some_iff.1 hcut

/-- The spans of a line that begins with a fence. -/
def fenceSpans (x : Text × Text) : List Span :=
  if x.2.isEmpty then [⟨.frame, x.1 ++ ['\n']⟩] else [⟨.frame, x.1⟩, record x.2]

theorem fence?_eq (line : Text) : fence? line = (cutFence? line).map fenceSpans := by
  rw [fence?, cutFence?, Option.map_map]
  refine Option.map_congr fun rest hcut => ?_
  have hline := cutFence?_append (congrArg (Option.map _) hcut)
  have htake : line.take (line.length - (cutOptional "diff".toList rest).2.length) =
      "```".toList ++ (cutOptional "diff".toList rest).1 := by
    rw [hline, List.length_append, Nat.add_sub_cancel]
    exact List.take_left
  dsimp only
  rw [cutStart?_getD, htake]
  rfl

theorem head?_optional_lineFeed (hline : '\n' ∉ line) :
    ((Pattern.word ['\n']).optional.ways atStart (line ++ '\n' :: more)).head? =
      some (if line.isEmpty then ⟨['\n'], [], more⟩ else ⟨[], [], line ++ '\n' :: more⟩) := by
  rw [head?_ways_optional]
  cases line with
  | nil => rfl
  | cons c line =>
    have hnone : (Pattern.word ['\n']).ways atStart (c :: line ++ '\n' :: more) = [] :=
      List.eq_nil_iff_forall_not_mem.2 fun m hm => nomatch (mem_ways_lineFeed hline).1 hm
    rw [hnone]
    rfl

/-- A word that may be missing, as a group. -/
theorem head?_optional_group (hw : '\n' ∉ w) (i : Nat) (atStart : Bool) (line more : Text) :
    ∃ groups, ((Pattern.group i (.word w)).optional.ways atStart (line ++ '\n' :: more)).head? =
      some ⟨(cutOptional w line).1, groups, (cutOptional w line).2 ++ '\n' :: more⟩ := by
  rw [head?_ways_optional, head?_ways_group, cutOptional]
  cases hcut : cutStart? w line with
  | some rest =>
    obtain rfl := cutStart?_eq_some_iff.1 hcut
    rw [List.append_assoc, head?_ways_word]
    exact ⟨_, rfl⟩
  | none =>
    have hnone : (Pattern.word w).ways atStart (line ++ '\n' :: more) = [] := by
      refine List.eq_nil_iff_forall_not_mem.2 fun m hm => ?_
      obtain ⟨_, v, rfl, rfl, -⟩ := (Takes.word hw ..).1 hm
      rw [cutStart?_eq_some_iff.2 rfl] at hcut
      cases hcut
    rw [hnone]
    exact ⟨_, rfl⟩

/-- The step over what stands before the rest of a line, which is a part of it. -/
def broken (kind : Class) (more : Text) (x : Text × Text) : List Token × Place :=
  ([⟨some kind, x.1⟩], ⟨false, x.2 ++ '\n' :: more⟩)

/-- The step over a fence, which ends the line if nothing follows the fence. -/
def fenceStep (more : Text) (x : Text × Text) : List Token × Place :=
  if x.2.isEmpty then ended more (fenceSpans x) else broken .frame more x

theorem head?_outcomes_fence (hline : '\n' ∉ line) :
    (fenceRule.outcomes ⟨true, line ++ '\n' :: more⟩).head? =
      (cutFence? line).map (fenceStep more) := by
  have hways : fenceRule.pattern.ways true (line ++ '\n' :: more) = _ :=
    ways_lineStart_append_true _ _
  rw [Rule.outcomes, hways, List.head?_map]
  cases hfence : cutFence? line with
  | none =>
    rw [Option.map_none, Option.map_eq_none_iff, List.head?_eq_none_iff]
    refine List.eq_nil_iff_forall_not_mem.2 fun m hm => ?_
    obtain ⟨_, v, rfl, rfl, -⟩ := (Takes.word (by decide)).mem_ways_append.1 hm
    rw [cutFence?, cutStart?_eq_some_iff.2 rfl] at hfence
    cases hfence
  | some x =>
    obtain ⟨rest, hcut, rfl⟩ := Option.map_eq_some_iff.1 hfence
    obtain rfl := cutStart?_eq_some_iff.1 hcut
    rw [cutFence?_append hfence, List.mem_append, not_or] at hline
    obtain ⟨hbefore, hafter⟩ := hline
    obtain ⟨groups, hgroup⟩ := head?_optional_group (w := "diff".toList) (by decide) 1
      (startsLine true "```".toList) rest more
    rw [List.append_assoc, head?_ways_append (head?_ways_word "```".toList _)
      (head?_ways_append hgroup (head?_optional_lineFeed hafter))]
    refine congrArg some ?_
    by_cases hempty : (cutOptional "diff".toList rest).2.isEmpty = true
    · rw [fenceStep, fenceSpans, if_pos hempty, if_pos hempty, if_pos hempty]
      exact outcome_eq_ended (List.append_assoc ..).symm rfl rfl
    · have hstart := startsLine_of_not_mem true hbefore (by simp)
      rw [fenceStep, if_neg hempty, if_neg hempty, Rule.outcome, Match.append, Match.append,
        List.append_nil, hstart]
      rfl

/-! ### Number columns -/

/-- Spaces, digits and a mark are what a column takes. -/
theorem takes_column {mark : Text} (hmark : '\n' ∉ mark) :
    (column mark).Takes fun u =>
      ∃ spaces digits, IsSpaces spaces ∧ IsDigits digits ∧ u = spaces ++ digits ++ mark := by
  have hspaces : (Pattern.run 0 (· == ' ')).Takes IsSpaces :=
    (Takes.run (by decide)).congr fun u => and_iff_right (Nat.zero_le _)
  have hdigits : (Pattern.run 0 Text.isDecimal).Takes IsDigits :=
    (Takes.run (by decide)).congr fun u => and_iff_right (Nat.zero_le _)
  refine (hspaces.append (hdigits.append (Takes.word hmark))).congr fun u => ⟨?_, ?_⟩
  · rintro ⟨s, _, hs, ⟨d, _, hd, rfl, rfl⟩, rfl⟩
    exact ⟨s, d, hs, hd, (List.append_assoc ..).symm⟩
  · rintro ⟨s, d, hs, hd, rfl⟩
    exact ⟨s, d ++ mark, hs, ⟨d, mark, hd, rfl, rfl⟩, List.append_assoc ..⟩

/-- **A rule for columns** takes the columns that a line begins with, if there is one way to read
them. -/
theorem head?_outcomes_columns {columns : Pattern} {P : Text → Prop} {o : Option (Text × Text)}
    (hcolumns : columns.Takes P) (ho : ∀ u v, o = some (u, v) ↔ P u ∧ line = u ++ v)
    (hne : ¬P []) (hline : '\n' ∉ line) :
    (Rule.outcomes ⟨.lineStart ++ .group 1 columns, .whole .number⟩ ⟨true, line ++ '\n' :: more⟩).head? =
      o.map (broken .number more) := by
  refine Rule.head?_outcomes_lineStart (fun m hm => ?_) fun x hx => ?_
  · rw [mem_ways_group] at hm
    obtain ⟨y, hy, rfl⟩ := hm
    obtain ⟨u, v, hu, rfl, rfl⟩ := (hcolumns ..).1 hy
    have hfree : '\n' ∉ u := fun h => hline (List.mem_append_left _ h)
    have hstart := startsLine_of_not_mem true hfree fun h => hne (h ▸ hu)
    refine ⟨(u, v), (ho u v).2 ⟨hu, rfl⟩, ?_⟩
    rw [Rule.outcome, Match.inGroup, broken, tokens_whole, hstart]
  · obtain ⟨hu, rfl⟩ := (ho x.1 x.2).1 hx
    exact List.ne_nil_of_mem (mem_ways_group.2 ⟨_, (hcolumns ..).2 ⟨_, _, hu, rfl, rfl⟩, rfl⟩)

theorem head?_outcomes_splitColumns (hline : '\n' ∉ line) :
    (splitColumnsRule.outcomes ⟨true, line ++ '\n' :: more⟩).head? =
      (cutSplitColumns? line).map (broken .number more) := by
  have hbar : (column [' ', '|']).Takes IsBarColumn := takes_column (by decide)
  refine head?_outcomes_columns (P := IsSplitColumns)
    ((hbar.append (hbar.append (Takes.word (by decide)))).congr fun u => ⟨?_, ?_⟩)
    (fun u v => cutSplitColumns?_eq_some_iff) ?_ hline
  · rintro ⟨l, _, hl, ⟨r, _, hr, rfl, rfl⟩, rfl⟩
    exact ⟨l, r, hl, hr, (List.append_assoc ..).symm⟩
  · rintro ⟨l, r, hl, hr, rfl⟩
    exact ⟨l, r ++ [' '], hl, ⟨r, [' '], hr, rfl, rfl⟩, List.append_assoc ..⟩
  · rintro ⟨l, r, -, -, hnil⟩
    simp at hnil

theorem head?_outcomes_inlineColumn (hline : '\n' ∉ line) :
    (inlineColumnRule.outcomes ⟨true, line ++ '\n' :: more⟩).head? =
      (cutInlineColumn? line).map (broken .number more) := by
  refine head?_outcomes_columns (takes_column (by decide)) (fun u v => cutInlineColumn?_eq_some_iff)
    ?_ hline
  rintro ⟨s, d, -, -, hnil⟩
  simp at hnil

/-! ### Lines and texts -/

/-- Within a line the rules for the start of a line find nothing. -/
theorem next_rules_false (t : Text) : next rules ⟨false, t⟩ = next recordRules ⟨false, t⟩ := rfl

theorem next_rules_nil : next rules ⟨true, []⟩ = none := rfl

/-- The steps over a line that is cut in two. -/
theorem steps_broken {kind : Class} {x : Text × Text} (hline : '\n' ∉ x.2)
    (h : next rules ⟨true, t⟩ = some (broken kind more x)) :
    Steps rules ⟨true, t⟩ (([⟨kind, x.1⟩, record x.2] : List Span).map Span.token) ⟨true, more⟩ :=
  (Steps.single h).trans (.single ((next_rules_false _).trans (next_recordRules false hline)))

/-- **The first step into a line.** -/
theorem next_rules (hline : '\n' ∉ line) :
    next rules ⟨true, line ++ '\n' :: more⟩ =
      ((heading? line).map (ended more)).or (((sides? line).map (ended more)).or
      (((ruling? line).map (ended more)).or (((cutFence? line).map (fenceStep more)).or
      (((statistic? line).map (ended more)).or (((omission? line).map (ended more)).or
      (((cutSplitColumns? line).map (broken .number more)).or
      (((cutInlineColumn? line).map (broken .number more)).or
        (some (ended more [record line]))))))))) := by
  rw [← next_recordRules true hline, ← head?_outcomes_heading hline,
    ← head?_outcomes_sides hline, ← head?_outcomes_ruling hline, ← head?_outcomes_fence hline,
    ← head?_outcomes_statistic hline, ← head?_outcomes_omission hline,
    ← head?_outcomes_splitColumns hline, ← head?_outcomes_inlineColumn hline]
  simp only [rules, List.cons_append, List.nil_append, next_cons]

/-- Whether some spans are those of a line, if its first step is the given one. -/
def Leads (line more : Text) (x : List Token × Place) (ss : List Span) : Prop :=
  next rules ⟨true, line ++ '\n' :: more⟩ = some x →
    Steps rules ⟨true, line ++ '\n' :: more⟩ (ss.map Span.token) ⟨true, more⟩

theorem rel_or {α β : Type} {r : α → β → Prop} {o o' : Option α} {s s' : Option β}
    (h : Option.Rel r o s) (h' : Option.Rel r o' s') : Option.Rel r (o.or o') (s.or s') := by
  cases h with
  | some h => exact .some h
  | none => exact h'

theorem exists_of_rel_some {α β : Type} {r : α → β → Prop} {o : Option α} {b : β}
    (h : Option.Rel r o (some b)) : ∃ a, o = some a ∧ r a b := by
  cases h with
  | some h => exact ⟨_, rfl, h⟩

theorem some_lineSpans (line : Text) :
    some (lineSpans line) = (heading? line).or ((sides? line).or ((ruling? line).or
      ((fence? line).or ((statistic? line).or ((omission? line).or
        ((numbered? line).or (some [record line]))))))) := by
  rw [lineSpans, ← Option.or_some]
  simp only [Option.or_assoc]

/-- A step that ends the line leads to its spans. -/
theorem rel_leads_ended (o : Option (List Span)) :
    Option.Rel (Leads line more) (o.map (ended more)) o := by
  cases o with
  | none => exact .none
  | some ss => exact .some Steps.single

/-- A step over the beginning of a line leads to a span and the record behind it. -/
theorem rel_leads_broken {kind : Class} {o : Option (Text × Text)}
    (hrest : ∀ x ∈ o, '\n' ∉ x.2) :
    Option.Rel (Leads line more) (o.map (broken kind more))
      (o.map fun x => [⟨kind, x.1⟩, record x.2]) := by
  cases o with
  | none => exact .none
  | some x => exact .some (steps_broken (hrest x rfl))

/-- **The rules cut a line into its spans.** -/
theorem steps_line (hline : '\n' ∉ line) :
    Steps rules ⟨true, line ++ '\n' :: more⟩ ((lineSpans line).map Span.token) ⟨true, more⟩ := by
  have hbehind : ∀ {u v : Text}, line = u ++ v → '\n' ∉ v := by
    rintro u v rfl h
    exact hline (List.mem_append_right _ h)
  have hfence : Option.Rel (Leads line more) ((cutFence? line).map (fenceStep more)) (fence? line) := by
    rw [fence?_eq]
    cases hcut : cutFence? line with
    | none => exact .none
    | some x =>
      refine .some ?_
      by_cases hempty : x.2.isEmpty = true
      · rw [fenceStep, if_pos hempty]
        exact Steps.single
      · rw [fenceStep, fenceSpans, if_neg hempty, if_neg hempty]
        exact steps_broken (hbehind (cutFence?_append hcut))
  have hnumbered : Option.Rel (Leads line more) (((cutSplitColumns? line).map (broken .number more)).or
      ((cutInlineColumn? line).map (broken .number more))) (numbered? line) := by
    rw [numbered?, Option.map_or]
    exact rel_or (rel_leads_broken fun x hx => hbehind (cutSplitColumns?_eq_some_iff.1 hx).2)
      (rel_leads_broken fun x hx => hbehind (cutInlineColumn?_eq_some_iff.1 hx).2)
  have hrel := rel_or (rel_leads_ended (heading? line)) <| rel_or (rel_leads_ended (sides? line)) <|
    rel_or (rel_leads_ended (ruling? line)) <| rel_or hfence <|
    rel_or (rel_leads_ended (statistic? line)) <| rel_or (rel_leads_ended (omission? line)) <|
    rel_or hnumbered (rel_leads_ended (some [record line]))
  rw [Option.or_assoc, Option.map_some, ← next_rules hline, ← some_lineSpans] at hrel
  obtain ⟨x, hx, hleads⟩ := exists_of_rel_some hrel
  exact hleads hx

/-- **The rules for reports go on.** -/
theorem goesOn_of_mem_rules : ∀ r ∈ rules, r.GoesOn := by
  have htiled : ∀ r ∈ rules, r.isTiled = true := by decide
  exact fun r hr => Rule.goesOn_of_isTiled (htiled r hr)

end Report
end Highlight
end Galley
