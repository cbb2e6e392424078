/-
# The lines of a report

A report is lines: those of its head, a line for every record that is shown and for every gap, and
those of its foot (`report_lines`).  Only the split layout without statistics leaves its last line,
the end of the fence, without a line feed.

The records of a comparison are made of the lines of the two texts, and their numbers are positive
(`Script.forall_mem`).  So if the texts have no carriage returns, no line of a report has a line end
in it (`not_mem_reportLines`).
-/

import Galley.Proofs.LineDiff.Lossless
import Galley.Proofs.LineDiff.Script
import Galley.Proofs.LineDiff.Unified

namespace Galley
namespace LineDiff

variable {o : Options} {r : Record} {rs : List Record} {s : Statistics} {line : Text}

/-! ### What a record is made of -/

/-- Whether a record is printed on one line, with numbers that are made of digits alone. -/
structure Record.Printable (r : Record) : Prop where
  isLine_content : Text.IsLine r.content
  oldLine_pos : ∀ n ∈ r.oldLine, 0 < n
  newLine_pos : ∀ n ∈ r.newLine, 0 < n

/-- **The records of a script** have the lines that it goes through, and numbers from where it
starts. -/
theorem Script.forall_mem {i j : Int} {old new : List KeyedLine} (h : Script i j old new rs) :
    ∀ r ∈ rs, (r.content ∈ old.map KeyedLine.text ∨ r.content ∈ new.map KeyedLine.text) ∧
      (∀ n ∈ r.oldLine, i ≤ n) ∧ ∀ n ∈ r.newLine, j ≤ n := by
  induction h with
  | done i j => simp
  | unchanged hkey h ih =>
    refine List.forall_mem_cons.2 ⟨by simp [Record.unchanged], fun r hr => ?_⟩
    obtain ⟨hcontent, hold, hnew⟩ := ih r hr
    exact ⟨hcontent.imp (List.mem_cons_of_mem _) (List.mem_cons_of_mem _),
      fun n hn => Int.le_of_lt (hold n hn), fun n hn => Int.le_of_lt (hnew n hn)⟩
  | removed h ih =>
    refine List.forall_mem_cons.2 ⟨by simp [Record.removed], fun r hr => ?_⟩
    obtain ⟨hcontent, hold, hnew⟩ := ih r hr
    exact ⟨hcontent.imp_left (List.mem_cons_of_mem _), fun n hn => Int.le_of_lt (hold n hn), hnew⟩
  | added h ih =>
    refine List.forall_mem_cons.2 ⟨by simp [Record.added], fun r hr => ?_⟩
    obtain ⟨hcontent, hold, hnew⟩ := ih r hr
    exact ⟨hcontent.imp_right (List.mem_cons_of_mem _), hold, fun n hn => Int.le_of_lt (hnew n hn)⟩

/-- **The records of two texts without carriage returns** are printed on one line each. -/
theorem printable_records (o : Options) {old new : Text} (hold : '\r' ∉ old) (hnew : '\r' ∉ new) :
    ∀ r ∈ records o (Text.splitLines old) (Text.splitLines new), r.Printable := by
  intro r hr
  obtain ⟨hcontent, holdLine, hnewLine⟩ := (script_records o _ _).2.forall_mem r hr
  rw [map_text_keyed, map_text_keyed] at hcontent
  refine ⟨?_, holdLine, hnewLine⟩
  exact hcontent.elim (Text.isLine_of_mem_splitLines · hold) (Text.isLine_of_mem_splitLines · hnew)

/-! ### Lines of a report -/

/-- The lines before the records. -/
def headLines (o : Options) : List Text :=
  ["Diff Comparison (".toList ++ o.layout.name ++ ")".toList, List.replicate 50 '='] ++
    match o.layout with
    | .split => ["```diff".toList, "OLD (Left) | NEW (Right)".toList, List.replicate 40 '-']
    | _ => []

/-- The lines of the records. -/
def recordLines (o : Options) (rs : List Record) : List Text :=
  match o.layout with
  | .unified => unifiedLines o rs
  | .split => rs.map (splitLine o)
  | .inline => rs.map (inlineLine o)

/-- The lines of the statistics. -/
def Statistics.lines (s : Statistics) : List Text :=
  ["Statistics:".toList, List.replicate 20 '=',
    "Lines Added".toList ++ ": ".toList ++ Text.ofNat s.added,
    "Lines Deleted".toList ++ ": ".toList ++ Text.ofNat s.deleted,
    "Lines Modified".toList ++ ": ".toList ++ Text.ofNat s.modified,
    "Lines Unchanged".toList ++ ": ".toList ++ Text.ofNat s.unchanged,
    "Similarity".toList ++ ": ".toList ++ (Text.ofInt s.similarity ++ ['%'])]

/-- The lines after the records: an empty one more where the layout has ended its last line. -/
def footLines (o : Options) (s : Statistics) : List Text :=
  match o.layout, o.showStatistics with
  | .split, true => ["```".toList, []] ++ s.lines
  | .split, false => ["```".toList]
  | _, true => [[], []] ++ s.lines
  | _, false => []

/-- The lines of a report. -/
def reportLines (o : Options) (rs : List Record) (s : Statistics) : List Text :=
  headLines o ++ recordLines o rs ++ footLines o s

/-- Whether a report ends its last line. -/
def endsLine (o : Options) : Bool := o.layout != .split || o.showStatistics

theorem block_eq (s : Statistics) : s.block = Text.unlines ([[], []] ++ s.lines) := by
  have hhead : "\n\nStatistics:\n".toList = ['\n'] ++ (['\n'] ++ ("Statistics:".toList ++ ['\n'])) :=
    rfl
  unfold Statistics.block Statistics.lines
  simp only [Statistics.line, hhead, Text.unlines, List.map_append, List.map_cons, List.map_nil,
    List.flatten_append, List.flatten_cons, List.flatten_nil, List.nil_append, List.append_assoc,
    List.append_nil]

theorem unlines_append (ls ls' : List Text) :
    Text.unlines (ls ++ ls') = Text.unlines ls ++ Text.unlines ls' := by
  rw [Text.unlines, List.map_append, List.flatten_append]
  rfl

/-- **A report is its lines.** -/
theorem report_lines (o : Options) (rs : List Record) (s : Statistics) :
    report o rs s ++ (if endsLine o then [] else ['\n']) = Text.unlines (reportLines o rs s) := by
  have hhead : "Diff Comparison (".toList ++ o.layout.name ++ ")\n".toList ++ List.replicate 50 '=' ++
      ['\n'] = Text.unlines ["Diff Comparison (".toList ++ o.layout.name ++ ")".toList,
        List.replicate 50 '='] := by
    have hclose : ")\n".toList = ")".toList ++ ['\n'] := rfl
    simp only [hclose, Text.unlines, List.map_cons, List.map_nil, List.flatten_cons,
      List.flatten_nil, List.append_assoc, List.append_nil]
  unfold report
  rw [hhead, reportLines, headLines, unlines_append, unlines_append, unlines_append, block_eq]
  cases hlayout : o.layout <;> cases hstatistics : o.showStatistics
  all_goals
    simp only [endsLine, layOut, recordLines, footLines, unified, split, inline, hlayout, hstatistics,
      unlines_append, List.append_assoc, if_true, Bool.or_true, List.append_nil]
    rfl

/-! ### No line has a line end in it -/

theorem isLine_numberColumn (n : Option Int) : Text.IsLine (numberColumn n) := by
  have hends : ¬InColumn '\n' ∧ ¬InColumn '\r' := by decide
  exact fun c hc =>
    ⟨fun h => hends.1 (h ▸ inColumn_of_mem hc), fun h => hends.2 (h ▸ inColumn_of_mem hc)⟩

theorem isLine_marked (h : Text.IsLine r.content) : Text.IsLine r.marked := by
  have hmark : Text.IsLine r.fate.mark := by cases r.fate <;> decide
  exact hmark.append h

theorem isLine_splitLine (h : Text.IsLine r.content) : Text.IsLine (splitLine o r) := by
  have hbar : Text.IsLine " | ".toList := by decide
  rw [splitLine]
  split
  · exact (((isLine_numberColumn _).append hbar |>.append (isLine_numberColumn _)).append hbar).append
      (isLine_marked h)
  · exact isLine_marked h

theorem isLine_inlineLine (h : Text.IsLine r.content) : Text.IsLine (inlineLine o r) := by
  have hcolon : Text.IsLine ": ".toList := by decide
  rw [inlineLine]
  split
  · exact ((isLine_numberColumn _).append hcolon).append (isLine_marked h)
  · exact isLine_marked h

/-- **A line of the unified layout** is a gap mark or a record behind its mark. -/
theorem of_mem_unifiedLines (h : line ∈ unifiedLines o rs) :
    line = gapMark ∨ ∃ r ∈ rs, line = r.marked := by
  by_cases hchanged : ∃ r ∈ rs, r.isChanged = true
  · obtain ⟨ss, hss⟩ := exists_isCut (fun i => decide (Near o.contextLines rs i)) rs.zipIdx
    rw [unifiedLines_eq hchanged hss, List.mem_flatMap] at h
    obtain ⟨s, hs, hline⟩ := h
    unfold Stretch.lines at hline
    split at hline
    · obtain ⟨x, hx, rfl⟩ := List.mem_map.1 hline
      have hmem : x ∈ rs.zipIdx := hss.records_eq ▸ List.mem_flatMap_of_mem hs hx
      exact Or.inr ⟨x.1, List.fst_mem_of_mem_zipIdx hmem, rfl⟩
    · exact Or.inl (List.mem_singleton.1 hline)
  · rw [unifiedLines, if_neg (by simpa using hchanged)] at h
    cases h

theorem marked_ne_nil (r : Record) : r.marked ≠ [] := by
  cases h : r.fate <;> simp [Record.marked, Fate.mark, h]

/-- **A line of a record** is without line ends, and it is not empty. -/
theorem of_mem_recordLines (hrs : ∀ r ∈ rs, r.Printable) :
    ∀ line ∈ recordLines o rs, Text.IsLine line ∧ line ≠ [] := by
  intro line hline
  unfold recordLines at hline
  split at hline
  · rcases of_mem_unifiedLines hline with rfl | ⟨r, hr, rfl⟩
    · decide
    · exact ⟨isLine_marked (hrs r hr).isLine_content, marked_ne_nil r⟩
  · obtain ⟨r, hr, rfl⟩ := List.mem_map.1 hline
    exact ⟨isLine_splitLine (hrs r hr).isLine_content,
      List.append_ne_nil_of_right_ne_nil _ (marked_ne_nil r)⟩
  · obtain ⟨r, hr, rfl⟩ := List.mem_map.1 hline
    exact ⟨isLine_inlineLine (hrs r hr).isLine_content,
      List.append_ne_nil_of_right_ne_nil _ (marked_ne_nil r)⟩

theorem of_mem_headLines : ∀ line ∈ headLines o, Text.IsLine line ∧ line ≠ [] := by
  unfold headLines
  cases o.layout <;> decide

theorem isLine_ofNat (n : Nat) : Text.IsLine (Text.ofNat n) := by
  intro c hc
  have hdigit := Text.isDigit_of_mem_ofNat hc
  constructor <;> (rintro rfl; cases hdigit)

theorem isLine_ofInt (i : Int) : Text.IsLine (Text.ofInt i) := by
  cases i with
  | ofNat n => exact isLine_ofNat n
  | negSucc n => exact List.forall_mem_cons.2 ⟨by decide, isLine_ofNat _⟩

theorem isLine_statistics : ∀ line ∈ s.lines, Text.IsLine line := by
  have hcount (label : Text) (n : Nat) (h : Text.IsLine (label ++ ": ".toList)) :
      Text.IsLine (label ++ ": ".toList ++ Text.ofNat n) := h.append (isLine_ofNat n)
  have hshare : Text.IsLine ("Similarity".toList ++ ": ".toList ++
      (Text.ofInt s.similarity ++ ['%'])) :=
    Text.IsLine.append (by decide) ((isLine_ofInt _).append (by decide))
  unfold Statistics.lines
  simp only [List.forall_mem_cons]
  exact ⟨by decide, by decide, hcount _ _ (by decide), hcount _ _ (by decide),
    hcount _ _ (by decide), hcount _ _ (by decide), hshare, nofun⟩

theorem isLine_footLines : ∀ line ∈ footLines o s, Text.IsLine line := by
  unfold footLines
  split
  · exact List.forall_mem_append.2 ⟨by decide, isLine_statistics⟩
  · decide
  · exact List.forall_mem_append.2 ⟨by decide, isLine_statistics⟩
  · exact nofun

/-- **No line of a report has a line end in it.** -/
theorem isLine_reportLines (hrs : ∀ r ∈ rs, r.Printable) :
    ∀ line ∈ reportLines o rs s, Text.IsLine line :=
  List.forall_mem_append.2 ⟨List.forall_mem_append.2
    ⟨fun line h => (of_mem_headLines line h).1, fun line h => (of_mem_recordLines hrs line h).1⟩,
    isLine_footLines⟩

theorem getLast?_footLines_ne_nil : ∀ line ∈ (footLines o s).getLast?, line ≠ [] := by
  have hshare : ∀ line ∈ s.lines.getLast?, line ≠ [] := by simp [Statistics.lines]
  unfold footLines
  split
  · rwa [List.getLast?_append_of_ne_nil _ (by simp [Statistics.lines])]
  · decide
  · rwa [List.getLast?_append_of_ne_nil _ (by simp [Statistics.lines])]
  · exact nofun

/-- **The last line of a report is not empty.** -/
theorem exists_reportLines_eq (hrs : ∀ r ∈ rs, r.Printable) :
    ∃ init last, reportLines o rs s = init ++ [last] ∧ last ≠ [] := by
  have hfull : ∀ line ∈ headLines o ++ recordLines o rs, line ≠ [] := List.forall_mem_append.2
    ⟨fun line h => (of_mem_headLines line h).2, fun line h => (of_mem_recordLines hrs line h).2⟩
  have hne : headLines o ++ recordLines o rs ≠ [] := by simp [headLines]
  have hlast : ∀ line ∈ (reportLines o rs s).getLast?, line ≠ [] := by
    rw [reportLines, List.getLast?_append]
    cases hfoot : (footLines o s).getLast? with
    | none => exact fun line h => hfull line (List.mem_of_getLast? h)
    | some last =>
      have hlast := getLast?_footLines_ne_nil (o := o) (s := s)
      rwa [hfoot] at hlast
  have hlines : reportLines o rs s ≠ [] := List.append_ne_nil_of_left_ne_nil hne _
  obtain ⟨init, last, h⟩ := (List.eq_nil_or_concat' _).resolve_left hlines
  exact ⟨init, last, h, hlast last (by rw [h, List.getLast?_concat]; rfl)⟩

end LineDiff
end Galley
