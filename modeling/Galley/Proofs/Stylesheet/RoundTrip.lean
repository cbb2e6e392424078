/-
# Printed trees are read back

`eraseAll_rulesOf` says of every well-formed tree and of every text that spells it that the
parser returns the tree, up to the places of the rules.  Both printers spell the normal form of a
tree, and every parsed tree is well formed, so

| printer | statement |
| --- | --- |
| compact text | `eraseAll_rulesOf_minify` |
| text on lines | `eraseAll_rulesOf_beautify` |

hold under all options.  The induction is on the tree; what makes it go through is
that a rule is read back in front of any pieces (`ReadBack`).
-/

import Galley.Proofs.Stylesheet.Layout
import Galley.Proofs.Stylesheet.Reading
import Galley.Stylesheet.Format

namespace Galley
namespace Stylesheet

variable {body : Declaration → Text} {inner : Bool} {qs : List Text} {ts : List Token}

/-! ### One rule -/

/-- Whether the pieces of some rules are read back, in front of any pieces, as rules that differ in
their places only. -/
def ReadBack (body : Declaration → Text) (inner : Bool) (rs : List Rule) : Prop :=
  ∀ qs ts, Scans (Rule.piecesAll body rs ++ qs) ts →
    ∃ rs' ts', Begins inner ts rs' ts' ∧ Rule.eraseAll rs' = Rule.eraseAll rs ∧ Scans qs ts'

/-- **The inside of a block is read back** if its children are. -/
theorem ReadBack.inside {ds : List Declaration} {children : List Rule}
    (hc : ReadBack body true children) (hbody : IsBody body) (hds : ∀ d ∈ ds, d.WellFormed)
    (h : Scans (ds.flatMap (Declaration.pieces body) ++
      (Rule.piecesAll body children ++ (['}'] :: qs))) ts) :
    ∃ rs, (block ts).1.value = ⟨ds, rs⟩ ∧ Rule.eraseAll rs = Rule.eraseAll children ∧
      Scans qs (block ts).1.rest := by
  obtain ⟨us, hbegins, hus⟩ := BlockBegins.of_scans hbody hds h
  obtain ⟨rs, vs, hbegins', herase, hvs⟩ := hc _ us hus
  obtain ⟨hvalue, hrest⟩ := hvs.close
  have hall := hbegins.trans hbegins'
  refine ⟨rs, ?_, herase, hall.rest ▸ hrest⟩
  have hd : (block ts).1.value.declarations = ds := by
    rw [hall.declarations, hvalue]
    simp [Block.empty]
  have hr : (block ts).1.value.rules = rs := by
    rw [hall.rules, hvalue]
    simp [Block.empty]
  rw [← hd, ← hr]

/-- A comment is read back. -/
theorem readBack_comment {t : Text} (p : Position) (ht : IsComment t) :
    ReadBack body inner [.comment t p] := by
  rintro qs _ ⟨q, u, hsp, rfl⟩
  obtain ⟨ws, v, hws, hv, rfl⟩ := hsp.exists_of_cons
  have hbegins : Begins inner (Token.scanFrom q (ws ++ (t ++ v))) [] _ := Begins.blanks hws q _
  rw [Token.scanFrom_comment ht] at hbegins
  refine ⟨_, _, hbegins.trans (Begins.comment rfl), ?_, _, v, hv, rfl⟩
  obtain ⟨b, rfl, -, hend⟩ := ht
  rw [Token.toComment, if_pos ((isClosedComment_cons b).2 hend)]
  rfl

/-- A statement is read back. -/
theorem readBack_statement {k pre : Text} (p : Position) (hk : IsKeyword k)
    (hpre : IsPhrase [';', '{', '}'] pre) : ReadBack body inner [.statement k pre p] := by
  intro qs ts h
  obtain ⟨q, us, hbegins, hus⟩ := h.keyword inner hk (by decide)
  obtain ⟨q', rest, hread, hrest⟩ := hus.read hpre (by decide) (by simp)
  have hrule : (atRule ⟨.atKeyword, k, q⟩ us).1 = ⟨.statement k pre q, [], [], rest⟩ := by
    rw [atRule_statement (by rw [preludePhrase, hread]; rfl), preludePhrase, hread]
    rfl
  have hone : Begins inner (⟨.atKeyword, k, q⟩ :: us) [.statement k pre q] rest := by
    have h := @Begins.atRule inner ⟨.atKeyword, k, q⟩ us rfl (by rw [hrule])
    rwa [hrule] at h
  exact ⟨_, rest, hbegins.trans hone, rfl, hrest⟩

/-- A group is read back if its children are. -/
theorem readBack_group {k pre : Text} {ds : List Declaration} {children : List Rule} (p : Position)
    (hbody : IsBody body) (hk : IsKeyword k) (hpre : IsPhrase [';', '{', '}'] pre)
    (hds : ∀ d ∈ ds, d.WellFormed) (hc : ReadBack body true children) :
    ReadBack body inner [.group k pre ds children p] := by
  intro qs ts h
  obtain ⟨q, us, hbegins, hus⟩ := h.keyword inner hk (by decide)
  obtain ⟨q', rest, hread, hrest⟩ := hus.read hpre (by decide) (by simp)
  obtain ⟨rs, hvalue, herase, hqs⟩ := hc.inside hbody hds (by simpa using hrest)
  have hrule : (atRule ⟨.atKeyword, k, q⟩ us).1 =
      ⟨.group k pre ds rs q, [], (block rest).1.notes, (block rest).1.rest⟩ := by
    have hr : (preludePhrase us).rest = ⟨.punctuation, ['{'], q'⟩ :: rest := by
      rw [preludePhrase, hread]
    rw [atRule_group hr rfl, preludePhrase, hread, hvalue]
    rfl
  have hone : Begins inner (⟨.atKeyword, k, q⟩ :: us) [.group k pre ds rs q]
      (block rest).1.rest := by
    have h := @Begins.atRule inner ⟨.atKeyword, k, q⟩ us rfl (by rw [hrule])
    rwa [hrule] at h
  refine ⟨_, _, hbegins.trans hone, ?_, hqs⟩
  simp [Rule.eraseAll, Rule.erase, herase]

/-- A style rule is read back if its children are. -/
theorem readBack_style {s : Text} {ds : List Declaration} {children : List Rule} (p : Position)
    (hbody : IsBody body) (hs : IsSelector inner s) (hne : s = [] → ds ≠ [])
    (hds : ∀ d ∈ ds, d.WellFormed) (hc : ReadBack body true children) :
    ReadBack body inner [.style s ds children p] := by
  intro qs ts h
  obtain ⟨t, us, hbegins, hus, hitem, hrule⟩ :=
    h.item inner hs.phrase.tidy (by decide) hs.not_keyword (by simp [hs.not_stray])
  obtain ⟨q, rest, hread, hrest⟩ := hus.read hs.phrase (by decide) (by simp)
  obtain ⟨rs, hvalue, herase, hqs⟩ := hc.inside hbody hds (by simpa using hrest)
  have hshell : isShell s (block rest).1.value = false := by
    rw [hvalue, Bool.eq_false_iff, ne_eq, Bool.and_eq_true, List.isEmpty_iff, List.isEmpty_iff]
    exact fun ⟨hs, hds⟩ => hne hs hds
  have hr : (selectorPhrase (t :: us)).rest = ⟨.punctuation, ['{'], q⟩ :: rest := by
    rw [selectorPhrase, hread]
  have htext : (selectorPhrase (t :: us)).text = s := by rw [selectorPhrase, hread]
  have hkept := styleRule_kept hr (by rwa [htext])
  rw [htext, hvalue, selectorPhrase, hread] at hkept
  have hopens : inner = true → opensBlock (t :: us) = true := by
    intro hi
    have hinside : IsPhrase [';', '{', '}'] s := by
      refine ⟨hs.phrase.tidy, fun c hc hm => ?_⟩
      have hopen := hs.phrase.free c hc
      have hend := hs.inside hi c hc
      simp only [List.mem_cons] at hm hopen hend
      tauto
    obtain ⟨q', us', hread', -⟩ := hus.read hinside (by decide) (by simp)
    have hstops : ∀ c ∈ ['{', ';', '}'], c ∈ [';', '{', '}'] := by simp
    rw [opensBlock_rest_read hus.lexed hstops, hread']
    exact opensBlock_open rfl
  have hone : Begins inner (t :: us) [.style s ds rs t.position] (block rest).1.rest := by
    have h := Begins.styleRule hitem hrule hopens (by rw [hkept]) (by rw [hkept])
    rwa [hkept] at h
  refine ⟨_, _, hbegins.trans hone, ?_, hqs⟩
  simp [Rule.eraseAll, Rule.erase, herase]

/-! ### Trees -/

/-- **A well-formed tree is read back** from its pieces. -/
theorem readBack {rs : List Rule} (hbody : IsBody body) (hrs : Rule.AllWellFormed inner rs) :
    ReadBack body inner rs := by
  -- a list of rules, from its first rule and the others
  have cons : ∀ inner r rs, ReadBack body inner [r] → ReadBack body inner rs →
      ReadBack body inner (r :: rs) := by
    intro inner r rs hr hrs qs ts h
    rw [Rule.piecesAll, List.append_assoc] at h
    obtain ⟨rs', us, hbegins, herase, hus⟩ := hr _ ts (by simpa [Rule.piecesAll] using h)
    obtain ⟨rs'', vs, hbegins', herase', hvs⟩ := hrs qs us hus
    refine ⟨_, vs, hbegins.trans hbegins', ?_, hvs⟩
    rw [Rule.eraseAll_append, herase, herase', ← Rule.eraseAll_append]
    rfl
  induction rs using Rule.forest_induction generalizing inner with
  | nil => exact fun qs ts h => ⟨[], ts, Begins.refl, rfl, h⟩
  | comment t p rs ih => exact cons inner _ rs (readBack_comment p hrs.1) (ih hrs.2)
  | statement k pre p rs ih =>
    obtain ⟨⟨hk, hpre⟩, hrs⟩ := hrs
    exact cons inner _ rs (readBack_statement p hk hpre) (ih hrs)
  | group k pre ds children p rs ihc ih =>
    obtain ⟨⟨hk, hpre, hds, hc⟩, hrs⟩ := hrs
    exact cons inner _ rs (readBack_group p hbody hk hpre hds (ihc hc)) (ih hrs)
  | style s ds children p rs ihc ih =>
    obtain ⟨⟨hs, hne, hds, hc⟩, hrs⟩ := hrs
    exact cons inner _ rs (readBack_style p hbody hs hne hds (ihc hc)) (ih hrs)

/-- **Every text that spells a well-formed tree is read as the tree**, up to its places. -/
theorem eraseAll_rulesOf {rs : List Rule} {t : Text} (hbody : IsBody body)
    (hrs : Rule.AllWellFormed false rs) (h : Spaced (Rule.piecesAll body rs) t) :
    Rule.eraseAll (rulesOf t) = Rule.eraseAll rs := by
  have hscans : Scans (Rule.piecesAll body rs ++ []) (Token.scan t) := by
    rw [List.append_nil]
    exact ⟨.start, t, h, rfl⟩
  obtain ⟨rs', ts', hbegins, herase, p, ws, hws, rfl⟩ := readBack hbody hrs [] _ hscans
  have hend : parse (Token.scanFrom p (ws ++ [])) = parse (Token.scanFrom (p.advance ws) []) :=
    Token.scanFrom_blanks parse (fun _ _ h => parse_blank h) p hws.allBlank_of_nil []
  rw [List.append_nil, Token.scanFrom_nil, parse_nil] at hend
  have hparse : parse (Token.scan t) = rs' ++ parse (Token.scanFrom p ws) := hbegins
  rw [rulesOf, hparse, hend, List.append_nil, herase]

/-- What is read from a text is well formed. -/
theorem allWellFormed_rulesOf (s : Text) : Rule.AllWellFormed false (rulesOf s) :=
  wellFormed_parse (Lexed.scanFrom .start s)

/-! ### Printed trees -/

/-- **Compact text of a well-formed tree is read as its normal form.** -/
theorem eraseAll_rulesOf_minify {rs : List Rule} (hrs : Rule.AllWellFormed false rs)
    (o : Options) :
    Rule.eraseAll (rulesOf (minify rs o)) = Rule.eraseAll (Rule.normalAll o rs) := by
  have hnormal := Rule.allWellFormed_normalAll (o := o) false hrs
  rw [minify, ← minifyRules_normalAll]
  exact eraseAll_rulesOf isBody_compact hnormal (spaced_minifyRules o _)

/-- **Text on lines of a well-formed tree is read as its normal form.** -/
theorem eraseAll_rulesOf_beautify {rs : List Rule} (hrs : Rule.AllWellFormed false rs)
    (o : Options) :
    Rule.eraseAll (rulesOf (beautify rs o)) = Rule.eraseAll (Rule.normalAll o rs) := by
  have hnormal := Rule.allWellFormed_normalAll (o := o) false hrs
  rw [← beautify_normalAll]
  exact eraseAll_rulesOf isBody_spaced hnormal (spaced_beautify o hnormal)

/-- **Compact text is read back**: of every text, the parser returns the normal form of the tree
that was printed, up to the places of the rules. -/
theorem rulesOf_minify_rulesOf (s : Text) (o : Options) :
    Rule.eraseAll (rulesOf (minify (rulesOf s) o)) =
      Rule.eraseAll (Rule.normalAll o (rulesOf s)) :=
  eraseAll_rulesOf_minify (allWellFormed_rulesOf s) o

/-- **Text on lines is read back** in every layout: of every text, the parser returns the normal
form of the tree that was printed, up to the places of the rules. -/
theorem rulesOf_beautify_rulesOf (s : Text) (o : Options) :
    Rule.eraseAll (rulesOf (beautify (rulesOf s) o)) =
      Rule.eraseAll (Rule.normalAll o (rulesOf s)) :=
  eraseAll_rulesOf_beautify (allWellFormed_rulesOf s) o

end Stylesheet
end Galley
