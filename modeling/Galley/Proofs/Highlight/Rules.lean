/-
# Tokens by rules

A table of rules cuts a text into tokens.  At every place the rules are tried in their order, and the
first one whose pattern matches there takes its part of the text and gives it a class, the whole part
or group by group (`next`).  Where no rule matches one character is skipped: a line feed is blank, and
any other character has no class, which is how a table tells that a text is not one of its language.

Nothing keeps a rule from taking no character at all; it would be tried at the same place for ever.  So
the tokens of a text are those found within some number of steps, if there are such (`tokensWithin`).
A table all of whose rules go on (`Rule.GoesOn`) has the tokens of every text after as many steps
as the text has characters (`tokensWithin_of_steps`), and the tokens are the text
(`Steps.flatMap_text`).  That a rule goes on can be told from how it is written: its pattern takes
something, and its groups between them take all of it (`Rule.goesOn_of_isTiled`).
-/

import Galley.Highlight.Span
import Galley.Proofs.Highlight.Pattern
import Mathlib.Data.List.Basic

namespace Galley
namespace Highlight

/-- A piece of text with its class.  A character that no rule accounts for has none. -/
structure Token where
  kind : Option Class
  text : Text
  deriving DecidableEq, Repr

/-- A span as a token. -/
def Span.token (s : Span) : Token := ⟨some s.kind, s.text⟩

/-- A place in a text: whether a line starts there, and the text from there on. -/
structure Place where
  atStart : Bool
  rest : Text
  deriving DecidableEq, Repr

/-- The first place of a text. -/
def Place.start (t : Text) : Place := ⟨true, t⟩

/-- What becomes of the text that a rule takes: it is one token, or every group is one that takes
something. -/
inductive Action where
  | whole (kind : Class)
  | byGroups (kinds : List Class)

/-- A token of a text, unless the text is empty. -/
def pieces (kind : Class) (t : Text) : List Token := if t = [] then [] else [⟨some kind, t⟩]

/-- The tokens of a match. -/
def Action.tokens (m : Match) : Action → List Token
  | .whole kind => [⟨some kind, m.taken⟩]
  | .byGroups kinds => (kinds.zipIdx 1).flatMap fun x => pieces x.1 ((m.group? x.2).getD [])

/-- A pattern and what becomes of the text that it takes. -/
structure Rule where
  pattern : Pattern
  action : Action

/-- The tokens of a match at a place, and the place behind it. -/
def Rule.outcome (r : Rule) (p : Place) (m : Match) : List Token × Place :=
  (r.action.tokens m, ⟨startsLine p.atStart m.taken, m.rest⟩)

/-- What a rule finds at a place, for every way to match its pattern. -/
def Rule.outcomes (r : Rule) (p : Place) : List (List Token × Place) :=
  (r.pattern.ways p.atStart p.rest).map (r.outcome p)

/-- Skips a character that no rule matches, unless the text is at its end. -/
def skip (p : Place) : Option (List Token × Place) :=
  match p.rest with
  | [] => none
  | c :: t => some ([⟨if c = '\n' then some .blank else none, [c]⟩], ⟨c == '\n', t⟩)

/-- The next tokens at a place and the place behind them; nothing at the end of the text. -/
def next (rules : List Rule) (p : Place) : Option (List Token × Place) :=
  (rules.findSome? fun r => (r.outcomes p).head?).or (skip p)

/-- The tokens from a place on, if the end of the text is found in fewer than so many steps. -/
def tokensWithin (rules : List Rule) : Nat → Place → Option (List Token)
  | 0, _ => none
  | n + 1, p =>
    match next rules p with
    | none => some []
    | some (ts, q) => (tokensWithin rules n q).map (ts ++ ·)

/-- Some tokens, found in some steps from one place to another. -/
inductive Steps (rules : List Rule) : Place → List Token → Place → Prop where
  | done (p : Place) : Steps rules p [] p
  | step {p q r : Place} {ts us : List Token} (h : next rules p = some (ts, q))
      (hrest : Steps rules q us r) : Steps rules p (ts ++ us) r

/-- Whether a step from a place goes on: it takes something, and its tokens are what it takes, each
of a class and none of them empty. -/
structure GoesOn (p : Place) (x : List Token × Place) : Prop where
  text_eq : x.1.flatMap Token.text ++ x.2.rest = p.rest
  length_lt : x.2.rest.length < p.rest.length
  ne_nil : ∀ a ∈ x.1, a.text ≠ []

/-- Whether a rule goes on wherever it matches, with tokens that have a class. -/
def Rule.GoesOn (r : Rule) : Prop :=
  ∀ p, ∀ x ∈ r.outcomes p, Highlight.GoesOn p x ∧ ∀ a ∈ x.1, a.kind ≠ none

variable {rules : List Rule} {r : Rule} {p q s : Place} {ts us : List Token} {n : Nat} {t : Text}

/-! ### One step -/

theorem next_cons (r : Rule) (rules : List Rule) (p : Place) :
    next (r :: rules) p = (r.outcomes p).head?.or (next rules p) := by
  rw [next, next, List.findSome?_cons]
  cases (r.outcomes p).head? <;> rfl

/-- **Every step goes on** if the rules do. -/
theorem next_goesOn (hrules : ∀ r ∈ rules, r.GoesOn) (h : next rules p = some (ts, q)) :
    GoesOn p (ts, q) := by
  rcases Option.or_eq_some_iff.1 h with h | ⟨-, h⟩
  · obtain ⟨r, hr, hx⟩ := List.exists_of_findSome?_eq_some h
    exact (hrules r hr p _ (List.mem_of_head? hx)).1
  · unfold skip at h
    split at h
    · cases h
    · rename_i c t hrest
      obtain ⟨rfl, rfl⟩ := Prod.mk.inj (Option.some.inj h)
      exact ⟨by simp [hrest], by simp [hrest], by simp⟩

/-- What a rule finds if all ways to match its pattern come to the same. -/
theorem Rule.head?_outcomes {α : Type} {o : Option α} {f : α → List Token × Place}
    (hsound : ∀ m ∈ r.pattern.ways p.atStart p.rest, ∃ a, o = some a ∧ r.outcome p m = f a)
    (hcomplete : ∀ a, o = some a → r.pattern.ways p.atStart p.rest ≠ []) :
    (r.outcomes p).head? = o.map f := by
  rw [outcomes, List.head?_map]
  cases hways : r.pattern.ways p.atStart p.rest with
  | nil =>
    cases o with
    | none => rfl
    | some a => exact absurd hways (hcomplete a rfl)
  | cons m ms =>
    obtain ⟨a, rfl, ha⟩ := hsound m (hways ▸ List.mem_cons_self ..)
    exact congrArg some ha

/-- What a rule for the start of a line finds there, if all ways to match what follows come to the
same. -/
theorem Rule.head?_outcomes_lineStart {α : Type} {o : Option α} {f : α → List Token × Place}
    {q : Pattern} {action : Action}
    (hsound : ∀ m ∈ q.ways true t, ∃ a, o = some a ∧
      Rule.outcome ⟨.lineStart ++ q, action⟩ ⟨true, t⟩ m = f a)
    (hcomplete : ∀ a, o = some a → q.ways true t ≠ []) :
    (Rule.outcomes ⟨.lineStart ++ q, action⟩ ⟨true, t⟩).head? = o.map f := by
  have hways := Pattern.ways_lineStart_append_true q t
  exact head?_outcomes (fun m hm => hsound m (hways ▸ hm)) fun a ha => hways ▸ hcomplete a ha

/-! ### A rule that takes something -/

theorem pieces_of_ne_nil {kind : Class} (h : t ≠ []) : pieces kind t = [⟨some kind, t⟩] := if_neg h

theorem tokens_whole (m : Match) (kind : Class) :
    (Action.whole kind).tokens m = [⟨some kind, m.taken⟩] := rfl

theorem mem_tokens_byGroups {m : Match} {kinds : List Class} {a : Token}
    (h : a ∈ (Action.byGroups kinds).tokens m) : a.text ≠ [] ∧ a.kind ≠ none := by
  obtain ⟨x, -, hx⟩ := List.mem_flatMap.1 h
  unfold pieces at hx
  split at hx
  · cases hx
  · rename_i hne
    rw [List.mem_singleton.1 hx]
    exact ⟨hne, nofun⟩

/-- **Tokens by groups** are what the groups take, if every group has a class. -/
theorem flatMap_text_byGroups {m : Match} {kinds : List Class}
    (h : m.groups.map Prod.fst = List.range' 1 kinds.length) :
    ((Action.byGroups kinds).tokens m).flatMap Token.text = m.groups.flatMap Prod.snd := by
  have htexts : ((Action.byGroups kinds).tokens m).flatMap Token.text =
      ((kinds.zipIdx 1).map Prod.snd).flatMap fun i => (m.group? i).getD [] := by
    rw [Action.tokens, List.flatMap_assoc, List.flatMap_map]
    refine List.flatMap_congr fun x _ => ?_
    unfold pieces
    split
    · rename_i hnil
      rw [hnil]
      rfl
    · exact List.append_nil _
  have hkeys : (m.groups.map Prod.fst).Nodup := by
    rw [h]
    exact List.nodup_range'
  rw [htexts, List.zipIdx_map_snd, ← h, List.flatMap_map]
  refine List.flatMap_congr fun g hg => ?_
  rw [Match.group?_of_mem hkeys hg]
  rfl

/-- Whether a rule takes something and its tokens are all that it takes, as far as can be told from
how it is written. -/
def Rule.isTiled (r : Rule) : Bool :=
  0 < r.pattern.least && match r.action with
    | .whole _ => true
    | .byGroups kinds => r.pattern.tiling == some (List.range' 1 kinds.length)

/-- **A tiled rule goes on.** -/
theorem Rule.goesOn_of_isTiled (h : r.isTiled = true) : r.GoesOn := by
  rintro ⟨atStart, t⟩ x hx
  obtain ⟨m, hm, rfl⟩ := List.mem_map.1 hx
  obtain ⟨hleast, htiled⟩ := Bool.and_eq_true_iff.1 h
  have hrest := Pattern.taken_append_rest hm
  have htaken : 0 < m.taken.length :=
    (of_decide_eq_true hleast).trans_le (Pattern.least_le_length hm)
  have htokens : (∀ a ∈ r.action.tokens m, a.text ≠ [] ∧ a.kind ≠ none) ∧
      (r.action.tokens m).flatMap Token.text = m.taken := by
    cases haction : r.action with
    | whole kind =>
      rw [tokens_whole]
      simpa using List.ne_nil_of_length_pos htaken
    | byGroups kinds =>
      rw [haction] at htiled
      obtain ⟨hkeys, htexts⟩ := Pattern.groups_of_tiling (eq_of_beq htiled) hm
      exact ⟨fun a => mem_tokens_byGroups, (flatMap_text_byGroups hkeys).trans htexts⟩
  refine ⟨⟨?_, ?_, fun a ha => (htokens.1 a ha).1⟩, fun a ha => (htokens.1 a ha).2⟩
  · rw [outcome, htokens.2]
    exact hrest
  · have hlt : m.rest.length < (m.taken ++ m.rest).length := by
      rw [List.length_append]
      omega
    rwa [hrest] at hlt

/-! ### All steps -/

theorem Steps.single (h : next rules p = some (ts, q)) : Steps rules p ts q := by
  have h := Steps.step h (.done q)
  rwa [List.append_nil] at h

theorem Steps.trans (h : Steps rules p ts q) (h' : Steps rules q us s) :
    Steps rules p (ts ++ us) s := by
  induction h with
  | done p => exact h'
  | step hnext _ ih =>
    rw [List.append_assoc]
    exact .step hnext (ih h')

/-- **The tokens of a text** are those that steps find on the way to its end, and there are no more
steps than characters. -/
theorem tokensWithin_of_steps (hrules : ∀ r ∈ rules, r.GoesOn) (h : Steps rules p ts q)
    (hend : next rules q = none) (hn : p.rest.length < n) : tokensWithin rules n p = some ts := by
  induction h generalizing n with
  | done p =>
    obtain ⟨n, rfl⟩ := Nat.exists_eq_add_one_of_ne_zero (Nat.ne_of_gt (Nat.zero_lt_of_lt hn))
    rw [tokensWithin, hend]
  | step hnext _ ih =>
    obtain ⟨n, rfl⟩ := Nat.exists_eq_add_one_of_ne_zero (Nat.ne_of_gt (Nat.zero_lt_of_lt hn))
    have hlt := (next_goesOn hrules hnext).length_lt
    rw [tokensWithin, hnext]
    dsimp only at hlt ⊢
    rw [ih hend (by omega)]
    rfl

/-- What steps find is the text between two places, and none of it is empty. -/
theorem Steps.flatMap_text (hrules : ∀ r ∈ rules, r.GoesOn) (h : Steps rules p ts q) :
    ts.flatMap Token.text ++ q.rest = p.rest ∧ ∀ a ∈ ts, a.text ≠ [] := by
  induction h with
  | done p => exact ⟨rfl, nofun⟩
  | step hnext _ ih =>
    have hstep := next_goesOn hrules hnext
    refine ⟨?_, List.forall_mem_append.2 ⟨hstep.ne_nil, ih.2⟩⟩
    rw [List.flatMap_append, List.append_assoc, ih.1]
    exact hstep.text_eq

/-- Whether a table cuts a text into tokens: they are found in no more steps than the text has
characters, they are the text, none of them is empty and every one has a class. -/
structure CutsInto (rules : List Rule) (t : Text) (ts : List Token) : Prop where
  found : ∀ n, t.length < n → tokensWithin rules n (.start t) = some ts
  flatMap_text : ts.flatMap Token.text = t
  text_ne_nil : ∀ a ∈ ts, a.text ≠ []
  kind_ne_none : ∀ a ∈ ts, a.kind ≠ none

/-- **A table cuts a text** into what steps find on the way to its end. -/
theorem CutsInto.of_steps {atStart : Bool} (hrules : ∀ r ∈ rules, r.GoesOn)
    (h : Steps rules (.start t) ts ⟨atStart, []⟩) (hend : next rules ⟨atStart, []⟩ = none)
    (hkinds : ∀ a ∈ ts, a.kind ≠ none) : CutsInto rules t ts where
  found _ hn := tokensWithin_of_steps hrules h hend hn
  flatMap_text := (List.append_nil _).symm.trans (h.flatMap_text hrules).1
  text_ne_nil := (h.flatMap_text hrules).2
  kind_ne_none := hkinds

/-- A text is cut in one way only. -/
theorem CutsInto.unique (h : CutsInto rules t ts) (h' : CutsInto rules t us) : ts = us :=
  Option.some.inj ((h.found _ (Nat.lt_succ_self _)).symm.trans (h'.found _ (Nat.lt_succ_self _)))

end Highlight
end Galley
