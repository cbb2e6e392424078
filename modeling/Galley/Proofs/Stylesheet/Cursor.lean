/-
# The parser with an index into its tokens

The routines of the parser take tokens from the front of a list and are handed what is left of it.
Here they are written once more over the whole list and an index, as loops and calls of each other
that nothing forces to end and with reads that nothing forces to stay inside the list.  Every turn
of a loop and every call of a recursive routine hands on one unit of fuel less.

| a run | comes to |
| --- | --- |
| that ends | `pure` and what it built, with the index behind its last token |
| that reads outside of the list | the error `Misread` |
| that has no fuel left | `none` |

Three units for each token, and three more, are enough: then each routine at an index comes to
what the routine of the parser makes of the tokens from that index on, whatever the kinds and texts
of the tokens are (`routinesAt_eq`, `readsSheet`).  So none of them misreads or goes on for ever, and
the index never goes back: `sheetAt_total`.
-/

import Galley.Proofs.Stylesheet.Routines

namespace Galley
namespace Stylesheet

/-- A read outside of the list of tokens. -/
structure Misread where
  index : Nat
  deriving DecidableEq, Repr

/-- What a run over an index comes to: an answer, a misread, or nothing if its fuel runs out. -/
abbrev Attempt := ExceptT Misread Option

/-- A run without fuel. -/
def outOfFuel {α : Type} : Attempt α := ExceptT.mk none

/-- What a routine built, the comments to be put before it, its notes and the index of the first
token it has not read. -/
structure Landing (α : Type) where
  value : α
  siblings : List Rule
  notes : List Note
  next : Nat

section Routines

variable (tokens : List Token)

/-- The token at an index. -/
def tokenAt (pos : Nat) : Attempt Token :=
  match tokens[pos]? with
  | some t => pure t
  | none => throw ⟨pos⟩

/-- Whether punctuation whose text stands in `chars` is at an index; the end is none. -/
def isAmongAt (chars : Text) (pos : Nat) : Attempt Bool := do
  if pos < tokens.length then return (← tokenAt tokens pos).isAmong chars else return false

/-- `Phrase.readFrom` with an index. -/
def phraseFromAt (stops : Text) : Nat → Bool → Bool → Nat → Attempt (Landing Text)
  | 0, _, _, _ => outOfFuel
  | fuel + 1, started, gap, pos => do
    if pos < tokens.length then
      let t ← tokenAt tokens pos
      if t.isStop stops then return ⟨[], [], [], pos⟩
      else if t.kind = .comment then
        let p ← phraseFromAt stops fuel started started (pos + 1)
        return { p with siblings := t.toComment :: p.siblings, notes := t.commentNotes ++ p.notes }
      else if t.kind = .whitespace then phraseFromAt stops fuel started started (pos + 1)
      else
        let p ← phraseFromAt stops fuel true false (pos + 1)
        return { p with value := (if gap then [' '] else []) ++ t.text ++ p.value }
    else return ⟨[], [], [], pos⟩

/-- `Phrase.read` with an index. -/
def phraseAt (stops : Text) (fuel pos : Nat) : Attempt (Landing Text) :=
  phraseFromAt tokens stops fuel false false pos

/-- `opensBlock` with an index. -/
def opensBlockAt : Nat → Nat → Attempt Bool
  | 0, _ => outOfFuel
  | fuel + 1, pos => do
    if pos < tokens.length then
      let t ← tokenAt tokens pos
      if t.kind = .punctuation then
        if t.text = ['{'] then return true
        else if t.isAmong [';', '}'] then return false
        else opensBlockAt fuel (pos + 1)
      else opensBlockAt fuel (pos + 1)
    else return false

/-- The index after a semicolon, if there is one at an index. -/
def skipSemicolonAt (pos : Nat) : Attempt Nat := do
  if ← isAmongAt tokens [';'] pos then return pos + 1 else return pos

/-- `declaration` with an index. -/
def declarationAt (fuel pos : Nat) : Attempt (Landing (Option Declaration)) := do
  let name ← phraseAt tokens [':', ';', '}'] fuel pos
  if ← isAmongAt tokens [':'] name.next then
    let value ← phraseAt tokens [';', '}'] fuel (name.next + 1)
    return ⟨some (.ofPhrases name.value value.value), name.siblings ++ value.siblings,
      name.notes ++ value.notes, ← skipSemicolonAt tokens value.next⟩
  else
    return ⟨if name.value.isEmpty then none else some ⟨name.value, [], false⟩, name.siblings,
      name.notes, ← skipSemicolonAt tokens name.next⟩

mutual
/-- One turn of the loop over a block: what it adds to the block, or nothing at the closing
brace. -/
def blockTurnAt : Nat → Nat → Attempt (Landing (Option Block))
  | 0, _ => outOfFuel
  | fuel + 1, pos => do
    let t ← tokenAt tokens pos
    if t.kind = .whitespace then return ⟨some .empty, [], [], pos + 1⟩
    else if t.kind = .comment then return ⟨some ⟨[], [t.toComment]⟩, [], t.commentNotes, pos + 1⟩
    else if ← isAmongAt tokens ['}'] pos then return ⟨none, [], [], pos + 1⟩
    else if ← isAmongAt tokens [';'] pos then return ⟨some .empty, [], [], pos + 1⟩
    else if t.kind = .atKeyword then
      let r ← atRuleAt fuel pos
      return ⟨some ⟨[], [r.value]⟩, r.siblings, r.notes, r.next⟩
    else if ← opensBlockAt tokens fuel pos then
      let r ← styleRuleAt fuel pos
      return ⟨some ⟨[], r.value.toList⟩, r.siblings, r.notes, r.next⟩
    else
      let d ← declarationAt tokens fuel pos
      return ⟨some ⟨d.value.toList, []⟩, d.siblings, d.notes, d.next⟩

/-- `block` with an index. -/
def blockAt : Nat → Nat → Attempt (Landing Block)
  | 0, _ => outOfFuel
  | fuel + 1, pos => do
    if pos < tokens.length then
      let turn ← blockTurnAt fuel pos
      match turn.value with
      | none => return ⟨.empty, [], [], turn.next⟩
      | some part =>
        let b ← blockAt fuel turn.next
        return ⟨⟨part.declarations ++ b.value.declarations,
          turn.siblings ++ part.rules ++ b.value.rules⟩, [], turn.notes ++ b.notes, b.next⟩
    else return ⟨.empty, [], [.unclosedBlock], pos⟩

/-- `atRule` with the index of its keyword. -/
def atRuleAt : Nat → Nat → Attempt (Landing Rule)
  | 0, _ => outOfFuel
  | fuel + 1, pos => do
    let keyword ← tokenAt tokens pos
    let head ← phraseAt tokens [';', '{', '}'] fuel (pos + 1)
    if ← isAmongAt tokens ['{'] head.next then
      let b ← blockAt fuel (head.next + 1)
      return ⟨.group keyword.text head.value b.value.declarations (head.siblings ++ b.value.rules)
        keyword.position, [], head.notes ++ b.notes, b.next⟩
    else
      return ⟨.statement keyword.text head.value keyword.position, head.siblings, head.notes,
        ← skipSemicolonAt tokens head.next⟩

/-- `styleRule` with the index of its first token. -/
def styleRuleAt : Nat → Nat → Attempt (Landing (Option Rule))
  | 0, _ => outOfFuel
  | fuel + 1, pos => do
    let first ← tokenAt tokens pos
    let head ← phraseAt tokens ['{'] fuel pos
    if head.next < tokens.length then
      let b ← blockAt fuel (head.next + 1)
      if isShell head.value b.value then
        return ⟨none, head.siblings, head.notes ++ b.notes ++ [.emptyRule first.position], b.next⟩
      else
        return ⟨some (.style head.value b.value.declarations b.value.rules first.position),
          head.siblings, head.notes ++ b.notes, b.next⟩
    else
      return ⟨none, head.siblings, head.notes ++ [.selectorWithoutBlock head.value], head.next⟩
end

/-- One turn of the loop over a stylesheet. -/
def sheetTurnAt (fuel pos : Nat) : Attempt (Landing (List Rule)) := do
  let t ← tokenAt tokens pos
  if t.kind = .whitespace then return ⟨[], [], [], pos + 1⟩
  else if t.kind = .comment then return ⟨[t.toComment], [], t.commentNotes, pos + 1⟩
  else if ← isAmongAt tokens ['}', ';'] pos then
    return ⟨[], [], [.stray t.text t.position], pos + 1⟩
  else if t.kind = .atKeyword then
    let r ← atRuleAt tokens fuel pos
    return ⟨[r.value], r.siblings, r.notes, r.next⟩
  else
    let r ← styleRuleAt tokens fuel pos
    return ⟨r.value.toList, r.siblings, r.notes, r.next⟩

/-- `sheet` with an index. -/
def sheetAt : Nat → Nat → Attempt Sheet
  | 0, _ => outOfFuel
  | fuel + 1, pos => do
    if pos < tokens.length then
      let turn ← sheetTurnAt tokens fuel pos
      let s ← sheetAt fuel turn.next
      return ⟨turn.siblings ++ turn.value ++ s.rules, turn.notes ++ s.notes⟩
    else return ⟨[], []⟩

end Routines

variable {tokens : List Token} {fuel pos : Nat} {t t' : Token} {ts rest : List Token}

/-! ### Where an index stands -/

/-- The tokens from an index on, which may be the end of the list but not behind it. -/
structure Faces (tokens : List Token) (pos : Nat) (ts : List Token) : Prop where
  le_length : pos ≤ tokens.length
  drop_eq : tokens.drop pos = ts

namespace Faces

theorem lt_length (h : Faces tokens pos (t :: ts)) : pos < tokens.length := by
  have hl := congrArg List.length h.drop_eq
  simp only [List.length_drop, List.length_cons] at hl
  omega

theorem not_lt_length (h : Faces tokens pos []) : ¬pos < tokens.length := by
  have hl := congrArg List.length h.drop_eq
  simp only [List.length_drop, List.length_nil] at hl
  omega

theorem getElem? (h : Faces tokens pos (t :: ts)) : tokens[pos]? = some t := by
  rw [← List.head?_drop, h.drop_eq, List.head?_cons]

theorem tail (h : Faces tokens pos (t :: ts)) : Faces tokens (pos + 1) ts := by
  refine ⟨h.lt_length, ?_⟩
  rw [← List.tail_drop, h.drop_eq, List.tail_cons]

/-- An index is given by the number of tokens from it on. -/
theorem eq (h : Faces tokens pos ts) : pos = tokens.length - ts.length := by
  have hl := congrArg List.length h.drop_eq
  have := h.le_length
  simp only [List.length_drop] at hl
  omega

theorem of_suffix (h : Faces tokens pos ts) (hs : rest <:+ ts) :
    Faces tokens (tokens.length - rest.length) rest := by
  have hs' : rest <:+ tokens := hs.trans (h.drop_eq ▸ List.drop_suffix pos tokens)
  exact ⟨by omega, (List.suffix_iff_eq_drop.1 hs').symm⟩

theorem le_of_suffix (h : Faces tokens pos ts) (hs : rest <:+ ts) :
    pos ≤ tokens.length - rest.length := by
  have := hs.length_le
  have := h.eq
  omega

end Faces

/-- What a phrase comes to at an index. -/
def Phrase.landing (tokens : List Token) (p : Phrase) : Landing Text :=
  ⟨p.text, p.comments, p.notes, tokens.length - p.rest.length⟩

/-- What the outcome of a routine comes to at an index. -/
def Outcome.landing {α : Type} (tokens : List Token) (o : Outcome α) : Landing α :=
  ⟨o.value, o.siblings, o.notes, tokens.length - o.rest.length⟩

/-! ### Reads and loops over tokens -/

theorem tokenAt_eq (h : Faces tokens pos (t :: ts)) : tokenAt tokens pos = pure t := by
  simp only [tokenAt, h.getElem?]

theorem isAmongAt_eq (chars : Text) (h : Faces tokens pos ts) :
    isAmongAt tokens chars pos = pure (Token.headIsAmong chars ts) := by
  rw [isAmongAt]
  cases ts with
  | nil => rw [if_neg h.not_lt_length]; rfl
  | cons t ts =>
    rw [if_pos h.lt_length, tokenAt_eq h, pure_bind]
    rfl

theorem phraseFromAt_eq (stops : Text) (started gap : Bool) (h : Faces tokens pos ts)
    (hfuel : ts.length < fuel) :
    phraseFromAt tokens stops fuel started gap pos =
      pure ((Phrase.readFrom stops started gap ts).landing tokens) := by
  induction fuel generalizing started gap pos ts with
  | zero => exact absurd hfuel (Nat.not_lt_zero _)
  | succ fuel ih =>
    cases ts with
    | nil =>
      rw [phraseFromAt, if_neg h.not_lt_length, h.eq]
      rfl
    | cons t ts =>
      have hfuel : ts.length < fuel := Nat.lt_of_succ_lt_succ hfuel
      rw [phraseFromAt, if_pos h.lt_length, tokenAt_eq h, pure_bind, Phrase.readFrom_cons]
      split
      · rw [h.eq]; rfl
      · split
        · rw [ih _ _ h.tail hfuel, pure_bind]; rfl
        · split
          · exact ih _ _ h.tail hfuel
          · rw [ih _ _ h.tail hfuel, pure_bind]; rfl

theorem phraseAt_eq (stops : Text) (h : Faces tokens pos ts) (hfuel : ts.length < fuel) :
    phraseAt tokens stops fuel pos = pure ((Phrase.read stops ts).landing tokens) :=
  phraseFromAt_eq stops false false h hfuel

theorem opensBlockAt_eq (h : Faces tokens pos ts) (hfuel : ts.length < fuel) :
    opensBlockAt tokens fuel pos = pure (opensBlock ts) := by
  induction fuel generalizing pos ts with
  | zero => exact absurd hfuel (Nat.not_lt_zero _)
  | succ fuel ih =>
    cases ts with
    | nil =>
      rw [opensBlockAt, if_neg h.not_lt_length]
      rfl
    | cons t ts =>
      rw [opensBlockAt, if_pos h.lt_length, tokenAt_eq h, pure_bind, opensBlock,
        ih h.tail (Nat.lt_of_succ_lt_succ hfuel)]
      split
      · split
        · rfl
        · split <;> rfl
      · rfl

theorem skipSemicolonAt_eq (h : Faces tokens pos ts) :
    skipSemicolonAt tokens pos = pure (tokens.length - (skipSemicolon ts).length) := by
  rw [skipSemicolonAt, isAmongAt_eq _ h, pure_bind, skipSemicolon]
  cases ts with
  | nil => rw [h.eq]; rfl
  | cons t ts =>
    split
    · rw [h.tail.eq]; rfl
    · rw [h.eq]

theorem declarationAt_eq (h : Faces tokens pos ts) (hfuel : ts.length < fuel) :
    declarationAt tokens fuel pos = pure ((declaration ts).landing tokens) := by
  have hsuffix := Phrase.read_suffix [':', ';', '}'] ts
  have hname : Faces tokens _ (propertyPhrase ts).rest := h.of_suffix hsuffix
  rw [declarationAt, phraseAt_eq _ h hfuel, pure_bind]
  simp only [Phrase.landing]
  rw [isAmongAt_eq _ hname, pure_bind]
  cases hc : Token.headIsAmong [':'] (propertyPhrase ts).rest with
  | true =>
    rw [declaration_colon hc, if_pos rfl]
    cases hr : (propertyPhrase ts).rest with
    | nil => simp [hr, Token.headIsAmong] at hc
    | cons t' rest =>
      rw [hr] at hname hsuffix
      have hvalue : Faces tokens _ (valuePhrase rest).rest :=
        hname.tail.of_suffix (Phrase.read_suffix _ rest)
      have hrest : rest.length < fuel := (Nat.lt_of_succ_le hsuffix.length_le).trans hfuel
      rw [phraseAt_eq _ hname.tail hrest, pure_bind]
      simp only [Phrase.landing]
      rw [skipSemicolonAt_eq hvalue, pure_bind]
      rfl
  | false =>
    rw [declaration_bare hc, if_neg (by simp), skipSemicolonAt_eq hname, pure_bind]
    rfl

/-! ### Blocks and rules -/

/-- An attempt that ends at an index from `first` to `last`. -/
def Lands {α : Type} (m : Attempt (Landing α)) (first last : Nat) : Prop :=
  ∃ l, m = pure l ∧ first ≤ l.next ∧ l.next ≤ last

theorem lands_of_suffix {α : Type} {m : Attempt (Landing α)} {o : Outcome α}
    (h : Faces tokens pos ts) (hm : m = pure (o.landing tokens)) (hs : o.rest <:+ ts) :
    Lands m pos tokens.length :=
  ⟨_, hm, h.le_of_suffix hs, Nat.sub_le _ _⟩

/-- What is shown of a block by induction: with enough fuel its loop comes to what `block` makes of
the tokens, and each turn of the loop moves on. -/
structure ReadsBlock (tokens : List Token) (pos : Nat) (ts : List Token) : Prop where
  whole : ∀ fuel, 3 * ts.length + 2 < fuel →
    blockAt tokens fuel pos = pure ((block ts).1.landing tokens)
  turn : ts ≠ [] → ∀ fuel, 3 * ts.length < fuel →
    Lands (blockTurnAt tokens (fuel + 1) pos) (pos + 1) tokens.length

/-- A turn that leaves an ending of the tokens behind the first one, and then the rest of the
loop. -/
theorem ReadsBlock.of_turn (part : Block) (siblings : List Rule) (notes : List Note)
    (h : Faces tokens pos (t :: ts)) (hs : rest <:+ ts)
    (hturn : ∀ fuel, 3 * (t :: ts).length < fuel →
      blockTurnAt tokens (fuel + 1) pos =
        pure (Outcome.landing tokens ⟨some part, siblings, notes, rest⟩))
    (hrest : ∀ pos, Faces tokens pos rest → ReadsBlock tokens pos rest)
    (hblock : (block (t :: ts)).1 =
      ⟨⟨part.declarations ++ (block rest).1.value.declarations,
          siblings ++ part.rules ++ (block rest).1.value.rules⟩, [],
        notes ++ (block rest).1.notes, (block rest).1.rest⟩) :
    ReadsBlock tokens pos (t :: ts) where
  whole fuel hfuel := by
    have hl := hs.length_le
    rw [List.length_cons] at hfuel
    obtain ⟨fuel, rfl⟩ := Nat.exists_eq_add_of_le' (show 2 ≤ fuel by omega)
    have hb := (hrest _ (h.tail.of_suffix hs)).whole (fuel + 1) (by omega)
    rw [blockAt, if_pos h.lt_length, hturn fuel (by rw [List.length_cons]; omega), pure_bind]
    simp only [Outcome.landing] at hb ⊢
    rw [hb, pure_bind, hblock]
  turn _ fuel hfuel := lands_of_suffix h.tail (hturn fuel hfuel) hs

/-- A block keeps its comments to itself. -/
theorem siblings_block (ts : List Token) : (block ts).1.siblings = [] := by
  revert ts
  refine (routines_induction (A := fun _ _ => True) (S := fun _ _ => True)
    ?nil ?blank ?comment ?close ?semicolon ?keyword ?nested ?item ?_ ?_ ?_ ?_).1
  case nil => rw [block_nil]
  case blank => intro t ts h ih; rw [block_blank h, ih]
  case comment => intro t ts h _; rw [block_comment h]
  case close => intro t ts h; rw [block_close h]
  case semicolon => intro t ts hc h ih; rw [block_semicolon hc h, ih]
  case keyword => intro t ts h _ _; rw [block_atRule h]
  case nested => intro t ts hs ho _ _; rw [block_styleRule hs ho]
  case item => intro t ts hs ho _; rw [block_declaration hs ho]
  all_goals intros; trivial

/-- A turn that skips a token. -/
theorem block_skipped (h : (block (t :: ts)).1 = (block ts).1) :
    (block (t :: ts)).1 =
      ⟨⟨Block.empty.declarations ++ (block ts).1.value.declarations,
          [] ++ Block.empty.rules ++ (block ts).1.value.rules⟩, [],
        [] ++ (block ts).1.notes, (block ts).1.rest⟩ := by
  have hs := siblings_block ts
  rw [h]
  generalize (block ts).1 = o at hs
  obtain ⟨value, siblings, notes, rest⟩ := o
  exact congrArg (Outcome.mk value · notes rest) hs

/-- **Each routine at an index is the routine of the parser.** -/
theorem routinesAt_eq (tokens : List Token) :
    (∀ ts pos, Faces tokens pos ts → ReadsBlock tokens pos ts) ∧
      (∀ t ts pos, Faces tokens pos (t :: ts) → ∀ fuel, 3 * (t :: ts).length < fuel →
        atRuleAt tokens fuel pos = pure ((atRule t ts).1.landing tokens)) ∧
      ∀ t ts pos, Faces tokens pos (t :: ts) → ∀ fuel, 3 * (t :: ts).length < fuel →
        styleRuleAt tokens fuel pos = pure ((styleRule t ts).1.landing tokens) := by
  apply routines_induction
  case nil =>
    intro pos h
    refine ⟨fun fuel hfuel => ?_, fun hne => absurd rfl hne⟩
    obtain ⟨fuel, rfl⟩ := Nat.exists_eq_add_one_of_ne_zero (Nat.ne_zero_of_lt hfuel)
    rw [blockAt, if_neg h.not_lt_length, block_nil, h.eq]
    rfl
  case blank =>
    intro t ts hk ih pos h
    refine .of_turn .empty [] [] h List.suffix_rfl ?_ ih (block_skipped (block_blank hk))
    intro fuel _
    rw [blockTurnAt, tokenAt_eq h, pure_bind, if_pos hk, h.tail.eq]
    rfl
  case comment =>
    intro t ts hk ih pos h
    refine .of_turn ⟨[], [t.toComment]⟩ [] t.commentNotes h List.suffix_rfl ?_ ih
      (block_comment hk)
    intro fuel _
    rw [blockTurnAt, tokenAt_eq h, pure_bind, if_neg (by simp [hk]), if_pos hk, h.tail.eq]
    rfl
  case close =>
    intro t ts hc pos h
    have hturn (fuel : Nat) : blockTurnAt tokens (fuel + 1) pos =
        pure (Outcome.landing tokens ⟨none, [], [], ts⟩) := by
      rw [blockTurnAt, tokenAt_eq h, pure_bind, isAmongAt_eq _ h, pure_bind, h.tail.eq]
      simp [Token.kind_of_isAmong hc, Token.headIsAmong, hc, Outcome.landing]
    refine ⟨fun fuel hfuel => ?_, fun _ fuel _ => lands_of_suffix h.tail (hturn fuel)
      List.suffix_rfl⟩
    obtain ⟨fuel, rfl⟩ := Nat.exists_eq_add_of_le' (show 2 ≤ fuel by omega)
    rw [blockAt, if_pos h.lt_length, hturn fuel, pure_bind, block_close hc]
    rfl
  case semicolon =>
    intro t ts hc hs ih pos h
    refine .of_turn .empty [] [] h List.suffix_rfl ?_ ih (block_skipped (block_semicolon hc hs))
    intro fuel _
    rw [blockTurnAt, tokenAt_eq h, pure_bind, isAmongAt_eq _ h, pure_bind, isAmongAt_eq _ h,
      pure_bind, h.tail.eq]
    simp [Token.kind_of_isAmong hs, Token.headIsAmong, hc, hs, Outcome.landing]
  case keyword =>
    intro t ts hk ihA ih pos h
    refine .of_turn ⟨[], [_]⟩ _ _ h (routines_suffix.2.1 t ts) ?_ ih (block_atRule hk)
    intro fuel hfuel
    rw [blockTurnAt, tokenAt_eq h, pure_bind, isAmongAt_eq _ h, pure_bind, isAmongAt_eq _ h,
      pure_bind, ihA pos h fuel hfuel]
    simp [hk, Token.headIsAmong, Token.isAmong_of_kind, Outcome.landing]
  case nested =>
    intro t ts hs ho ihS ih pos h
    refine .of_turn ⟨[], (styleRule t ts).1.value.toList⟩ _ _ h (routines_suffix.2.2 t ts) ?_ ih
      (block_styleRule hs ho)
    intro fuel hfuel
    rw [blockTurnAt, tokenAt_eq h, pure_bind, isAmongAt_eq _ h, pure_bind, isAmongAt_eq _ h,
      pure_bind, opensBlockAt_eq h (by omega), pure_bind, ihS pos h fuel hfuel]
    simp [hs.not_blank, hs.not_comment, hs.not_keyword, hs.not_close, hs.not_semicolon, ho,
      Token.headIsAmong, Outcome.landing]
  case item =>
    intro t ts hs ho ih pos h
    have hsuffix : (declaration (t :: ts)).rest <:+ ts :=
      List.suffix_of_suffix_length_le (declaration_suffix _) (List.suffix_cons t ts)
        (length_rest_declaration_cons_le ts hs.not_semicolon hs.not_close)
    refine .of_turn ⟨(declaration (t :: ts)).value.toList, []⟩ (declaration (t :: ts)).siblings
      (declaration (t :: ts)).notes h hsuffix ?_ ih ?_
    · intro fuel hfuel
      rw [blockTurnAt, tokenAt_eq h, pure_bind, isAmongAt_eq _ h, pure_bind, isAmongAt_eq _ h,
        pure_bind, opensBlockAt_eq h (by omega), pure_bind, declarationAt_eq h (by omega)]
      simp [hs.not_blank, hs.not_comment, hs.not_keyword, hs.not_close, hs.not_semicolon, ho,
        Token.headIsAmong, Outcome.landing]
    · rw [block_declaration hs ho, List.append_nil]
      rfl
  case statement =>
    intro t ts hk pos h fuel hfuel
    have hhead : Faces tokens _ (preludePhrase ts).rest :=
      h.tail.of_suffix (Phrase.read_suffix _ ts)
    rw [List.length_cons] at hfuel
    obtain ⟨fuel, rfl⟩ := Nat.exists_eq_add_one_of_ne_zero (Nat.ne_zero_of_lt hfuel)
    rw [atRuleAt, tokenAt_eq h, pure_bind, phraseAt_eq _ h.tail (by omega), pure_bind]
    simp only [Phrase.landing]
    rw [isAmongAt_eq _ hhead, pure_bind, hk, if_neg (by simp), skipSemicolonAt_eq hhead, pure_bind,
      atRule_statement hk]
    rfl
  case group =>
    intro t ts t' rest hr hk ih pos h fuel hfuel
    have hsuffix : t' :: rest <:+ ts := hr ▸ Phrase.read_suffix _ ts
    have hhead : Faces tokens _ (t' :: rest) := h.tail.of_suffix hsuffix
    have hl := hsuffix.length_le
    rw [List.length_cons] at hfuel hl
    obtain ⟨fuel, rfl⟩ := Nat.exists_eq_add_one_of_ne_zero (Nat.ne_zero_of_lt hfuel)
    rw [atRuleAt, tokenAt_eq h, pure_bind, phraseAt_eq _ h.tail (by omega), pure_bind]
    simp only [Phrase.landing, hr]
    rw [isAmongAt_eq _ hhead, pure_bind, Token.headIsAmong, if_pos hk,
      (ih _ hhead.tail).whole fuel (by omega), pure_bind, atRule_group hr hk]
    rfl
  case unopened =>
    intro t ts hr pos h fuel hfuel
    have hhead : Faces tokens _ [] := hr ▸ h.of_suffix (Phrase.read_suffix ['{'] (t :: ts))
    obtain ⟨fuel, rfl⟩ := Nat.exists_eq_add_one_of_ne_zero (Nat.ne_zero_of_lt hfuel)
    rw [List.length_cons] at hfuel
    rw [styleRuleAt, tokenAt_eq h, pure_bind,
      phraseAt_eq _ h (by rw [List.length_cons]; omega), pure_bind]
    simp only [Phrase.landing, hr]
    rw [if_neg hhead.not_lt_length, styleRule_unopened hr]
    rfl
  case opened =>
    intro t ts t' rest hr ih pos h fuel hfuel
    have hsuffix : t' :: rest <:+ t :: ts := hr ▸ Phrase.read_suffix ['{'] (t :: ts)
    have hhead : Faces tokens _ (t' :: rest) := h.of_suffix hsuffix
    have hl := hsuffix.length_le
    rw [List.length_cons, List.length_cons] at hl
    obtain ⟨fuel, rfl⟩ := Nat.exists_eq_add_one_of_ne_zero (Nat.ne_zero_of_lt hfuel)
    rw [List.length_cons] at hfuel
    rw [styleRuleAt, tokenAt_eq h, pure_bind,
      phraseAt_eq _ h (by rw [List.length_cons]; omega), pure_bind]
    simp only [Phrase.landing, hr]
    rw [if_pos hhead.lt_length, (ih _ hhead.tail).whole fuel (by omega), pure_bind]
    by_cases hshell : isShell (selectorPhrase (t :: ts)).text (block rest).1.value = true
    · rw [styleRule_shell hr hshell]
      exact if_pos hshell
    · rw [styleRule_kept hr (by simpa using hshell)]
      exact if_neg hshell

/-! ### Sheets -/

/-- What is shown of a sheet by induction, as of a block. -/
structure ReadsSheet (tokens : List Token) (pos : Nat) (ts : List Token) : Prop where
  whole : ∀ fuel, 3 * ts.length + 1 < fuel → sheetAt tokens fuel pos = pure (sheet ts)
  turn : ts ≠ [] → ∀ fuel, 3 * ts.length < fuel →
    Lands (sheetTurnAt tokens fuel pos) (pos + 1) tokens.length

theorem ReadsSheet.of_turn (rules siblings : List Rule) (notes : List Note)
    (h : Faces tokens pos (t :: ts)) (hs : rest <:+ ts)
    (hturn : ∀ fuel, 3 * (t :: ts).length < fuel →
      sheetTurnAt tokens fuel pos = pure (Outcome.landing tokens ⟨rules, siblings, notes, rest⟩))
    (hrest : ∀ pos, Faces tokens pos rest → ReadsSheet tokens pos rest)
    (hsheet : sheet (t :: ts) =
      ⟨siblings ++ rules ++ (sheet rest).rules, notes ++ (sheet rest).notes⟩) :
    ReadsSheet tokens pos (t :: ts) where
  whole fuel hfuel := by
    have hl := hs.length_le
    rw [List.length_cons] at hfuel
    obtain ⟨fuel, rfl⟩ := Nat.exists_eq_add_one_of_ne_zero (Nat.ne_zero_of_lt hfuel)
    rw [sheetAt, if_pos h.lt_length, hturn fuel (by rw [List.length_cons]; omega), pure_bind]
    simp only [Outcome.landing]
    rw [(hrest _ (h.tail.of_suffix hs)).whole fuel (by omega), pure_bind, hsheet]
  turn _ fuel hfuel := lands_of_suffix h.tail (hturn fuel hfuel) hs

theorem readsSheet (tokens ts : List Token) :
    ∀ pos, Faces tokens pos ts → ReadsSheet tokens pos ts := by
  induction ts using parse_induction with
  | nil =>
    intro pos h
    refine ⟨fun fuel hfuel => ?_, fun hne => absurd rfl hne⟩
    obtain ⟨fuel, rfl⟩ := Nat.exists_eq_add_one_of_ne_zero (Nat.ne_zero_of_lt hfuel)
    rw [sheetAt, if_neg h.not_lt_length, sheet]
  | blank t ts hk ih =>
    intro pos h
    refine .of_turn [] [] [] h List.suffix_rfl ?_ ih ?_
    · intro fuel _
      rw [sheetTurnAt, tokenAt_eq h, pure_bind, if_pos hk, h.tail.eq]
      rfl
    · rw [sheet, if_pos hk]
      rfl
  | comment t ts hk ih =>
    intro pos h
    refine .of_turn [t.toComment] [] t.commentNotes h List.suffix_rfl ?_ ih ?_
    · intro fuel _
      rw [sheetTurnAt, tokenAt_eq h, pure_bind, if_neg (by simp [hk]), if_pos hk, h.tail.eq]
      rfl
    · rw [sheet, if_neg (by simp [hk]), if_pos hk]
      rfl
  | stray t ts hk ih =>
    intro pos h
    refine .of_turn [] [] [.stray t.text t.position] h List.suffix_rfl ?_ ih ?_
    · intro fuel _
      rw [sheetTurnAt, tokenAt_eq h, pure_bind, isAmongAt_eq _ h, pure_bind, h.tail.eq]
      simp [Token.kind_of_isAmong hk, Token.headIsAmong, hk, Outcome.landing]
    · rw [sheet]
      simp [Token.kind_of_isAmong hk, hk]
  | keyword t ts hk ih =>
    intro pos h
    refine .of_turn [(atRule t ts).1.value] (atRule t ts).1.siblings (atRule t ts).1.notes h
      (routines_suffix.2.1 t ts) ?_ ih ?_
    · intro fuel hfuel
      rw [sheetTurnAt, tokenAt_eq h, pure_bind, isAmongAt_eq _ h, pure_bind,
        (routinesAt_eq tokens).2.1 t ts pos h fuel hfuel]
      simp [hk, Token.headIsAmong, Token.isAmong_of_kind, Outcome.landing]
    · rw [sheet]
      simp [hk, Token.isAmong_of_kind]
  | rule t ts hk ih =>
    intro pos h
    refine .of_turn (styleRule t ts).1.value.toList (styleRule t ts).1.siblings
      (styleRule t ts).1.notes h (routines_suffix.2.2 t ts) ?_ ih ?_
    · intro fuel hfuel
      rw [sheetTurnAt, tokenAt_eq h, pure_bind, isAmongAt_eq _ h, pure_bind,
        (routinesAt_eq tokens).2.2 t ts pos h fuel hfuel]
      simp [hk.not_blank, hk.not_comment, hk.not_keyword, hk.not_stray, Token.headIsAmong,
        Outcome.landing]
    · rw [sheet]
      simp [hk.not_blank, hk.not_comment, hk.not_keyword, hk.not_stray]

/-! ### Every list of tokens is read to its end -/

theorem faces_drop (h : pos ≤ tokens.length) : Faces tokens pos (tokens.drop pos) := ⟨h, rfl⟩

/-- A token stands at an index inside the list. -/
theorem exists_faces (h : pos < tokens.length) :
    ∃ t ts, Faces tokens pos (t :: ts) ∧ (t :: ts).length ≤ tokens.length := by
  refine ⟨_, _, ⟨h.le, List.drop_eq_getElem_cons h⟩, ?_⟩
  rw [← List.drop_eq_getElem_cons h, List.length_drop]
  exact Nat.sub_le _ _

/-- **The parser is total on every list of tokens, whatever their kinds and texts.**  With three
units of fuel for each token, and three more, the run over indices ends with what `sheet` makes of
the list and does not misread; every turn of its two loops moves on; a block, a declaration and a
phrase end between the index they begin at and the length of the list, and an at-rule and a style
rule end behind their first token. -/
theorem sheetAt_total (tokens : List Token) (fuel : Nat) (hfuel : 3 * tokens.length + 2 < fuel) :
    sheetAt tokens fuel 0 = pure (sheet tokens) ∧
      (∀ pos < tokens.length, Lands (sheetTurnAt tokens fuel pos) (pos + 1) tokens.length) ∧
      (∀ pos < tokens.length, Lands (blockTurnAt tokens fuel pos) (pos + 1) tokens.length) ∧
      (∀ pos ≤ tokens.length, Lands (blockAt tokens fuel pos) pos tokens.length) ∧
      (∀ pos ≤ tokens.length, Lands (declarationAt tokens fuel pos) pos tokens.length) ∧
      (∀ stops, ∀ pos ≤ tokens.length,
        Lands (phraseAt tokens stops fuel pos) pos tokens.length) ∧
      (∀ pos < tokens.length, Lands (atRuleAt tokens fuel pos) (pos + 1) tokens.length) ∧
      ∀ pos < tokens.length, Lands (styleRuleAt tokens fuel pos) (pos + 1) tokens.length := by
  obtain ⟨blocks, atRules, styleRules⟩ := routinesAt_eq tokens
  have hdrop (pos : Nat) : (tokens.drop pos).length ≤ tokens.length :=
    List.length_drop.trans_le (Nat.sub_le _ _)
  refine ⟨?sheet, ?sheetTurn, ?blockTurn, ?block, ?declaration, ?phrase, ?atRule, ?styleRule⟩
  case sheet =>
    exact (readsSheet tokens tokens 0 (faces_drop (Nat.zero_le _))).whole fuel (by omega)
  case sheetTurn =>
    intro pos hpos
    obtain ⟨t, ts, h, hl⟩ := exists_faces hpos
    exact (readsSheet tokens _ pos h).turn (List.cons_ne_nil t ts) fuel (by omega)
  case blockTurn =>
    intro pos hpos
    obtain ⟨t, ts, h, hl⟩ := exists_faces hpos
    obtain ⟨fuel, rfl⟩ := Nat.exists_eq_add_one_of_ne_zero (Nat.ne_zero_of_lt hfuel)
    exact (blocks _ pos h).turn (List.cons_ne_nil t ts) fuel (by omega)
  case block =>
    intro pos hpos
    have h := faces_drop hpos
    have hl := hdrop pos
    exact lands_of_suffix h ((blocks _ pos h).whole fuel (by omega)) (routines_suffix.1 _)
  case declaration =>
    intro pos hpos
    have h := faces_drop hpos
    have hl := hdrop pos
    exact lands_of_suffix h (declarationAt_eq h (by omega)) (declaration_suffix _)
  case phrase =>
    intro stops pos hpos
    have h := faces_drop hpos
    have hl := hdrop pos
    exact ⟨_, phraseAt_eq stops h (by omega), h.le_of_suffix (Phrase.read_suffix stops _),
      Nat.sub_le _ _⟩
  case atRule =>
    intro pos hpos
    obtain ⟨t, ts, h, hl⟩ := exists_faces hpos
    exact lands_of_suffix h.tail (atRules t ts pos h fuel (by omega)) (routines_suffix.2.1 t ts)
  case styleRule =>
    intro pos hpos
    obtain ⟨t, ts, h, hl⟩ := exists_faces hpos
    exact lands_of_suffix h.tail (styleRules t ts pos h fuel (by omega)) (routines_suffix.2.2 t ts)

/-- Punctuation without a text is among any characters and is never a stop, and the two
characters `};` are among themselves and are no stop either. -/
theorem sheetAt_total_odd :
    let tokens : List Token := [⟨.punctuation, [], .start⟩, ⟨.punctuation, ['}', ';'], .start⟩,
      ⟨.atKeyword, [], .start⟩]
    3 * tokens.length + 2 < 12 ∧ Lands (sheetTurnAt tokens 12 1) 2 3 ∧
      Lands (blockAt tokens 12 3) 3 3 ∧ Lands (atRuleAt tokens 12 2) 3 3 := by
  intro tokens
  obtain ⟨-, sheetTurn, -, block, -, -, atRule, -⟩ := sheetAt_total tokens 12 (by decide)
  exact ⟨by decide, sheetTurn 1 (by decide), block 3 (by decide), atRule 2 (by decide)⟩

end Stylesheet
end Galley
