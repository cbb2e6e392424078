/-
# What a run writes

A run that stops before its output is written has written nothing: whatever goes wrong in the stages
before, the files are those that were there (`keeps_prepare`).  `Session.Keeps x t` says so of a
part `x` of a run that is begun on the tree `t`; it holds of two parts in a row if it holds of both
(`Session.keeps_bind`), and the only part before the output that changes the tree makes
directories.

A run that goes through has written the output, and the page if one is wanted, and nothing else
(`Request.carryOut_writes`).  The output holds what the tool has made, unless the page is the same
file (`Request.Apart`): a link may lead from the one to the other, and the page is written last.  In
a tree without links this does not happen.
-/

import Galley.Proofs.Run.Session
import Galley.Proofs.Run.Tree
import Galley.Run.Standard

namespace Galley
namespace Session

variable {α β ε : Type} {x y : Session α} {f : α → Session β} {t u : Tree}

/-- Whether a part of a run, begun on a tree, leaves the files as they are, be it that it goes
through or that it stops. -/
def Keeps (x : Session α) (t : Tree) : Prop := t.SameFiles (x.start t).tree

/-- **Two parts keep the files** if the first does, and the second does on the tree that it gets. -/
theorem keeps_bind (hx : Keeps x t) (hf : ∀ a u, Returns x t a u → Keeps (f a) u) :
    Keeps (x >>= f) t := by
  unfold Keeps at hx ⊢
  rw [start_bind]
  cases hstart : x.start t with
  | mk r u log =>
    rw [hstart] at hx
    cases r with
    | ok a => exact hx.trans (hf a u (by rw [Returns, hstart]; exact ⟨rfl, rfl⟩))
    | error stop => exact hx

/-- Nothing is done after a part that stops. -/
theorem start_bind_of_error {stop : Stop} (h : (x.start t).result = .error stop) :
    ((x >>= f).start t).result = .error stop ∧ ((x >>= f).start t).tree = (x.start t).tree := by
  rw [start_bind]
  cases hstart : x.start t with
  | mk r u log =>
    rw [hstart] at h
    obtain rfl : r = .error stop := h
    exact ⟨rfl, rfl⟩

theorem keeps_ite (c : Prop) [Decidable c] (hx : Keeps x t) (hy : Keeps y t) :
    Keeps (if c then x else y) t := by
  split
  · exact hx
  · exact hy

/-- Something that is done on a condition, and what comes after it in any case. -/
theorem keeps_when (c : Prop) [Decidable c] {x : Session Unit} {f : Unit → Session β}
    (hx : Keeps x t) (hf : ∀ a u, Keeps (f a) u) : Keeps (if c then x >>= f else f ()) t :=
  keeps_ite c (keeps_bind hx fun a u _ => hf a u) (hf () t)

theorem keeps_orStop {stop : ε → Stop} {r : Except ε α} : Keeps (orStop stop r) t := by
  cases r with
  | ok a => exact .refl t
  | error e => exact .refl t

theorem keeps_forIn {γ : Type} {xs : List γ} {say : γ → Session Unit}
    (hsay : ∀ c t, Keeps (say c) t) :
    Keeps (forIn xs PUnit.unit fun c _ => do say c; pure (.yield PUnit.unit)) t := by
  induction xs generalizing t with
  | nil => exact .refl t
  | cons c xs ih =>
    rw [List.forIn_cons]
    refine keeps_bind (keeps_bind (hsay c t) fun _ u _ => .refl u) fun step u hstep => ?_
    -- what is said never ends the loop
    obtain ⟨_, _, _, hyield⟩ := returns_bind.1 hstep
    rw [(returns_pure.1 hyield).1]
    exact ih

end Session

open Session

variable {lib : Libraries} {s : Settings} {r : Request} {t u x : Tree} {l : Located} {src : Sources}
variable {product : Product} {a : Accomplished}

/-! ### The stages before the output -/

theorem keeps_locateOther : Keeps (locateOther r) t := by
  unfold locateOther
  split
  · split
    · exact .refl t
    · exact .refl t
    · refine keeps_bind (.refl t) fun _ t _ => keeps_ite _ ?_ (.refl t)
      exact keeps_bind (.refl t) fun _ t _ => .refl t
  · exact .refl t

/-- **To find the files** changes none of them, though directories are made. -/
theorem keeps_locate : Keeps (locate r) t := by
  unfold locate
  refine keeps_when _ (.refl t) fun _ t => ?_
  refine keeps_bind (.refl t) fun _ t _ => keeps_bind (.refl t) fun _ t _ => ?_
  refine keeps_when _ (.refl t) fun _ t => ?_
  refine keeps_bind (.refl t) fun _ t _ => keeps_bind keeps_locateOther fun _ t _ => ?_
  refine keeps_bind (.refl t) fun v t htree => ?_
  -- the tree that is put in place is the one there with directories made
  obtain ⟨rfl, rfl⟩ := returns_tree.1 htree
  refine keeps_bind (Tree.SameFiles.makeDirectories _ _) fun _ t _ => ?_
  refine keeps_bind keeps_orStop fun _ t _ => keeps_bind (.refl t) fun _ t _ => .refl t

theorem keeps_readSource {p : Path} : Keeps (readSource p) t := by
  unfold readSource
  refine keeps_bind (.refl t) fun _ t _ => keeps_bind keeps_orStop fun _ t _ => ?_
  exact keeps_bind (.refl t) fun _ t _ => .refl t

theorem keeps_readSources : Keeps (readSources l) t := by
  unfold readSources
  refine keeps_bind (.refl t) fun _ t _ => keeps_bind keeps_readSource fun _ t _ => ?_
  split
  · exact .refl t
  · exact keeps_bind keeps_readSource fun _ t _ => .refl t

theorem keeps_formatStylesheet {o : Stylesheet.Options} {source : Text} :
    Keeps (formatStylesheet s o source) t := by
  unfold formatStylesheet
  refine keeps_bind (.refl t) fun _ t _ => keeps_bind (.refl t) fun _ t _ => ?_
  refine keeps_bind keeps_orStop fun _ t _ => ?_
  exact keeps_bind (keeps_forIn fun _ t => .refl t) fun _ t _ => .refl t

theorem keeps_compareTexts {o : LineDiff.Options} : Keeps (compareTexts s o src) t := by
  unfold compareTexts
  refine keeps_bind (.refl t) fun _ t _ => keeps_bind (.refl t) fun _ t _ => ?_
  exact keeps_bind keeps_orStop fun _ t _ => .refl t

theorem keeps_applyTool : Keeps (applyTool lib s r src) t := by
  unfold applyTool
  refine keeps_bind (.refl t) fun _ t _ => keeps_bind keeps_orStop fun _ t _ => ?_
  split
  · exact keeps_bind keeps_orStop fun _ t _ => keeps_formatStylesheet
  · exact keeps_bind keeps_orStop fun _ t _ => keeps_compareTexts

/-- **The stages before the output write no files**, wherever they stop. -/
theorem keeps_prepare : Keeps (prepare lib s r) t := by
  unfold prepare
  refine keeps_bind keeps_locate fun _ t _ => keeps_bind keeps_readSources fun _ t _ => ?_
  exact keeps_bind keeps_applyTool fun _ t _ => .refl t

/-! ### The output -/

/-- A run goes through if the stages before the output do and the output is written. -/
theorem Request.returns_carryOut_iff :
    (r.carryOut lib s).Returns t a u ↔
      ∃ x, (prepare lib s r).Returns t (a.located, a.product) x ∧
        (writeOutput lib s r a.located a.product).Returns x a.written u := by
  simp only [carryOut, returns_bind, returns_summarize, returns_pure, exists_eq_left,
    exists_const]
  constructor
  · rintro ⟨_, x, hprepare, ws, _, hwrite, rfl, rfl⟩
    exact ⟨x, hprepare, hwrite⟩
  · rintro ⟨x, hprepare, hwrite⟩
    exact ⟨(a.located, a.product), x, hprepare, a.written, u, hwrite, rfl, rfl⟩

namespace Request

/-- Whether the page, if there is one, is another file than the output. -/
def Apart (r : Request) (output : Path) (u : Tree) : Prop :=
  r.html = true → u.node? output ≠ u.node? (output.withEnding ".html".toList)

/-- What has been written when a text has, that is the output: the output holds the text, the page
holds what is made of the text, and all other files are as they were. -/
structure Writes (lib : Libraries) (s : Settings) (r : Request) (l : Located) (product : Product)
    (written : List Path) (t u : Tree) (text : Text) : Prop where
  output_eq : product.output = text
  written_eq : written = l.output :: if r.html then [l.output.withEnding ".html".toList] else []
  output : r.Apart l.output u → u.read l.output = .ok (.text text)
  page : r.html = true → ∃ page,
    lib.highlight (.ofName product.language) s.highlightStyle r.inputFile text = .ok page ∧
      u.read (l.output.withEnding ".html".toList) = .ok (.text page)
  others : t.SameFilesBut written u
  apart : t.Unlinked → r.Apart l.output u

/-- **The output is written, and its page, and nothing else.** -/
theorem exists_writes {written : List Path} (hx : t.SameFiles x)
    (h : (writeOutput lib s r l product).Returns x written u) :
    ∃ text, r.Writes lib s l product written t u text := by
  obtain ⟨text, v, htext, hv, hpage⟩ := returns_writeOutput.1 h
  obtain ⟨k, i, hv⟩ := Tree.exists_overwrites hv
  have hothers := hx.but_nil.overwrites hv
  refine ⟨text, ?_⟩
  cases hhtml : r.html with
  | false =>
    rw [hhtml, if_neg (by decide)] at hpage
    obtain ⟨rfl, rfl⟩ := hpage
    have hno : ¬r.html = true := ne_true_of_eq_false hhtml
    exact {
      output_eq := htext
      written_eq := by rw [hhtml]; rfl
      output := fun _ => hv.read
      page := fun hyes => absurd hyes hno
      others := hothers
      apart := fun _ hyes => absurd hyes hno }
  | true =>
    rw [hhtml, if_pos rfl] at hpage
    obtain ⟨page, hmade, hu, rfl⟩ := hpage
    obtain ⟨k', i', hu⟩ := Tree.exists_overwrites hu
    have hi : u.node? l.output = some i := hu.grows.node? hv.node?
    have hi' : u.node? (l.output.withEnding ".html".toList) = some i' := hu.node?
    exact {
      output_eq := htext
      written_eq := by rw [hhtml]; rfl
      output := fun hapart => by
        have hne : i ≠ i' := fun heq => hapart hhtml (by rw [hi, hi', heq])
        rw [Tree.read_of_node? hi, hu.contents, if_neg hne, hv.contents, if_pos rfl]
      page := fun _ => ⟨page, hmade, hu.read⟩
      others := hothers.overwrites hu
      apart := fun ht _ => by
        -- without links the paths lead to two places, and these have two files
        have hlinks := (ht.of_sameFiles hx).overwrites hv |>.overwrites hu
        obtain ⟨m, hm, hmi⟩ := Tree.node?_eq_some_iff.1 hi
        obtain ⟨m', hm', hmi'⟩ := Tree.node?_eq_some_iff.1 hi'
        rw [hi, hi', ne_eq, Option.some.injEq]
        rintro rfl
        exact hlinks.resolve_withEnding_ne hm hm' (hlinks.file m m' i hmi hmi') }

/-- **A run that stops before its output has written nothing**, and a run that goes through has
written its output, the page if it is wanted, and nothing else. -/
theorem carryOut_writes (lib : Libraries) (s : Settings) (r : Request) (t : Tree) :
    let before := (prepare lib s r).start t
    let run := (r.carryOut lib s).start t
    (∀ stop, before.result = .error stop → run.result = .error stop ∧ t.SameFiles run.tree) ∧
      ∀ a, run.result = .ok a →
        before.result = .ok (a.located, a.product) ∧
          a.located.output = r.outputDir.append (.ofText r.outputName) ∧
          ∃ text, r.Writes lib s a.located a.product a.written t run.tree text := by
  intro before run
  have hkeeps : t.SameFiles before.tree := keeps_prepare
  refine ⟨fun stop hstop => ?_, fun a ha => ?_⟩
  · obtain ⟨hresult, htree⟩ : run.result = .error stop ∧ run.tree = before.tree :=
      start_bind_of_error hstop
    exact ⟨hresult, htree ▸ hkeeps⟩
  · obtain ⟨x, hprepare, hwrite⟩ := returns_carryOut_iff.1 (returns_of_result ha)
    obtain ⟨l, v, hlocate, hrest⟩ := returns_bind.1 hprepare
    obtain ⟨src, w, -, hrest⟩ := returns_bind.1 hrest
    obtain ⟨product, y, -, hrest⟩ := returns_bind.1 hrest
    have hl : a.located = l := congrArg Prod.fst (returns_pure.1 hrest).1
    have houtput := (returns_locate.1 hlocate).2.2.2.2
    rw [← hl] at houtput
    have hx : before.tree = x := hprepare.2
    exact ⟨hprepare.1, houtput, exists_writes (hx ▸ hkeeps) hwrite⟩

/-- An unknown option stops a run after the output directory has been made; without the preset a run
writes over an output that is there, and a page beside it. -/
theorem carryOut_writes_over :
    let r : Request := { Request.standard (.ofText "in".toList) (.ofText "out/css".toList) with
      inputFile := "site.css".toList, outputFile := "../old.css".toList, html := true,
      mode := some "minify".toList }
    let r' : Request := { r with presetFile := some "p.yaml".toList }
    let t : Tree := Tree.empty
      |>.put ["in".toList] .directory
      |>.put ["out".toList] .directory
      |>.putFile ["in".toList, "site.css".toList] (.text ".a \x7b color: red; \x7d".toList)
      |>.putFile ["in".toList, "p.yaml".toList] (.text "css:\n  tabs: 1\n".toList)
      |>.putFile ["out".toList, "old.css".toList] (.bytes [47])
    (∃ stop, ((prepare .standard .standard r').start t).result = .error stop ∧
      t.SameFiles ((r'.carryOut .standard .standard).start t).tree) ∧
      ∃ a, ((r.carryOut .standard .standard).start t).result = .ok a ∧
        a.written = [a.located.output, a.located.output.withEnding ".html".toList] ∧
        a.located.output = ⟨["out".toList, "css".toList, Path.parent, "old.css".toList]⟩ ∧
        ∃ text : Text, a.product.output = text ∧
          ((r.carryOut .standard .standard).start t).tree.read a.located.output =
            .ok (.text text) := by
  intro r r' t
  have hstops : ((prepare .standard .standard r').start t).result.isOk = false := by decide +kernel
  have hgoes : ((r.carryOut .standard .standard).start t).result.isOk = true := by decide +kernel
  have hlinks : t.Unlinked := Tree.Unlinked.empty
    |>.put_directory (by decide)
    |>.put_directory (by decide)
    |>.putFile (by decide) _
    |>.putFile (by decide) _
    |>.putFile (by decide) _
  constructor
  · cases hstop : ((prepare .standard .standard r').start t).result with
    | ok p => simp [hstop, Except.isOk, Except.toBool] at hstops
    | error stop => exact ⟨stop, rfl, ((carryOut_writes .standard .standard r' t).1 stop hstop).2⟩
  · cases ha : ((r.carryOut .standard .standard).start t).result with
    | error stop => simp [ha, Except.isOk, Except.toBool] at hgoes
    | ok a =>
      obtain ⟨-, houtput, text, hwrites⟩ := (carryOut_writes .standard .standard r t).2 a ha
      exact ⟨a, rfl, hwrites.written_eq, houtput.trans (by decide), text, hwrites.output_eq,
        hwrites.output (hwrites.apart hlinks)⟩

/-- The place of the page is taken by a link to the output, so in the end they are one file. -/
example :
    let r : Request := { Request.standard (.ofText "in".toList) (.ofText "out".toList) with
      inputFile := "site.css".toList, html := true }
    let t : Tree := Tree.empty
      |>.put ["in".toList] .directory
      |>.put ["out".toList] .directory
      |>.putFile ["in".toList, "site.css".toList] (.text ".a \x7b color: red; \x7d".toList)
      |>.put ["out".toList, "site.formatted.css.html".toList]
        (.link (.ofText "site.formatted.css".toList))
    let run := (r.carryOut .standard .standard).start t
    run.result.isOk = true ∧
      run.tree.node? (.ofText "out/site.formatted.css".toList) = some t.fresh ∧
      run.tree.node? (.ofText "out/site.formatted.css.html".toList) = some t.fresh := by
  decide +kernel

end Request
end Galley
