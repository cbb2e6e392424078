/-
# Rules in the order of a walk

A walk through a tree meets every rule before the rules inside it.  `Rule.preorderAll` lists what
it meets, each rule with its depth: that of the rules at the top is the depth at which the walk
begins.

Two parts of the list are of use apart from each other.  `Rule.headings` are its rules other than
comments, with their depths; `Rule.comments` are its comments.  A comment may stand in front of a
rule in the tree that has begun before it in the text, as in `a /* c */ b { }`, so the places of
the two parts are in order but those of the whole list need not be.
-/

import Galley.Proofs.Stylesheet.Normal

namespace Galley
namespace Stylesheet
namespace Rule

/-- The place of a rule. -/
def position : Rule → Position
  | .comment _ p => p
  | .style _ _ _ p => p
  | .statement _ _ p => p
  | .group _ _ _ _ p => p

/-- Whether a rule is a comment. -/
def isComment : Rule → Bool
  | .comment _ _ => true
  | _ => false

/-- Whether a rule has a block of its own. -/
def hasBlock : Rule → Bool
  | .style _ _ _ _ => true
  | .group _ _ _ _ _ => true
  | _ => false

mutual
/-- A rule and the rules inside it, each with its depth. -/
def preorder (depth : Nat) : Rule → List (Nat × Rule)
  | .comment t p => [(depth, .comment t p)]
  | .statement k pre p => [(depth, .statement k pre p)]
  | .group k pre ds children p =>
    (depth, .group k pre ds children p) :: preorderAll (depth + 1) children
  | .style s ds children p => (depth, .style s ds children p) :: preorderAll (depth + 1) children

/-- Several rules and the rules inside them, each with its depth. -/
def preorderAll (depth : Nat) : List Rule → List (Nat × Rule)
  | [] => []
  | r :: rs => preorder depth r ++ preorderAll depth rs
end

/-- The rules that are not comments, in the order of the walk and with their depths. -/
def headings (depth : Nat) (rs : List Rule) : List (Nat × Rule) :=
  (preorderAll depth rs).filter fun x => !x.2.isComment

/-- All rules in the order of the walk. -/
def listed (rs : List Rule) : List Rule := (preorderAll 0 rs).map Prod.snd

/-- The comments in the order of the walk. -/
def comments (rs : List Rule) : List Rule := (listed rs).filter isComment

/-- The number of style rules and groups. -/
def blockCount (rs : List Rule) : Nat := (listed rs).countP hasBlock

variable {depth : Nat} {ds : List Declaration} {children rs rs' : List Rule} {p : Position}
  {k pre s t : Text}

theorem preorderAll_append :
    preorderAll depth (rs ++ rs') = preorderAll depth rs ++ preorderAll depth rs' := by
  induction rs with
  | nil => rfl
  | cons r rs ih => rw [List.cons_append, preorderAll, preorderAll, ih, List.append_assoc]

/-- **Which rules a walk meets** does not depend on the depth at which it begins. -/
theorem map_snd_preorderAll (depth depth' : Nat) (rs : List Rule) :
    (preorderAll depth rs).map Prod.snd = (preorderAll depth' rs).map Prod.snd := by
  induction rs using forest_induction generalizing depth depth' with
  | nil => rfl
  | comment t p rs ih => simp [preorderAll, preorder, ih depth depth']
  | statement k pre p rs ih => simp [preorderAll, preorder, ih depth depth']
  | group k pre ds children p rs ihc ih =>
    simp [preorderAll, preorder, ih depth depth', ihc (depth + 1) (depth' + 1)]
  | style s ds children p rs ihc ih =>
    simp [preorderAll, preorder, ih depth depth', ihc (depth + 1) (depth' + 1)]

/-! ### Headings -/

@[simp] theorem headings_nil : headings depth [] = [] := rfl

@[simp] theorem headings_append :
    headings depth (rs ++ rs') = headings depth rs ++ headings depth rs' := by
  rw [headings, preorderAll_append, List.filter_append]
  rfl

@[simp] theorem headings_comment :
    headings depth (.comment t p :: rs) = headings depth rs := rfl

@[simp] theorem headings_statement :
    headings depth (.statement k pre p :: rs) =
      (depth, .statement k pre p) :: headings depth rs := rfl

@[simp] theorem headings_group :
    headings depth (.group k pre ds children p :: rs) =
      (depth, .group k pre ds children p) ::
        (headings (depth + 1) children ++ headings depth rs) := by
  simp [headings, preorderAll, preorder, isComment]

@[simp] theorem headings_style :
    headings depth (.style s ds children p :: rs) =
      (depth, .style s ds children p) ::
        (headings (depth + 1) children ++ headings depth rs) := by
  simp [headings, preorderAll, preorder, isComment]

/-! ### Comments and blocks -/

theorem listed_append : listed (rs ++ rs') = listed rs ++ listed rs' := by
  rw [listed, preorderAll_append, List.map_append]
  rfl

theorem listed_comment : listed (.comment t p :: rs) = .comment t p :: listed rs := rfl

theorem listed_statement :
    listed (.statement k pre p :: rs) = .statement k pre p :: listed rs := rfl

theorem listed_group :
    listed (.group k pre ds children p :: rs) =
      .group k pre ds children p :: (listed children ++ listed rs) := by
  simp [listed, preorderAll, preorder, map_snd_preorderAll 1 0]

theorem listed_style :
    listed (.style s ds children p :: rs) =
      .style s ds children p :: (listed children ++ listed rs) := by
  simp [listed, preorderAll, preorder, map_snd_preorderAll 1 0]

@[simp] theorem comments_nil : comments [] = [] := rfl

@[simp] theorem comments_append : comments (rs ++ rs') = comments rs ++ comments rs' := by
  simp [comments, listed_append]

@[simp] theorem comments_comment :
    comments (.comment t p :: rs) = .comment t p :: comments rs := rfl

@[simp] theorem comments_statement : comments (.statement k pre p :: rs) = comments rs := rfl

@[simp] theorem comments_group :
    comments (.group k pre ds children p :: rs) = comments children ++ comments rs := by
  simp [comments, listed_group, isComment]

@[simp] theorem comments_style :
    comments (.style s ds children p :: rs) = comments children ++ comments rs := by
  simp [comments, listed_style, isComment]

@[simp] theorem blockCount_nil : blockCount [] = 0 := rfl

@[simp] theorem blockCount_append : blockCount (rs ++ rs') = blockCount rs + blockCount rs' := by
  simp [blockCount, listed_append]

@[simp] theorem blockCount_comment : blockCount (.comment t p :: rs) = blockCount rs := by
  simp [blockCount, listed_comment, hasBlock]

@[simp] theorem blockCount_statement :
    blockCount (.statement k pre p :: rs) = blockCount rs := by
  simp [blockCount, listed_statement, hasBlock]

@[simp] theorem blockCount_group :
    blockCount (.group k pre ds children p :: rs) = blockCount children + blockCount rs + 1 := by
  simp [blockCount, listed_group, List.countP_cons, hasBlock]

@[simp] theorem blockCount_style :
    blockCount (.style s ds children p :: rs) = blockCount children + blockCount rs + 1 := by
  simp [blockCount, listed_style, List.countP_cons, hasBlock]

/-- A walk through comments meets them and nothing else. -/
theorem preorderAll_of_comments (h : ∀ r ∈ rs, r.isComment = true) :
    preorderAll depth rs = rs.map fun r => (depth, r) := by
  induction rs with
  | nil => rfl
  | cons r rs ih =>
    obtain ⟨hr, hrs⟩ := List.forall_mem_cons.1 h
    rw [preorderAll, ih hrs]
    cases r with
    | comment t p => rfl
    | style s ds children p => simp [isComment] at hr
    | statement k pre p => simp [isComment] at hr
    | group k pre ds children p => simp [isComment] at hr

end Rule

/-! ### Comments among tokens -/

/-- The comment rules of the comments among some tokens. -/
def Token.comments (ts : List Token) : List Rule :=
  (ts.filter fun t => t.kind = .comment).map Token.toComment

/-- The comments of a phrase are those among its tokens. -/
theorem Phrase.comments_read (stops : Text) (ts : List Token) :
    (Phrase.read stops ts).comments = Token.comments (ts.takeWhile fun t => !t.isStop stops) :=
  Phrase.comments_readFrom false false ts

namespace Token

variable {ts us : List Token}

@[simp] theorem comments_append : comments (ts ++ us) = comments ts ++ comments us := by
  simp [comments]

theorem isComment_of_mem_comments : ∀ r ∈ comments ts, r.isComment = true := by
  intro r hr
  obtain ⟨t, -, rfl⟩ := List.mem_map.1 hr
  rfl

@[simp] theorem headings_comments (depth : Nat) : Rule.headings depth (comments ts) = [] := by
  rw [Rule.headings, Rule.preorderAll_of_comments isComment_of_mem_comments,
    List.filter_eq_nil_iff]
  rintro x hx
  obtain ⟨r, hr, rfl⟩ := List.mem_map.1 hx
  simp [isComment_of_mem_comments r hr]

theorem listed_comments : Rule.listed (comments ts) = comments ts := by
  simp [Rule.listed, Rule.preorderAll_of_comments isComment_of_mem_comments,
    Function.comp_def]

@[simp] theorem comments_comments : Rule.comments (comments ts) = comments ts := by
  rw [Rule.comments, listed_comments, List.filter_eq_self]
  exact isComment_of_mem_comments

@[simp] theorem blockCount_comments : Rule.blockCount (comments ts) = 0 := by
  rw [Rule.blockCount, listed_comments, List.countP_eq_zero]
  intro r hr
  obtain ⟨t, -, rfl⟩ := List.mem_map.1 hr
  simp [toComment, Rule.hasBlock]

end Token

end Stylesheet
end Galley
