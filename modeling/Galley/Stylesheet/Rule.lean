/-
# Rules of a stylesheet

A stylesheet is a list of rules.  A style rule and a block at-rule hold declarations and further
rules; a statement at-rule (`@import …;`) holds neither; a comment is a rule of its own among its
neighbours.  Inside a block the declarations are kept apart from the rules: the order within
either is that of the source.
-/

import Galley.Text.Position

namespace Galley
namespace Stylesheet

/-- A property with its value. -/
structure Declaration where
  property : Text
  value : Text
  important : Bool
  deriving DecidableEq, Repr

/-- A rule.  An at-rule ends with a semicolon (`statement`) or holds a block (`group`). -/
inductive Rule where
  | comment (text : Text) (position : Position)
  | style (selector : Text) (declarations : List Declaration) (children : List Rule)
      (position : Position)
  | statement (keyword prelude : Text) (position : Position)
  | group (keyword prelude : Text) (declarations : List Declaration) (children : List Rule)
      (position : Position)
  deriving Repr, Inhabited

/-- What stands between two braces. -/
structure Block where
  declarations : List Declaration
  rules : List Rule
  deriving Repr

namespace Block

/-- The block with nothing in it. -/
def empty : Block := ⟨[], []⟩

/-- A block with further rules before its own. -/
def withRules (rules : List Rule) (b : Block) : Block := ⟨b.declarations, rules ++ b.rules⟩

/-- A block with a further declaration, if any, before its own. -/
def withDeclaration (d : Option Declaration) (b : Block) : Block :=
  ⟨d.toList ++ b.declarations, b.rules⟩

end Block

namespace Rule

mutual
/-- Whether a rule has no declaration at any depth.  Comments have none; a statement at-rule is
never empty. -/
def isEmpty : Rule → Bool
  | .comment _ _ => true
  | .statement _ _ _ => false
  | .style _ ds children _ => ds.isEmpty && allEmpty children
  | .group _ _ ds children _ => ds.isEmpty && allEmpty children

/-- Whether none of several rules has a declaration at any depth. -/
def allEmpty : List Rule → Bool
  | [] => true
  | r :: rs => isEmpty r && allEmpty rs
end

/-- The number of style rules and the number of their declarations. -/
structure Tally where
  rules : Nat
  declarations : Nat
  deriving DecidableEq, Repr

/-- The sum of two tallies. -/
def Tally.add (a b : Tally) : Tally := ⟨a.rules + b.rules, a.declarations + b.declarations⟩

mutual
/-- Counts the style rules of a rule at every depth and the declarations directly in them. -/
def tally : Rule → Tally
  | .comment _ _ => ⟨0, 0⟩
  | .statement _ _ _ => ⟨0, 0⟩
  | .style _ ds children _ => Tally.add ⟨1, ds.length⟩ (tallyAll children)
  | .group _ _ _ children _ => tallyAll children

/-- Counts over several rules. -/
def tallyAll : List Rule → Tally
  | [] => ⟨0, 0⟩
  | r :: rs => Tally.add (tally r) (tallyAll rs)
end

end Rule
end Stylesheet
end Galley
