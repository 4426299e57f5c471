import StackFlow.Text.CodeSet

/-!
Regular expressions over texts. Of the matches that start at a place the preferred one counts: the
first alternative before the second, and a repetition takes as much as it can, or as little.
-/

namespace StackFlow

/-- A place between two characters: the one before it, and the text behind it. -/
structure Spot where
  before : Option Char
  rest : List Char

/-- A condition on a place. -/
inductive Anchor where
  | textStart
  | textEnd
  | lineStart
  | lineEnd
  | wordEdge
  | notWordEdge
deriving Repr, DecidableEq

inductive Regex where
  | empty
  /-- One character of a set. -/
  | chars (set : CodeSet)
  | anchor (a : Anchor)
  | seq (a b : Regex)
  | alt (a b : Regex)
  /-- As often as possible if `greedy`, else as rarely as possible. -/
  | star (greedy : Bool) (a : Regex)
  /-- At least once. -/
  | plus (greedy : Bool) (a : Regex)
deriving Repr

def isWordChar (c : Char) : Bool := c.isAlphanum || c == '_'

namespace Anchor

def holds (a : Anchor) (p : Spot) : Bool :=
  let left := (p.before.map isWordChar).getD false
  let right := (p.rest.head?.map isWordChar).getD false
  match a with
  | textStart => p.before.isNone
  | textEnd => p.rest.isEmpty
  | lineStart => p.before.isNone || p.before == some '\n'
  | lineEnd => p.rest.isEmpty || p.rest.head? == some '\n'
  | wordEdge => left != right
  | notWordEdge => left == right

end Anchor

namespace Regex

/-- Once or not at all. -/
def option (greedy : Bool) (a : Regex) : Regex :=
  if greedy then .alt a .empty else .alt .empty a

/-- Whether an expression may match without taking a character. -/
def nullable : Regex → Bool
  | empty => true
  | chars _ => false
  | anchor _ => true
  | seq a b => a.nullable && b.nullable
  | alt a b => a.nullable || b.nullable
  | star _ _ => true
  | plus _ a => a.nullable

end Regex

end StackFlow
