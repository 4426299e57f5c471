import StackFlow.Env
import StackFlow.ErrorKind
import StackFlow.Item.OfValue
import StackFlow.Item.Reduce

/-!
Symbolic stacks. The items of a stack are its hidden ones, which an enclosing block protects,
followed by its visible ones; instructions address visible items only. An operation that fails
leaves a stack behind, so operations are state transitions that keep the state on failure.
-/

namespace StackFlow

open Micheline (Expr)

/-- Why an instruction could not be applied. -/
inductive Fault where
  | unsupported (name : String)
  | underflow (index depth : Int)
  | badLevel (level : Int)
  | pushArity (found : Nat)
  | missingType (name : String) (index : Nat)
  | notAType (found : Expr.Kind)
  | pushedNoType (found : Expr.Kind)
  | badLiteral (cause : LiteralError)
  | outOfRange (low high : Nat)
deriving Repr

def notATypeMessage (found : Expr.Kind) : String := "expected a type expression, got " ++ found.name

def Fault.message : Fault → String
  | .unsupported name => "unsupported instruction: " ++ name
  | .underflow i d => "stack underflow: index " ++ Decimal.text i ++ ", depth " ++ Decimal.text d
  | .badLevel n => "DUP " ++ Decimal.text n ++ ": level must be positive"
  | .pushArity n => "PUSH: expected type and value, got " ++ Decimal.natText n ++ " arguments"
  | .missingType name i => name ++ ": missing type argument " ++ Decimal.natText i
  | .notAType k => notATypeMessage k
  | .pushedNoType k => "PUSH: " ++ notATypeMessage k
  | .badLiteral e => "PUSH: " ++ e.message
  | .outOfRange low high =>
    "runtime error: slice bounds out of range [" ++ Decimal.natText low ++ ":" ++
      Decimal.natText high ++ "]"

def Fault.kind : Fault → ErrorKind
  | .unsupported _ => .unsupported
  | .underflow .. => .underflow
  | _ => .other

/-- One execution state. `hidden` and `visible` start with their topmost item, and `trail` with the
tube left last. -/
structure Stack where
  hidden : List Item := []
  visible : List Item := []
  /-- How far the boundary of the hidden items lies behind the last item. No operation moves it
  there, but a stack may start out that way. -/
  beyond : Nat := 0
  trail : List Int := []
  env : Option Env := some Env.default
deriving Inhabited

abbrev Action := EStateM Fault Stack

namespace Stack

/-- All items, the topmost first. -/
def items (s : Stack) : List Item := s.hidden ++ s.visible

/-- Where the hidden items end. -/
def cursor (s : Stack) : Nat := s.hidden.length + s.beyond

/-- The number of visible items, or below zero what is missing to the boundary. -/
def depth (s : Stack) : Int := s.visible.length - s.beyond

/-- The tubes passed so far, in order. -/
def path (s : Stack) : List Int := s.trail.reverse

/-- A stack over `items` of which the first `cursor` are hidden. -/
def ofItems (items : List Item) (cursor : Nat) : Stack :=
  { hidden := items.take cursor, visible := items.drop cursor, beyond := cursor - items.length }

/-- A stack has failed when its topmost item, hidden or not, is a failure. -/
def isFailed (s : Stack) : Bool := s.items.head?.any Item.isFailure

/-- Notes that a tube was passed. -/
def visit (s : Stack) (id : Int) : Stack := { s with trail := id :: s.trail }

/-- Drops every item and leaves the failure. -/
def failWith (s : Stack) (reason : Item) : Stack :=
  { s with hidden := [], visible := [Item.failure reason], beyond := 0 }

end Stack

namespace Action

/-- Gives up at a position that is not visible. -/
def underflow {α : Type} (index : Int) : Action α := do
  throw (.underflow index (← get).depth)

def peek (i : Int) : Action Item := do
  let s ← get
  if i < 0 then underflow i
  else match s.visible[i.toNat]? with
    | some x => pure x
    | none => underflow i

def top : Action Item := peek 0

/-- Removes the topmost `n` visible items. -/
def pop (n : Int) : Action (List Item) := do
  let s ← get
  if n < 0 || s.depth < n then underflow (wrap (n - 1))
  else
    set { s with visible := s.visible.drop n.toNat }
    pure (s.visible.take n.toNat)

def popAt (i : Int) : Action Item := do
  let x ← peek i
  modify fun s => { s with visible := s.visible.eraseIdx i.toNat }
  pure x

/-- Puts an item on top of the visible ones; behind the last item there is no place for it. -/
def push (x : Item) : Action Unit := do
  let s ← get
  if s.depth < 0 then throw (.outOfRange s.cursor s.items.length)
  else set { s with visible := x :: s.visible, beyond := 0 }

/-- Inserts an item as the `i`-th visible one. -/
def pushAt (i : Int) (x : Item) : Action Unit := do
  let s ← get
  if i < 0 || s.depth < i then underflow i
  else set { s with visible := s.visible.insertIdx i.toNat x }

def replace (i : Int) (x : Item) : Action Unit := do
  let s ← get
  if i < 0 || s.depth ≤ i then underflow i
  else set { s with visible := s.visible.set i.toNat x }

/-- Moves the boundary between hidden and visible items. -/
def shift (delta : Int) : Action Unit := do
  let s ← get
  let next := wrap (s.cursor + delta)
  if next < 0 || (s.items.length : Int) < next then
    throw (.underflow next s.items.length)
  else
    set { s with
      hidden := s.items.take next.toNat
      visible := s.items.drop next.toNat
      beyond := 0 }

def fail (reason : Item) : Action Unit := modify fun s => s.failWith reason

end Action

end StackFlow
