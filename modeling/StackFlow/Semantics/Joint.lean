import StackFlow.Semantics.Rule

/-!
Branching instructions. A joint takes its guard from the stack and sends one stack along each of its
two edges.
-/

namespace StackFlow

inductive Joint where
  | cond | condLeft | condNone | condCons | loop | loopLeft | iter
deriving DecidableEq, Repr

namespace Joint

def all : List Joint := [.cond, .condLeft, .condNone, .condCons, .loop, .loopLeft, .iter]

def name : Joint → String
  | .cond => "IF"
  | .condLeft => "IF_LEFT"
  | .condNone => "IF_NONE"
  | .condCons => "IF_CONS"
  | .loop => "LOOP"
  | .loopLeft => "LOOP_LEFT"
  | .iter => "ITER"

def ofName? (n : String) : Option Joint := all.find? (·.name == n)

/-- A loop comes back to itself along its first edge. -/
def isLoop : Joint → Bool
  | .loop | .loopLeft | .iter => true
  | _ => false

/-- The labels of the two edges. -/
def labels : Joint → String × String
  | .cond => ("true", "false")
  | .condLeft => ("left", "right")
  | .condNone => ("none", "some")
  | .condCons => ("cons", "nil")
  | .loop | .loopLeft | .iter => ("continue", "exit")

/-- The item that an arm of a joint pushes for its guard. -/
def payload (label : String) (t : Ty) (guard : Item) : Item := .derived t label [guard]

/-- The type of the elements that a collection yields; a map yields pairs. -/
def elementTy (t : Ty) : Ty :=
  if t.is "map" || t.is "big_map" then Ty.pair (t.arg 0) (t.arg 1) else t.arg 0

/-- What the two edges push for a guard, the deepest item first. The continue edge of an iteration
is left out here: it also hides the rest of the collection. -/
def payloads (guard : Item) : Joint → List Item × List Item
  | .cond | .loop => ([], [])
  | .condLeft =>
    ([payload "IF_LEFT.0" (guard.ty.arg 0) guard], [payload "IF_LEFT.1" (guard.ty.arg 1) guard])
  | .loopLeft =>
    ([payload "LOOP_LEFT.0" (guard.ty.arg 0) guard], [payload "LOOP_LEFT.1" (guard.ty.arg 1) guard])
  | .condNone => ([], [payload "IF_NONE.some" (guard.ty.arg 0) guard])
  | .condCons =>
    ([payload "IF_CONS.tail" guard.ty guard, payload "IF_CONS.head" (guard.ty.arg 0) guard], [])
  | .iter => ([], [])

/-- Pushes items in order, so that the last one ends on top. -/
def pushAll (s : Stack) (xs : List Item) : Stack :=
  { s with visible := xs.reverse ++ s.visible }

/-- The continue edge of an iteration: the rest of the collection is hidden, and the next element
lies on top of what was visible. -/
def enterBody (coll : Item) : Action Unit := do
  Action.push (payload "ITER.rest" coll.ty coll)
  Action.shift 1
  Action.push (payload "ITER.elem" (elementTy coll.ty) coll)

/-- The stack that an action makes, and the stack as it is. -/
def beside (a : Action Unit) : Action (Stack × Stack) := do
  let s ← get
  match a.run s with
  | .ok _ made => pure (made, s)
  | .error e _ => throw e

/-- The stacks for the two edges. -/
def branch (j : Joint) : Action (Stack × Stack) := do
  let ops ← Action.pop 1
  let guard := ops.headD .absent
  match j with
  | .iter => beside (enterBody guard)
  | _ =>
    let s ← get
    let (first, second) := j.payloads guard
    pure (pushAll s first, pushAll s second)

end Joint

/-- Whether a name is an instruction of the table, branching or not. -/
def supports (name : String) : Bool :=
  (Rule.ofName? name).isSome || (Joint.ofName? name).isSome

/-- Splits a stack at a branching instruction. -/
def Stack.split (name : String) : Action (Stack × Stack) :=
  match Joint.ofName? name with
  | some j => j.branch
  | none => throw (.unsupported name)

end StackFlow
