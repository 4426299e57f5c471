import StackFlow.Item.Printer

/-!
Concrete items from data literals, typed from the outside in.
-/

namespace StackFlow

open Micheline (Expr)

inductive LiteralError where
  | badInteger (text : String)
  | pairParts (found : Nat)
  | needsOne (tag : String)
  | unsupported (name : String) (ty : Ty)
deriving Repr

def LiteralError.message : LiteralError → String
  | .badInteger t => "invalid integer literal " ++ Text.quote t
  | .pairParts n => "Pair needs two components, got " ++ Decimal.natText n
  | .needsOne tag => tag ++ " needs one argument"
  | .unsupported name ty => "unsupported literal " ++ name ++ " for type " ++ ty.text

namespace Item

mutual

/-- The item for a literal of type `t`. -/
def ofValue (t : Ty) : Expr → Except LiteralError Item
  | .int s =>
    match Decimal.readInteger? s with
    | some n => pure (.ofLiteral t (.int n))
    | none => throw (.badInteger s)
  | .string s => pure (.ofText t s)
  | .bytes s => pure (.ofText t ("0x" ++ s))
  | .seq items =>
    if t.is "lambda" then pure (.ofText t (Expr.seq items).text)
    else if items.isEmpty then pure (.ofText t "\x7b\x7d")
    else do
      let parts ← ofElements t items
      pure (.composite t none parts)
  | .prim name _ args =>
    match name with
    | "Unit" | "None" => pure (.ofText t name)
    | "True" => pure (.ofLiteral t (.bool true))
    | "False" => pure (.ofLiteral t (.bool false))
    | "Pair" => ofParts t args
    | "Left" | "Some" => ofTagged t name (t.arg 0) args
    | "Right" => ofTagged t name (t.arg 1) args
    | _ => throw (.unsupported name t)

/-- A pair of two or more components; more than two stand for right-nested pairs. -/
def ofParts (t : Ty) : List Expr → Except LiteralError Item
  | [] => throw (.pairParts 0)
  | [_] => throw (.pairParts 1)
  | [a, b] => do
    let left ← ofValue (t.arg 0) a
    let right ← ofValue (t.arg 1) b
    pure (.composite t none [left, right])
  | a :: b :: c :: rest => do
    let left ← ofValue (t.arg 0) a
    let right ← ofParts (t.arg 1) (b :: c :: rest)
    pure (.composite t none [left, right])

/-- A variant with one payload. -/
def ofTagged (t : Ty) (tag : String) (payload : Ty) : List Expr → Except LiteralError Item
  | [v] => do
    let inner ← ofValue payload v
    pure (.composite t (some tag) [inner])
  | _ => throw (.needsOne tag)

/-- The elements of a collection; `Elt` pairs a key with its value. -/
def ofElements (t : Ty) : List Expr → Except LiteralError (List Item)
  | [] => pure []
  | .prim "Elt" _ [k, v] :: es => do
    let key ← ofValue (t.arg 0) k
    let val ← ofValue (t.arg 1) v
    let rest ← ofElements t es
    pure (.composite (Ty.pair (t.arg 0) (t.arg 1)) (some "Elt") [key, val] :: rest)
  | e :: es => do
    let x ← ofValue (t.arg 0) e
    let rest ← ofElements t es
    pure (x :: rest)

end

end Item

end StackFlow
