import StackFlow.Json.Value
import StackFlow.Micheline.Expr

/-!
Static types of stack values. A component that is not known is `unknown`, written `?`.
-/

namespace StackFlow

open Micheline (Expr)

inductive Ty where
  | unknown
  | app (name : String) (args : List Ty)
deriving Inhabited, BEq, Repr

namespace Ty

abbrev leaf (name : String) : Ty := .app name []

/-- The `i`-th component, unknown if there is none. -/
def arg : Ty → Int → Ty
  | .app _ args, i => if i < 0 then .unknown else args.getD i.toNat .unknown
  | .unknown, _ => .unknown

def is : Ty → String → Bool
  | .app name _, n => name == n
  | .unknown, _ => false

mutual

def text : Ty → String
  | .unknown => "?"
  | .app name [] => name
  | .app name (a :: as) => name ++ "(" ++ ", ".intercalate (a.text :: texts as) ++ ")"

def texts : List Ty → List String
  | [] => []
  | t :: ts => t.text :: texts ts

end

mutual

def toJson : Ty → Json.Value
  | .unknown => .null
  | .app name args => .obj (("prim", .str name) :: Json.Value.unlessEmpty "args" (listToJson args))

def listToJson : List Ty → List Json.Value
  | [] => []
  | t :: ts => t.toJson :: listToJson ts

end

def int : Ty := leaf "int"
def nat : Ty := leaf "nat"
def bool : Ty := leaf "bool"
def unit : Ty := leaf "unit"
def bytes : Ty := leaf "bytes"
def mutez : Ty := leaf "mutez"
def address : Ty := leaf "address"
def timestamp : Ty := leaf "timestamp"
def chainId : Ty := leaf "chain_id"
def keyHash : Ty := leaf "key_hash"
def operation : Ty := leaf "operation"

/-- The head of the type that marks a failed stack. -/
def failName : String := "fail"
def fail : Ty := leaf failName

def option (t : Ty) : Ty := .app "option" [t]
def pair (a b : Ty) : Ty := .app "pair" [a, b]

/-- Right-nested pairs over a list of components. -/
def comb : List Ty → Ty
  | [] => .app "pair" []
  | [t] => t
  | t :: ts => pair t (comb ts)

/-- A pair of more than two components stands for right-nested pairs. -/
def ofParts (name : String) (args : List Ty) : Ty :=
  if name == "pair" && 2 < args.length then comb args else .app name args

mutual

/-- The type that an expression denotes; the error is the kind of payload found instead. -/
def ofExpr : Expr → Except Expr.Kind Ty
  | .prim name _ args => do
    let args ← ofExprs args
    pure (ofParts name args)
  | .int _ => throw .int
  | .string _ => throw .string
  | .bytes _ => throw .bytes
  | .seq _ => throw .seq

def ofExprs : List Expr → Except Expr.Kind (List Ty)
  | [] => pure []
  | e :: es => do
    let t ← ofExpr e
    let ts ← ofExprs es
    pure (t :: ts)

end

end Ty

end StackFlow
