import StackFlow.Text.Quoted

/-!
Literal payloads of instructions: the `int` and the `1` of `PUSH int 1`. Types and data share this
shape.
-/

namespace StackFlow.Micheline

inductive Expr where
  | int (text : String)
  | string (text : String)
  | bytes (text : String)
  | seq (items : List Expr)
  | prim (name : String) (annots : List String) (args : List Expr)
deriving Inhabited, BEq, Repr

/-- The five shapes of a payload. -/
inductive Expr.Kind where
  | prim | int | string | bytes | seq
deriving DecidableEq, Repr

namespace Expr

def Kind.name : Kind → String
  | .prim => "prim"
  | .int => "int"
  | .string => "string"
  | .bytes => "bytes"
  | .seq => "seq"

/-- The number that stands for the kind in the canonical form. -/
def Kind.code : Kind → Nat
  | .prim => 0
  | .int => 1
  | .string => 2
  | .bytes => 3
  | .seq => 4

def kind : Expr → Kind
  | .int _ => .int
  | .string _ => .string
  | .bytes _ => .bytes
  | .seq _ => .seq
  | .prim .. => .prim

/-- An application with arguments is parenthesised where it is an argument itself. -/
def isApplication : Expr → Bool
  | .prim _ _ (_ :: _) => true
  | _ => false

mutual

def text : Expr → String
  | .int t => t
  | .string t => Text.quote t
  | .bytes t => "0x" ++ t
  | .seq items => "\x7b" ++ "; ".intercalate (itemTexts items) ++ "\x7d"
  | .prim name _ args => " ".intercalate (name :: argTexts args)

def itemTexts : List Expr → List String
  | [] => []
  | e :: es => e.text :: itemTexts es

/-- Texts of the arguments of an application. -/
def argTexts : List Expr → List String
  | [] => []
  | e :: es => (if e.isApplication then "(" ++ e.text ++ ")" else e.text) :: argTexts es

end

/-- The text of a payload where it is an argument. -/
def argText (e : Expr) : String :=
  if e.isApplication then "(" ++ e.text ++ ")" else e.text

end Expr

end StackFlow.Micheline
