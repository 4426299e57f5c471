import StackFlow.Json.Writer
import StackFlow.Micheline.Instruction

/-!
The canonical JSON form of code. Empty parts are left out, so an empty group and an empty code
argument are both written as an empty object.
-/

namespace StackFlow.Micheline

open Json (Value)

mutual

def Expr.toJson : Expr → Value
  | .int t => .obj (("kind", .ofNat Expr.Kind.int.code) :: Value.unlessBlank "text" t)
  | .string t => .obj (("kind", .ofNat Expr.Kind.string.code) :: Value.unlessBlank "text" t)
  | .bytes t => .obj (("kind", .ofNat Expr.Kind.bytes.code) :: Value.unlessBlank "text" t)
  | .seq items =>
    .obj (("kind", .ofNat Expr.Kind.seq.code) :: Value.unlessEmpty "args" (exprsToJson items))
  | .prim name annots args =>
    .obj (("kind", .ofNat Expr.Kind.prim.code) :: Value.unlessBlank "prim" name
      ++ Value.unlessEmpty "annots" (annots.map .str) ++ Value.unlessEmpty "args" (exprsToJson args))

def exprsToJson : List Expr → List Value
  | [] => []
  | e :: es => e.toJson :: exprsToJson es

end

mutual

def Instruction.toJson : Instruction → Value
  | .op name annots args =>
    .obj (Value.unlessBlank "prim" name ++ Value.unlessEmpty "annots" (annots.map .str)
      ++ Value.unlessEmpty "args" (argsToJson args))
  | .group body => .obj (Value.unlessEmpty "body" (codeToJson body))

def argsToJson : List Arg → List Value
  | [] => []
  | .literal e :: as => .obj [("expr", e.toJson)] :: argsToJson as
  | .code body :: as => .obj (Value.unlessEmpty "code" (codeToJson body)) :: argsToJson as

def codeToJson : List Instruction → List Value
  | [] => []
  | i :: is => i.toJson :: codeToJson is

end

def Code.toJson (code : Code) : Value := .arr (codeToJson code)

end StackFlow.Micheline
