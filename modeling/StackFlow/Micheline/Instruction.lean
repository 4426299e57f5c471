import StackFlow.Micheline.Expr
import StackFlow.Text.Decimal

/-!
Instructions, nested as they are written. An instruction is an operation with arguments or a
bracketed group; an argument is a literal payload or code.
-/

namespace StackFlow.Micheline

mutual

inductive Instruction where
  | op (name : String) (annots : List String) (args : List Arg)
  | group (body : List Instruction)

inductive Arg where
  | literal (e : Expr)
  | code (body : List Instruction)

end

instance : Inhabited Instruction := ⟨.group []⟩
instance : Inhabited Arg := ⟨.code []⟩

abbrev Code := List Instruction

namespace Arg

def literal? : Arg → Option Expr
  | .literal e => some e
  | .code _ => none

def code? : Arg → Option Code
  | .literal _ => none
  | .code body => some body

end Arg

namespace Instruction

/-- The name of an operation; a group has none. -/
def name : Instruction → String
  | .op n _ _ => n
  | .group _ => ""

def annots : Instruction → List String
  | .op _ as _ => as
  | .group _ => []

def args : Instruction → List Arg
  | .op _ _ as => as
  | .group _ => []

/-- The instructions that a group brackets. -/
def body : Instruction → Code
  | .op .. => []
  | .group b => b

/-- An operation without a name counts as an empty group. -/
def isGroup (i : Instruction) : Bool := i.name == ""

/-- The integer at an argument position, if one stands there and fits a word. -/
def intArg? (i : Instruction) (idx : Nat) : Option Int :=
  match i.args[idx]? with
  | some (.literal (.int t)) => Decimal.readWord? t
  | _ => none

def intArg (i : Instruction) (idx : Nat) (dflt : Int) : Int :=
  (i.intArg? idx).getD dflt

/-- The code arguments, in order. -/
def codeArgs (i : Instruction) : List Code := i.args.filterMap Arg.code?

/-- The literal arguments, in order. -/
def literalArgs (i : Instruction) : List Expr := i.args.filterMap Arg.literal?

mutual

def text : Instruction → String
  | .group body => "\x7b" ++ "; ".intercalate (texts body) ++ "\x7d"
  | .op name annots args =>
    if name == "" then "\x7b\x7d"
    else " ".intercalate (name :: (annots ++ argTexts args))

def texts : List Instruction → List String
  | [] => []
  | i :: is => i.text :: texts is

def argTexts : List Arg → List String
  | [] => []
  | .literal e :: as => e.argText :: argTexts as
  | .code body :: as => ("\x7b" ++ "; ".intercalate (texts body) ++ "\x7d") :: argTexts as

end

end Instruction

/-- Text of a code list as it stands between braces. -/
def Code.groupText (code : Code) : String := (Instruction.group code).text

end StackFlow.Micheline
