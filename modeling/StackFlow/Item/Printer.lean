import StackFlow.Item.Basic
import StackFlow.Text.Decimal

/-!
Items as readable expressions. Operators stand between their operands, and a compound operand of an
operator is parenthesised.
-/

namespace StackFlow.Item

def operatorSign? (producer : String) : Option String :=
  [("ADD", "+"), ("SUB", "-"), ("MUL", "*"), ("AND", "&"), ("OR", "|"), ("XOR", "^")].lookup producer

def comparisonSign? (producer : String) : Option String :=
  [("EQ", "=="), ("NEQ", "<>"), ("LT", "<"), ("GT", ">"), ("LE", "<="), ("GE", ">=")].lookup producer

/-- What the text of an item's surroundings needs of it: its text, its text as an operand of an
operator, and, for a comparison of two items, the texts of both sides as operands. -/
structure Rendered where
  text : String
  operand : String
  sides : Option (String × String)
deriving Inhabited

def commaList (parts : List String) : String := ", ".intercalate parts

/-- A concrete structure over the texts of its parts. -/
def structureText (ty : Ty) (tag : Option String) (parts : List String) : String :=
  match tag, parts with
  | some "Elt", [k, v] => k ++ ": " ++ v
  | some t, _ => t ++ "(" ++ commaList parts ++ ")"
  | none, _ =>
    if ty.is "pair" then "(" ++ commaList parts ++ ")"
    else if ty.is "map" || ty.is "big_map" then "\x7b" ++ commaList parts ++ "\x7d"
    else if ty.is "set" then "SET[" ++ commaList parts ++ "]"
    else "[" ++ commaList parts ++ "]"

/-- The text of an item that no instruction made. -/
def valueText (ty : Ty) (annots : List String) (literal : Option Literal) (parts : List String) :
    String :=
  match literal with
  | none =>
    if !parts.isEmpty then structureText ty none parts
    else if annots.headD "" != "" then annots.headD "" ++ ":" ++ ty.text
    else ty.text
  | some (.int n) => Decimal.text n
  | some (.bool b) => if b then "True" else "False"
  | some (.text s) =>
    if !parts.isEmpty then structureText ty (some s) parts
    else if ty.is "string" then Text.quote s
    else s

/-- The text of an instruction's result. Operands come in the order in which they were taken from
the stack. -/
def resultText (producer : String) (ops : List Rendered) : String :=
  let operand (i : Nat) : String := (ops[i]?.map Rendered.text).getD "?"
  let call (name : String) (args : List String) : String := name ++ "(" ++ commaList args ++ ")"
  let plain : String :=
    if ops.isEmpty then producer else call producer (ops.map Rendered.text)
  match operatorSign? producer, comparisonSign? producer, ops with
  | some sign, _, [a, b] => a.operand ++ " " ++ sign ++ " " ++ b.operand
  | _, some sign, [c] =>
    match c.sides with
    | some (a, b) => a ++ " " ++ sign ++ " " ++ b
    | none => plain
  | _, _, _ =>
    match producer with
    | "FAILWITH" => call "FAIL" [operand 0]
    | "IMPLICIT_ACCOUNT" => call "CONTRACT" [operand 0]
    | "TRANSFER_TOKENS" => call "TRANSFER_TO" [operand 2, operand 1, operand 0]
    | "CHECK_SIGNATURE" => call "CHECK_SIG" [operand 0, operand 1, operand 2]
    | "MEM" => "(" ++ operand 0 ++ " IN " ++ operand 1 ++ ")"
    | "GET" => operand 1 ++ ".GET(" ++ operand 0 ++ ")"
    | "EXEC" => operand 1 ++ ".EXEC(" ++ operand 0 ++ ")"
    | "NOT" =>
      match ops with
      | [a] => "!" ++ a.operand
      | _ => plain
    | _ => plain

/-- A text as the operand of an operator. -/
def operandText (producer : String) (text : String) : String :=
  if (operatorSign? producer).isSome then "(" ++ text ++ ")"
  else if (comparisonSign? producer).isSome && text.toList.contains ' ' then "(" ++ text ++ ")"
  else text

def Rendered.ofNode (ty : Ty) (annots : List String) (producer : String) (literal : Option Literal)
    (ops : List Rendered) : Rendered :=
  let text := if producer == "" then valueText ty annots literal (ops.map Rendered.text)
    else resultText producer ops
  { text
    operand := operandText producer text
    sides := match producer, ops with
      | "COMPARE", [a, b] => some (a.operand, b.operand)
      | _, _ => none }

mutual

def rendered : Item → Rendered
  | .absent => ⟨"<nil>", "<nil>", none⟩
  | .node ty annots producer literal ops =>
    Rendered.ofNode ty annots producer literal (renderedAll ops)

def renderedAll : List Item → List Rendered
  | [] => []
  | x :: xs => x.rendered :: renderedAll xs

end

def text (x : Item) : String := x.rendered.text

end StackFlow.Item
