import StackFlow.Micheline.Instruction
import StackFlow.Stack

/-!
What each straight-line instruction does. The table maps names to rules; most instructions are
operators, which take operands and push one derived item.
-/

namespace StackFlow

open Micheline (Instruction Code)

/-- How the type of an operator's result follows from its operands, the topmost first. -/
inductive ResultTy where
  | fixed (t : Ty)
  | sameAs (operand : Nat)
  | optionOf (operand : Nat)
  | additive
  | multiplicative
  | euclidean
  | bitwiseAnd
  | mapValue
  | lambdaResult
  /-- An option over the type argument. -/
  | optionOfArg
  /-- An option over a contract of the type argument. -/
  | contractOfArg

inductive EnvField where
  | self | amount | balance | sender | source | chainId | now

def EnvField.read (e : Env) : EnvField → String
  | .self => e.self
  | .amount => e.amount
  | .balance => e.balance
  | .sender => e.sender
  | .source => e.source
  | .chainId => e.chainId
  | .now => e.now

/-- The two sides of a pair or a variant. -/
inductive Side where
  | left | right
deriving DecidableEq

def Side.index : Side → Nat
  | .left => 0
  | .right => 1

inductive Rule where
  | dup | drop | swap | dig | dug | cursor | failWith
  | push | unit | lambda
  /-- An empty collection or absent option: its type constructor, the number of type arguments and
  its text. -/
  | empty (container : String) (arity : Nat) (literal : String)
  | read (t : Ty) (field : EnvField)
  | project (side : Side)
  | unpair | pair | some
  | inject (side : Side)
  | cast | rename
  | operator (arity : Nat) (result : ResultTy)
  | concat | createContract

/-- The straight-line instructions. -/
def Rule.table : List (String × Rule) := [
  ("DUP", .dup), ("DROP", .drop), ("SWAP", .swap), ("DIG", .dig), ("DUG", .dug),
  ("CURSOR", .cursor),
  ("PUSH", .push), ("UNIT", .unit),
  ("NIL", .empty "list" 1 "\x7b\x7d"), ("NONE", .empty "option" 1 "None"),
  ("EMPTY_SET", .empty "set" 1 "\x7b\x7d"), ("EMPTY_MAP", .empty "map" 2 "\x7b\x7d"),
  ("EMPTY_BIG_MAP", .empty "big_map" 2 "\x7b\x7d"), ("LAMBDA", .lambda),
  ("AMOUNT", .read Ty.mutez .amount), ("BALANCE", .read Ty.mutez .balance),
  ("SENDER", .read Ty.address .sender), ("SOURCE", .read Ty.address .source),
  ("SELF", .read (Ty.leaf "contract") .self), ("NOW", .read Ty.timestamp .now),
  ("CHAIN_ID", .read Ty.chainId .chainId),
  ("CAR", .project .left), ("CDR", .project .right), ("UNPAIR", .unpair), ("PAIR", .pair),
  ("SOME", .some), ("LEFT", .inject .left), ("RIGHT", .inject .right),
  ("CONS", .operator 2 (.sameAs 1)),
  ("COMPARE", .operator 2 (.fixed Ty.int)),
  ("EQ", .operator 1 (.fixed Ty.bool)), ("NEQ", .operator 1 (.fixed Ty.bool)),
  ("LT", .operator 1 (.fixed Ty.bool)), ("GT", .operator 1 (.fixed Ty.bool)),
  ("LE", .operator 1 (.fixed Ty.bool)), ("GE", .operator 1 (.fixed Ty.bool)),
  ("ADD", .operator 2 .additive), ("SUB", .operator 2 .additive),
  ("MUL", .operator 2 .multiplicative), ("EDIV", .operator 2 .euclidean),
  ("ABS", .operator 1 (.fixed Ty.nat)), ("NEG", .operator 1 (.fixed Ty.int)),
  ("ISNAT", .operator 1 (.fixed (Ty.option Ty.nat))), ("INT", .operator 1 (.fixed Ty.int)),
  ("NOT", .operator 1 (.sameAs 0)), ("AND", .operator 2 .bitwiseAnd),
  ("OR", .operator 2 (.sameAs 0)), ("XOR", .operator 2 (.sameAs 0)),
  ("CONCAT", .concat), ("SIZE", .operator 1 (.fixed Ty.nat)),
  ("SLICE", .operator 3 (.optionOf 2)), ("PACK", .operator 1 (.fixed Ty.bytes)),
  ("UNPACK", .operator 1 .optionOfArg),
  ("BLAKE2B", .operator 1 (.fixed Ty.bytes)), ("SHA256", .operator 1 (.fixed Ty.bytes)),
  ("SHA512", .operator 1 (.fixed Ty.bytes)), ("HASH_KEY", .operator 1 (.fixed Ty.keyHash)),
  ("CHECK_SIGNATURE", .operator 3 (.fixed Ty.bool)),
  ("MEM", .operator 2 (.fixed Ty.bool)), ("GET", .operator 2 .mapValue),
  ("UPDATE", .operator 3 (.sameAs 2)),
  ("ADDRESS", .operator 1 (.fixed Ty.address)), ("CONTRACT", .operator 1 .contractOfArg),
  ("IMPLICIT_ACCOUNT", .operator 1 (.fixed (.app "contract" [Ty.unit]))),
  ("TRANSFER_TOKENS", .operator 3 (.fixed Ty.operation)),
  ("SET_DELEGATE", .operator 1 (.fixed Ty.operation)), ("CREATE_CONTRACT", .createContract),
  ("EXEC", .operator 2 .lambdaResult),
  ("CAST", .cast), ("RENAME", .rename), ("FAILWITH", .failWith)]

def Rule.ofName? (name : String) : Option Rule := Rule.table.lookup name

/-- The instruction's annotations replace those of the item that it makes, if it has any. -/
def annotate (i : Instruction) (x : Item) : Item :=
  if i.annots.isEmpty then x else x.withAnnots i.annots

/-- The type at a position among the literal arguments. -/
def typeArg (i : Instruction) (idx : Nat) : Except Fault Ty :=
  match i.literalArgs[idx]? with
  | none => throw (.missingType i.name idx)
  | some e => (Ty.ofExpr e).mapError .notAType

/-- The first `n` type arguments. -/
def typeArgs (i : Instruction) : (n : Nat) → Except Fault (List Ty)
  | 0 => pure []
  | n + 1 => do
    let ts ← typeArgs i n
    let t ← typeArg i n
    pure (ts ++ [t])

/-- The item and the type of an operand; there is none beyond the operands taken. -/
def operandTy (ops : List Item) (k : Nat) : Ty := (ops.getD k .absent).ty

namespace ResultTy

/-- Whether the first two operands both have the type `name`. -/
def bothAre (ops : List Item) (name : String) : Bool :=
  (operandTy ops 0).is name && (operandTy ops 1).is name

def compute (i : Instruction) (ops : List Item) : ResultTy → Except Fault Ty
  | .fixed t => pure t
  | .sameAs k => pure (operandTy ops k)
  | .optionOf k => pure (Ty.option (operandTy ops k))
  | .additive => pure <|
    if bothAre ops "nat" then (if i.name == "SUB" then Ty.int else Ty.nat)
    else if bothAre ops "mutez" then Ty.mutez
    else if bothAre ops "timestamp" then Ty.int
    else if (operandTy ops 0).is "timestamp" || (operandTy ops 1).is "timestamp" then Ty.timestamp
    else Ty.int
  | .multiplicative => pure <|
    if bothAre ops "nat" then Ty.nat
    else if (operandTy ops 0).is "mutez" || (operandTy ops 1).is "mutez" then Ty.mutez
    else Ty.int
  | .euclidean => pure <| Ty.option <|
    if bothAre ops "nat" then Ty.pair Ty.nat Ty.nat
    else if bothAre ops "mutez" then Ty.pair Ty.nat Ty.mutez
    else if (operandTy ops 0).is "mutez" && (operandTy ops 1).is "nat" then Ty.pair Ty.mutez Ty.mutez
    else Ty.pair Ty.int Ty.nat
  | .bitwiseAnd => pure <|
    if (operandTy ops 0).is "nat" || (operandTy ops 1).is "nat" then Ty.nat else operandTy ops 0
  | .mapValue => pure (Ty.option ((operandTy ops 1).arg 1))
  | .lambdaResult => pure ((operandTy ops 1).arg 1)
  | .optionOfArg => Ty.option <$> typeArg i 0
  | .contractOfArg => (fun t => Ty.option (.app "contract" [t])) <$> typeArg i 0

end ResultTy

/-- A component of a pair: the component itself when the pair is concrete, otherwise a projection
over it. -/
def project (src : Item) (name : String) (side : Side) : Item :=
  if src.isConcretePair then src.operands.getD side.index .absent
  else .derived (src.ty.arg side.index) name [src]

namespace Rule

def ofExcept {α : Type} : Except Fault α → Action α
  | .ok a => pure a
  | .error e => throw e

/-- Takes the operands first, so they are gone when the result's type cannot be told. -/
def runOperator (i : Instruction) (arity : Nat) (result : ResultTy) : Action Unit := do
  let ops ← Action.pop arity
  let t ← ofExcept (result.compute i ops)
  Action.push (annotate i (.derived t i.name ops))

def runPush (i : Instruction) : Action Unit :=
  match i.literalArgs with
  | [t, v] => do
    let ty ← ofExcept ((Ty.ofExpr t).mapError .pushedNoType)
    let x ← ofExcept ((Item.ofValue ty v).mapError .badLiteral)
    Action.push (annotate i x)
  | lits => throw (.pushArity lits.length)

def runLambda (i : Instruction) : Action Unit := do
  let arg ← ofExcept (typeArg i 0)
  let ret ← ofExcept (typeArg i 1)
  let body := (i.codeArgs.head?.map Code.groupText).getD ""
  Action.push (annotate i (.ofText (.app "lambda" [arg, ret]) body))

def runInject (i : Instruction) (side : Side) : Action Unit := do
  let other ← ofExcept (typeArg i 0)
  let ops ← Action.pop 1
  let x := ops.headD .absent
  Action.push <| annotate i <|
    match side with
    | .left => .composite (.app "or" [x.ty, other]) (.some "Left") [x]
    | .right => .composite (.app "or" [other, x.ty]) (.some "Right") [x]

def run (i : Instruction) : Rule → Action Unit
  | .dup => do
    let n := i.intArg 0 1
    if n < 1 then throw (.badLevel n)
    Action.push (← Action.peek (n - 1))
  | .drop => do
    let _ ← Action.pop (i.intArg 0 1)
  | .swap => do
    let ops ← Action.pop 2
    Action.push (ops.getD 0 .absent)
    Action.push (ops.getD 1 .absent)
  | .dig => do
    Action.push (← Action.popAt (i.intArg 0 0))
  | .dug => do
    let n := i.intArg 0 0
    if (← get).depth ≤ n then Action.underflow n
    let x ← Action.popAt 0
    Action.pushAt n x
  | .cursor => Action.shift (i.intArg 0 0)
  | .failWith => do
    let ops ← Action.pop 1
    Action.fail (ops.headD .absent)
  | .push => runPush i
  | .unit => Action.push (annotate i (.ofText Ty.unit "Unit"))
  | .lambda => runLambda i
  | .empty container arity literal => do
    let args ← ofExcept (typeArgs i arity)
    Action.push (annotate i (.ofText (.app container args) literal))
  | .read t field => do
    let env := (← get).env.getD Env.default
    Action.push (annotate i (.ofText t (field.read env)))
  | .project side => do
    let ops ← Action.pop 1
    Action.push (annotate i (StackFlow.project (ops.headD .absent) i.name side))
  | .unpair => do
    let ops ← Action.pop 1
    Action.push (StackFlow.project (ops.headD .absent) "CDR" .right)
    Action.push (StackFlow.project (ops.headD .absent) "CAR" .left)
  | .pair => do
    let ops ← Action.pop 2
    let a := ops.getD 0 .absent
    let b := ops.getD 1 .absent
    Action.push (annotate i (.composite (Ty.pair a.ty b.ty) none [a, b]))
  | .some => do
    let ops ← Action.pop 1
    let x := ops.headD .absent
    Action.push (annotate i (.composite (Ty.option x.ty) (Option.some "Some") [x]))
  | .inject side => runInject i side
  | .cast => do
    let t ← ofExcept (typeArg i 0)
    let x ← Action.top
    Action.replace 0 (annotate i (x.withTy t))
  | .rename => do
    let x ← Action.top
    Action.replace 0 (x.withAnnots i.annots)
  | .operator arity result => runOperator i arity result
  | .concat => do
    let x ← Action.top
    if x.ty.is "list" then runOperator i 1 (.fixed (x.ty.arg 0))
    else runOperator i 2 (.sameAs 0)
  | .createContract => do
    let ops ← Action.pop 3
    Action.push (.derived Ty.address "CREATE_CONTRACT.address" ops)
    Action.push (annotate i (.derived Ty.operation i.name ops))

end Rule

/-- Applies a straight-line instruction. -/
def Stack.step (i : Instruction) : Action Unit :=
  match Rule.ofName? i.name with
  | some r => r.run i
  | none => throw (.unsupported i.name)

end StackFlow
