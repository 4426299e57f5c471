import StackFlow.Json.Display
import StackFlow.Json.Reader
import StackFlow.Micheline.Instruction
import StackFlow.Micheline.Node

/-!
Code from JSON. An array is a group or a code argument, except under `PUSH`, where it is data.
-/

namespace StackFlow.Micheline

open Json (Value)

inductive DecodeError where
  | malformed
  | badSection
  | badInstruction
  | badExpression
  | shape (kind : String)
  | noScript
  | sectionArity (name : String) (found : Nat)
  | notAType (name : String) (found : Expr.Kind)
  | unknownSection (name : String)
  | missingSection (name : String)
  | namelessInstruction (raw : Value)
  | namelessExpression (raw : Value)
  | within (name : String) (cause : DecodeError)

def DecodeError.message : DecodeError → String
  | .malformed => "failed to decode micheline: not a JSON value"
  | .badSection => "failed to decode section: unexpected kind of value"
  | .badInstruction => "failed to decode instruction: unexpected kind of value"
  | .badExpression => "failed to decode expression: unexpected kind of value"
  | .shape kind => "unexpected contract shape " ++ kind
  | .noScript => "contract object has neither script nor code"
  | .sectionArity name n =>
    "section " ++ Text.quote name ++ " expects one argument, got " ++ Decimal.natText n
  | .notAType name k => "invalid " ++ name ++ " type: expected a type expression, got " ++ k.name
  | .unknownSection name => "unknown section " ++ Text.quote name
  | .missingSection name => "contract missing " ++ name ++ " section"
  | .namelessInstruction raw => "instruction missing prim: " ++ raw.display
  | .namelessExpression raw => "expression has no prim: " ++ raw.display
  | .within name cause => name ++ ": " ++ cause.message

mutual

def decodeExpr (v : Value) : Except DecodeError Expr :=
  match v with
  | .arr items => do
    let es ← decodeExprs items
    pure (.seq es)
  | v =>
    match h : Node.ofValue? v with
    | none => throw .badExpression
    | some n =>
      match n.int, n.string, n.bytes with
      | some t, _, _ => pure (.int t)
      | none, some t, _ => pure (.string t)
      | none, none, some t => pure (.bytes t)
      | none, none, none =>
        if named : n.prim = "" then throw (.namelessExpression v)
        else do
          have := Node.sizeOf_args h named
          let args ← decodeExprs n.args
          pure (.prim n.prim n.annots args)
termination_by sizeOf v

def decodeExprs (vs : List Value) : Except DecodeError (List Expr) :=
  match vs with
  | [] => pure []
  | v :: vs => do
    let e ← decodeExpr v
    let es ← decodeExprs vs
    pure (e :: es)
termination_by sizeOf vs

end

mutual

def decodeInstruction (v : Value) : Except DecodeError Instruction :=
  match v with
  | .arr items => do
    let body ← decodeCode items
    pure (.group body)
  | v =>
    match h : Node.ofValue? v with
    | none => throw .badInstruction
    | some n =>
      if named : n.prim = "" then throw (.namelessInstruction v)
      else do
        have := Node.sizeOf_args h named
        let args ← (decodeArgs n.prim n.args).mapError (.within n.prim)
        pure (.op n.prim n.annots args)
termination_by sizeOf v
decreasing_by
  · simp only [Value.arr.sizeOf_spec]
    omega
  · exact this

def decodeCode (vs : List Value) : Except DecodeError Code :=
  match vs with
  | [] => pure []
  | v :: vs => do
    let i ← decodeInstruction v
    let is ← decodeCode vs
    pure (i :: is)
termination_by sizeOf vs
decreasing_by
  all_goals
    simp only [List.cons.sizeOf_spec]
    omega

/-- The arguments of an instruction; under `PUSH` an array is data. -/
def decodeArgs (name : String) (vs : List Value) : Except DecodeError (List Arg) :=
  match vs with
  | [] => pure []
  | .arr items :: vs =>
    if name == "PUSH" then do
      let e ← decodeExpr (.arr items)
      let as ← decodeArgs name vs
      pure (.literal e :: as)
    else do
      let body ← decodeCode items
      let as ← decodeArgs name vs
      pure (.code body :: as)
  | v :: vs => do
    let e ← decodeExpr v
    let as ← decodeArgs name vs
    pure (.literal e :: as)
termination_by sizeOf vs
decreasing_by
  all_goals
    simp only [List.cons.sizeOf_spec, Value.arr.sizeOf_spec]
    omega

end

/-- The instructions of a bare sequence; a single instruction is a sequence of one. -/
def codeOf (i : Instruction) : Code := if i.isGroup then i.body else [i]

def Code.ofValue (v : Value) : Except DecodeError Code := codeOf <$> decodeInstruction v

def Code.parse (source : String) : Except DecodeError Code :=
  match Json.readLeading? source with
  | some v => Code.ofValue v
  | none => throw .malformed

end StackFlow.Micheline
