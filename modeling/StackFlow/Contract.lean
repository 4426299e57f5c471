import StackFlow.Digest.Sha3
import StackFlow.Micheline.Canonical
import StackFlow.Micheline.Decode
import StackFlow.Stack
import StackFlow.Text.Hex

/-!
Contracts: the declared parameter and storage types and the code that runs on a pair of both. A
contract is read from its three sections, in any order, or from an envelope around them.
-/

namespace StackFlow

open Json (Value)
open Micheline (Code DecodeError Node)

structure Contract where
  name : String := ""
  parameter : Ty
  storage : Ty
  code : Code

namespace Contract

/-- The sections read so far; a later one replaces an earlier one of its name. -/
structure Sections where
  parameter : Option Ty := none
  storage : Option Ty := none
  code : Option Code := none

def decodeType (name : String) (v : Value) : Except DecodeError Ty := do
  let e ← Micheline.decodeExpr v
  (Ty.ofExpr e).mapError (.notAType name)

def Sections.add (s : Sections) (v : Value) : Except DecodeError Sections :=
  match Node.ofValue? v with
  | none => throw .badSection
  | some n =>
    match n.args with
    | [arg] =>
      match n.prim with
      | "parameter" => do
        let t ← decodeType "parameter" arg
        pure { s with parameter := some t }
      | "storage" => do
        let t ← decodeType "storage" arg
        pure { s with storage := some t }
      | "code" => do
        let code ← Code.ofValue arg
        pure { s with code := some code }
      | name => throw (.unknownSection name)
    | args => throw (.sectionArity n.prim args.length)

def ofSections (vs : List Value) : Except DecodeError Contract := do
  match ← vs.foldlM Sections.add {} with
  | ⟨none, _, _⟩ => throw (.missingSection "parameter")
  | ⟨_, none, _⟩ => throw (.missingSection "storage")
  | ⟨_, _, none⟩ => throw (.missingSection "code")
  | ⟨some parameter, some storage, some code⟩ => pure { parameter, storage, code }

/-- The name of an envelope, if it has one. -/
def envelopeName (fields : Json.Fields) : String :=
  match fields.find? (·.1 == "name") with
  | some (_, .str s) => s
  | _ => ""

/-- What an envelope encloses. -/
def enclosed? (fields : Json.Fields) : Option (String × Value) :=
  (fields.find? (·.1 == "script")).or (fields.find? (·.1 == "code"))

theorem sizeOf_enclosed {fields : Json.Fields} {f : String × Value}
    (h : enclosed? fields = some f) : sizeOf f.2 < sizeOf fields := by
  have mem : f ∈ fields := by
    rcases Option.or_eq_some_iff.1 h with h | ⟨_, h⟩ <;> exact List.mem_of_find?_eq_some h
  have := List.sizeOf_lt_of_mem mem
  obtain ⟨k, w⟩ := f
  simp only [Prod.mk.sizeOf_spec] at this
  simp only
  omega

/-- The outermost name that is not empty wins. -/
def ofValue (v : Value) : Except DecodeError Contract :=
  match v with
  | .arr items => ofSections items
  | .obj fields =>
    match h : enclosed? fields with
    | none => throw .noScript
    | some f => do
      have := sizeOf_enclosed h
      let c ← ofValue f.2
      let name := envelopeName fields
      pure (if name == "" then c else { c with name })
  | .str _ => throw (.shape "string")
  | .num _ => throw (.shape "json.Number")
  | .bool _ => throw (.shape "bool")
  | .null => throw (.shape "<nil>")
termination_by sizeOf v

def parse (source : String) : Except DecodeError Contract :=
  match Json.readLeading? source with
  | some v => ofValue v
  | none => throw .malformed

/-- One concrete pair of the unknown parameter and the unknown storage. -/
def initialStack (c : Contract) (env : Env) : Stack :=
  { visible := [.composite (Ty.pair c.parameter c.storage) none
      [.placeholder c.parameter ["parameter"], .placeholder c.storage ["storage"]]]
    env := some env }

end Contract

/-- The first half of the digest of a text, in hexadecimal. -/
def fingerprint (text : String) : String :=
  Hex.encode ((Sha3.sum256 text.toUTF8.toList).take 16)

namespace Micheline.Code

/-- Identifies code by its canonical form. -/
def fingerprint (code : Code) : String := StackFlow.fingerprint (Code.toJson code).render

end Micheline.Code

namespace Contract

/-- The text that identifies an analysis: the code, the rendered types and the environment, all of
which shape the reported paths. -/
def reportKey (c : Contract) (env : Env) : String :=
  (Json.Value.obj [("code", Micheline.Code.toJson c.code), ("parameter", .str c.parameter.text),
    ("storage", .str c.storage.text), ("env", env.toJson)]).render

def reportId (c : Contract) (env : Env) : String := fingerprint (c.reportKey env)

end Contract

end StackFlow
