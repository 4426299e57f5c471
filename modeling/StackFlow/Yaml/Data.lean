import StackFlow.Json.Number
import StackFlow.Yaml.Walk

/-!
The data of a document, without a type in mind, and the same data as JSON.
-/

namespace StackFlow.Yaml

inductive Data where
  | scalar (v : Scalar)
  | list (items : List Data)
  | map (fields : List (Scalar × Data))

namespace Walk

/-- Whether a key is a text by its tag or its looks. -/
def isTextKey (doc : Document) (key : Node) : Bool :=
  let node := match key with
    | .alias _ place => doc.anchored.getD place .nothing
    | n => n
  match node with
  | .scalar "" plain text => key.isMerge || !plain || (match Scalar.ofLooks true text with
    | .text _ => true
    | _ => false)
  | .scalar tag _ _ => tag == "!!str" || tag == "!!merge"
  | _ => false

/-- A key: a text as it is written, or else the scalar. Collections are no keys. -/
def keyOf (doc : Document) (texts : Bool) (s : Site) : Walk (Option Scalar) := do
  match ← scalar? doc s with
  | none => failure
  | some v => pure (if texts then (asText? v).map .text else some v.1)

/-- A mapping has texts for keys if all of its own are texts. -/
def data (doc : Document) : Nat → (top : Bool) → Site → Walk Data
  | 0, _, _ => failure
  | fuel + 1, top, s => do
    let s ← enter doc s
    match s.node with
    | .scalar tag plain text =>
      match Scalar.of? tag plain text with
      | some v => pure (.scalar v)
      | none => failure
    | .seq items => return .list (← items.mapM fun n => data doc fuel false ⟨n, s.inside⟩)
    | .map ps =>
      let texts := top || ps.all fun p => isTextKey doc p.1
      let found ← pairs doc (keyOf doc texts) fuel none s
      return .map (← found.mapM fun (k, site) => return (k, ← data doc fuel false site))
    | .alias _ _ => failure

end Walk

/-- The data of a document; the keys at its top are taken as texts. -/
def Document.data? (doc : Document) : Option Data :=
  ((Walk.data doc doc.depth true ⟨doc.root, false⟩).run {}).map (·.1)

/-! ## As JSON -/

/-- Truth values and nothing are no keys of an object. -/
def Scalar.key? : Scalar → Option String
  | .text s => some s
  | .int n => some (Decimal.text n)
  | .float x => some (x.textWith Json.numberStyle)
  | .moment t => t.text?
  | _ => none

def Scalar.toJson? : Scalar → Option Json.Value
  | .null => some .null
  | .bool b => some (.bool b)
  | .int n => some (.num (Decimal.text n))
  | .float x => some (Json.ofBinary64 x)
  | .notFinite _ => none
  | .moment t => t.text?.map .str
  | .text s => some (.str s)

mutual

/-- The JSON value of some data; of fields with the same key the last one stays. -/
def Data.toJson? : Data → Option Json.Value
  | .scalar v => v.toJson?
  | .list items => (itemsJson? items).map .arr
  | .map fields => (fieldsJson? fields).map fun fs => .obj (Json.Fields.settled fs)

def itemsJson? : List Data → Option (List Json.Value)
  | [] => some []
  | d :: ds => do
    let v ← d.toJson?
    let vs ← itemsJson? ds
    pure (v :: vs)

def fieldsJson? : List (Scalar × Data) → Option Json.Fields
  | [] => some []
  | (key, d) :: fs => do
    let k ← key.key?
    let v ← d.toJson?
    let vs ← fieldsJson? fs
    pure ((k, v) :: vs)

end

end StackFlow.Yaml
