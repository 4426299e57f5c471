import StackFlow.Text.Duration
import StackFlow.Yaml.Walk

/-!
Typed data out of YAML documents. A decoder reads onto what is already there: an empty scalar changes
nothing, and a node of the wrong kind is refused.
-/

namespace StackFlow.Yaml

/-- The result is none where an empty scalar was found. -/
abbrev Decoder (α : Type) := Document → α → Site → Walk (Option α)

namespace Decoder

/-- Reads a scalar that is not empty. -/
def ofScalar {α : Type} (read : Scalar × String → Option α) : Decoder α := fun doc _ s => do
  match ← Walk.scalar? doc s with
  | some (.null, _) => pure none
  | some v =>
    match read v with
    | some a => pure (some a)
    | none => failure
  | none => failure

/-- Any scalar is a text, as it is written. -/
def text : Decoder String := ofScalar Walk.asText?

/-- A whole number; a fraction is cut off. -/
def word : Decoder Int := ofScalar fun (v, _) =>
  match v with
  | .int n => if n ≤ greatestWord then some n else none
  | .float x =>
    if x.negative || x.whole ≤ 9223372036854775808 then some x.truncate else none
  | .notFinite true => some leastWord
  | _ => none

def duration : Decoder Int := ofScalar fun (v, _) =>
  match v with
  | .text s => Duration.parse? s
  | _ => none

/-- Empty elements are left out. -/
def list {α : Type} (blank : α) (element : Decoder α) : Decoder (Option (List α)) := fun doc _ s => do
  let s ← Walk.enter doc s
  match s.node with
  | .seq items =>
    let xs ← items.mapM fun n => element doc blank ⟨n, s.inside⟩
    pure (some (some (xs.filterMap id)))
  | .scalar tag plain text =>
    if Scalar.of? tag plain text == some .null then pure (some none) else failure
  | _ => failure

abbrev Field (α : Type) := String × Decoder α

/-- No known field is given twice by the mapping itself. -/
def distinctFields (known : List String) : List String → Bool
  | [] => true
  | name :: names => !(known.contains name && names.contains name) && distinctFields known names

def fieldName (doc : Document) (s : Site) : Walk (Option String) := do
  match ← Walk.scalar? doc s with
  | some v => pure (Walk.asText? v)
  | none => failure

/-- Fields are found by their exact name; others are ignored. -/
def record {α : Type} (known : List (Field α)) : Decoder α := fun doc a s => do
  let s ← Walk.enter doc s
  match s.node with
  | .map _ =>
    let found ← Walk.pairs doc (fieldName doc) doc.depth none s
    if !distinctFields (known.map (·.1)) (found.map (·.1)) then failure
    let b ← found.foldlM (fun a (name, site) => do
      match known.lookup name with
      | none => pure a
      | some d => return (← d doc a site).getD a) a
    pure (some b)
  | .scalar tag plain text =>
    if Scalar.of? tag plain text == some .null then pure none else failure
  | _ => failure

end Decoder

/-- Reads the root of a document onto a value. -/
def Document.decode? {α : Type} (doc : Document) (d : Decoder α) (a : α) : Option α :=
  ((d doc a ⟨doc.root, false⟩).run {}).map fun (b, _) => b.getD a

end StackFlow.Yaml
