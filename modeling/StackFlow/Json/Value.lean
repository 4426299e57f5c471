import StackFlow.Text.Quoted

/-!
JSON values. A number is kept as the text it was written with, and an object as its fields in the
order of their appearance. Where a key is repeated, the settled value has its last field only.
-/

namespace StackFlow.Json

inductive Value where
  | null
  | bool (b : Bool)
  | num (text : String)
  | str (s : String)
  | arr (items : List Value)
  | obj (fields : List (String × Value))
deriving Inhabited, BEq, Repr

abbrev Fields := List (String × Value)

namespace Fields

/-- Later values replace earlier ones in place. -/
def insert (fields : Fields) (key : String) (v : Value) : Fields :=
  if fields.any (·.1 == key) then fields.map fun f => if f.1 == key then (key, v) else f
  else fields ++ [(key, v)]

def get? (fields : Fields) (key : String) : Option Value :=
  fields.lookup key

/-- The fields by increasing key. -/
def sorted (fields : Fields) : Fields :=
  fields.mergeSort fun a b => a.1 ≤ b.1

/-- Each key once, where it first appears, with its last value. -/
def settled (fields : Fields) : Fields := fields.foldl (fun done f => done.insert f.1 f.2) []

end Fields

namespace Value

def ofNat (n : Nat) : Value := .num (String.ofList (Nat.toDigits 10 n))

def ofStrings (xs : List String) : Value := .arr (xs.map .str)

/-- A field that is left out when its list is empty. -/
def unlessEmpty (key : String) (items : List Value) : Fields :=
  if items.isEmpty then [] else [(key, .arr items)]

/-- A field that is left out when its text is empty. -/
def unlessBlank (key : String) (s : String) : Fields :=
  if s.isEmpty then [] else [(key, .str s)]

mutual

/-- Every object inside with each key once. -/
def settled : Value → Value
  | .arr items => .arr (settledItems items)
  | .obj fields => .obj (Fields.settled (settledFields fields))
  | v => v

def settledItems : List Value → List Value
  | [] => []
  | v :: vs => v.settled :: settledItems vs

def settledFields : List (String × Value) → List (String × Value)
  | [] => []
  | (k, v) :: fs => (k, v.settled) :: settledFields fs

end

def field? : Value → String → Option Value
  | .obj fields, key => Fields.get? fields key
  | _, _ => none

end Value

end StackFlow.Json
