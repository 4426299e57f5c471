import StackFlow.Json.Value

/-!
JSON values as they are shown in messages: bare text, with the fields of an object by key.
-/

namespace StackFlow.Json.Value

mutual

def display : Value → String
  | .null => "<nil>"
  | .bool b => if b then "true" else "false"
  | .num t => t
  | .str s => s
  | .arr items => "[" ++ " ".intercalate (displayItems items) ++ "]"
  | .obj fields =>
    let parts := (displayFields fields).mergeSort fun a b => a.1 ≤ b.1
    "map[" ++ " ".intercalate (parts.map fun (k, t) => k ++ ":" ++ t) ++ "]"

def displayItems : List Value → List String
  | [] => []
  | v :: vs => v.display :: displayItems vs

def displayFields : List (String × Value) → List (String × String)
  | [] => []
  | (k, v) :: fs => (k, v.display) :: displayFields fs

end

end StackFlow.Json.Value
