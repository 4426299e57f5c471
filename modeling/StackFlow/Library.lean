/-!
Contracts kept in memory by their names.
-/

namespace StackFlow

structure Library where
  contracts : List (String × String) := []

namespace Library

structure NotFound where
  id : String

def NotFound.message (e : NotFound) : String := "contract not found: " ++ e.id

def get (l : Library) (id : String) : Except NotFound String :=
  match l.contracts.lookup id with
  | some source => .ok source
  | none => .error ⟨id⟩

/-- The names in order. -/
def list (l : Library) : List String := (l.contracts.map (·.1)).mergeSort (· ≤ ·)

/-- Replaces or removes a contract. -/
def set (l : Library) (id : String) (source : Option String) : Library :=
  let others := l.contracts.filter (·.1 != id)
  { contracts := others ++ (source.map fun s => (id, s)).toList }

end Library

end StackFlow
