/-!
A cache of bounded size that forgets what was used least recently.
-/

namespace StackFlow

/-- The entries, the most recently used first, each key once. -/
structure Lru (α : Type) where
  capacity : Nat
  entries : List (String × α) := []

namespace Lru

variable {α : Type}

/-- A value that is found becomes the most recently used one. -/
def get? (c : Lru α) (key : String) : Option (α × Lru α) :=
  (c.entries.lookup key).map fun a =>
    (a, { c with entries := (key, a) :: c.entries.filter (·.1 != key) })

/-- The entry that was used least recently makes room. -/
def insert (c : Lru α) (key : String) (a : α) : Lru α :=
  { c with entries := ((key, a) :: c.entries.filter (·.1 != key)).take c.capacity }

end Lru

end StackFlow
