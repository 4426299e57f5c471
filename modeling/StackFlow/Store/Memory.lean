import StackFlow.Report.Basic

/-!
Reports in memory, in the order in which their IDs were first saved.
-/

namespace StackFlow

structure Memory where
  entries : List (String × Report) := []
  /-- Whether a report was ever saved. -/
  used : Bool := false

namespace Memory

def load? (m : Memory) (id : String) : Option Report := m.entries.lookup id

/-- A report that is there already is replaced in its place. -/
def save (m : Memory) (r : Report) : Memory :=
  { used := true
    entries :=
      if m.entries.any (·.1 == r.id) then
        m.entries.map fun e => if e.1 == r.id then (r.id, r) else e
      else m.entries ++ [(r.id, r)] }

def delete (m : Memory) (id : String) : Memory :=
  { m with entries := m.entries.filter (·.1 != id) }

def ids (m : Memory) : List String := m.entries.map (·.1)

/-- There is no list before the first report. -/
def list (m : Memory) : Option (List String) := if m.used then some m.ids else none

end Memory

end StackFlow
