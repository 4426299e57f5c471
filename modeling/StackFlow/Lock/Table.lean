/-!
Locks by ID. An entry lives as long as some call refers to it, and whoever finds the entry locks
the same lock.
-/

namespace StackFlow

structure LockEntry where
  /-- Tells the lock of this entry from all others. -/
  serial : Nat
  refs : Nat
deriving Repr, DecidableEq

structure LockTable where
  entries : List (String × LockEntry) := []
  /-- The serial of the next new entry. -/
  next : Nat := 0
  /-- The serials of the locks that are taken. -/
  held : List Nat := []
deriving Repr, DecidableEq

namespace LockTable

def find? (t : LockTable) (id : String) : Option LockEntry := t.entries.lookup id

def put (t : LockTable) (id : String) (e : LockEntry) : LockTable :=
  { t with entries := (id, e) :: t.entries.filter (·.1 != id) }

def remove (t : LockTable) (id : String) : LockTable :=
  { t with entries := t.entries.filter (·.1 != id) }

/-- Finds or makes the entry of an ID and adds a reference. -/
def acquire (t : LockTable) (id : String) : Nat × LockTable :=
  match t.find? id with
  | some e => (e.serial, t.put id { e with refs := e.refs + 1 })
  | none => (t.next, { t.put id ⟨t.next, 1⟩ with next := t.next + 1 })

/-- Takes a lock that is free. -/
def lock? (t : LockTable) (serial : Nat) : Option LockTable :=
  if t.held.contains serial then none else some { t with held := serial :: t.held }

def unlock (t : LockTable) (serial : Nat) : LockTable :=
  { t with held := t.held.filter (· != serial) }

/-- Drops a reference; the last one takes the entry with it. -/
def release (t : LockTable) (id : String) : LockTable :=
  match t.find? id with
  | none => t
  | some e => if e.refs ≤ 1 then t.remove id else t.put id { e with refs := e.refs - 1 }

end LockTable

end StackFlow
