/-!
A key-value server. A key holds a text or a set of members with scores; a command for the one kind
is refused on a key of the other kind, and a set without members is no key.
-/

namespace StackFlow

inductive Holding where
  | text (s : String)
  | ranked (members : List (String × Int))
deriving Repr, DecidableEq

inductive ServerError where
  | wrongKind
  /-- The server answers every command with a reason why it does not run it. -/
  | outage (reason : String)
  /-- The caller had given up before the command was sent. -/
  | canceled
deriving Repr, DecidableEq

def ServerError.message : ServerError → String
  | .wrongKind => "WRONGTYPE Operation against a key holding the wrong kind of value"
  | .outage reason => reason
  | .canceled => "context canceled"

structure Server where
  entries : List (String × Holding) := []
  outage : Option String := none

namespace Server

/-- A server that commands do not get to. -/
def unreachable : Server := { outage := some "dial tcp: connect: network is unreachable" }

abbrev Command := EStateM ServerError Server

def find? (s : Server) (key : String) : Option Holding := s.entries.lookup key

def put (s : Server) (key : String) (h : Holding) : Server :=
  { s with entries := (key, h) :: s.entries.filter (·.1 != key) }

def remove (s : Server) (key : String) : Server :=
  { s with entries := s.entries.filter (·.1 != key) }

def keys (s : Server) : List String := (s.entries.map (·.1)).mergeSort (· ≤ ·)

namespace Command

/-- What a key holds, if the server answers at all. -/
def look (key : String) : Command (Option Holding) := do
  let s ← get
  match s.outage with
  | some reason => throw (.outage reason)
  | none => pure (s.find? key)

def members (key : String) : Command (List (String × Int)) := do
  match ← look key with
  | some (.text _) => throw .wrongKind
  | some (.ranked ms) => pure ms
  | none => pure []

def putMembers (key : String) (ms : List (String × Int)) : Command Unit :=
  modify fun s => if ms.isEmpty then s.remove key else s.put key (.ranked ms)

def set (key text : String) : Command Unit := do
  discard (look key)
  modify fun s => s.put key (.text text)

def get? (key : String) : Command (Option String) := do
  match ← look key with
  | some (.ranked _) => throw .wrongKind
  | some (.text s) => pure (some s)
  | none => pure none

def delete (key : String) : Command Unit := do
  discard (look key)
  modify fun s => s.remove key

def addMember (key : String) (score : Int) (member : String) : Command Unit := do
  let ms ← members key
  putMembers key ((member, score) :: ms.filter (·.1 != member))

def removeMember (key member : String) : Command Unit := do
  let ms ← members key
  putMembers key (ms.filter (·.1 != member))

/-- Drops the members with a score up to a bound. -/
def removeUpTo (key : String) (score : Int) : Command Unit := do
  let ms ← members key
  putMembers key (ms.filter (score < ·.2))

/-- The members by score, those of one score by name. -/
def range (key : String) : Command (List String) := do
  let ms ← members key
  pure ((ms.mergeSort fun a b => a.2 < b.2 || (a.2 = b.2 && a.1 ≤ b.1)).map (·.1))

/-- Sets a text unless the key exists, and tells whether it did. -/
def setIfAbsent (key text : String) : Command Bool := do
  match ← look key with
  | some _ => pure false
  | none => set key text; pure true

/-- Deletes a key that still holds a text. -/
def deleteIfHolds (key text : String) : Command Unit := do
  if (← get? key) = some text then delete key

/-- Runs both commands, whatever the first one answers. The first error is the answer. -/
def both (a b : Command Unit) : Command Unit := fun s =>
  match a s with
  | .ok _ s => b s
  | .error e s =>
    match b s with
    | .ok _ s => .error e s
    | .error _ s => .error e s

/-- A command of a caller that may have given up. -/
def guarded {α : Type} (canceled : Bool) (c : Command α) : Command α :=
  if canceled then throw .canceled else c

end Command

end Server

end StackFlow
