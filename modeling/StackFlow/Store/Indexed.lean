import StackFlow.Report.Decode
import StackFlow.Store.Error

/-!
Reports as texts on a key-value server, with an index of their IDs. Reports are kept forever: their
score in the index lies far in the future.
-/

namespace StackFlow.Indexed

open Server (Command)

def defaultSpace : String := "conduit:report:"

/-- The score of a report that does not expire: the year 2100, in seconds. -/
def farFuture : Int := 4102444800

def keyOf (space id : String) : String := space ++ id

def indexKey (space : String) : String := space ++ "index"

abbrev Action := EStateM StoreError Server

/-- A command whose failure is a failure of some work. -/
def during {α : Type} (work : StoreWork) (c : Command α) : Action α := fun s =>
  match c s with
  | .ok a s => .ok a s
  | .error e s => .error (.server work e) s

def save (space : String) (canceled : Bool) (r : Report) : Action Unit :=
  during .save (Command.guarded canceled (Command.both
    (Command.set (keyOf space r.id) r.render)
    (Command.addMember (indexKey space) farFuture r.id)))

def load (space : String) (canceled : Bool) (id : String) : Action Report := do
  match ← during .load (Command.guarded canceled (Command.get? (keyOf space id))) with
  | none => throw .notFound
  | some text =>
    match Report.parse? text with
    | none => throw .malformed
    | some r => pure r

def delete (space : String) (canceled : Bool) (id : String) : Action Unit :=
  during .delete (Command.guarded canceled (Command.both
    (Command.delete (keyOf space id)) (Command.removeMember (indexKey space) id)))

/-- The IDs in the index that have not expired at a time, in seconds. -/
def list (space : String) (canceled : Bool) (now : Int) : Action (List String) := do
  during .prune (Command.guarded canceled (Command.removeUpTo (indexKey space) now))
  during .list (Command.guarded canceled (Command.range (indexKey space)))

end StackFlow.Indexed
