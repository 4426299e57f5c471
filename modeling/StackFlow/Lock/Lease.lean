import StackFlow.ErrorKind
import StackFlow.Store.Server

/-!
Leases on a key of a server that many programs share. Whoever sets the key first has the lease; the
key holds the token of the holder, and only that token gives it back.
-/

namespace StackFlow.Lease

open Server (Command)

inductive Error where
  /-- The service refuses for a reason of its own. -/
  | refused (reason : String)
  | server (cause : ServerError)
  /-- The caller gave up while somebody else had the lease. -/
  | canceled

def acquireFailed : String := "failed to acquire distributed lock"

def Error.message : Error → String
  | .refused reason => reason
  | .server e => acquireFailed ++ ": " ++ e.message
  | .canceled => "context canceled"

def Error.kind : Error → ErrorKind
  | .refused _ => .other
  | .server _ => .lease
  | .canceled => .canceled

def keyOf (space name : String) : String := space ++ "lock:" ++ name

/-- One try to get the lease. -/
def request (space name token : String) (canceled : Bool) : Command Bool :=
  Command.guarded canceled (Command.setIfAbsent (keyOf space name) token)

/-- Gives the lease back, unless it has run out or passed on to somebody else. -/
def giveBack (space name token : String) (canceled : Bool) : Command Unit :=
  Command.guarded canceled (Command.deleteIfHolds (keyOf space name) token)

/-- The lease runs out. -/
def expire (space name : String) (s : Server) : Server := s.remove (keyOf space name)

end StackFlow.Lease
