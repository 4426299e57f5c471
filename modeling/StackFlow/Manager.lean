import StackFlow.Engine
import StackFlow.Lock.Lease
import StackFlow.Lock.Table
import StackFlow.Store.Basic

/-!
The manager serves reports from a store and runs the engine for those that are missing. Calls on one
ID take turns; a call goes through stages, and the stages of several calls may interleave.
-/

namespace StackFlow

/-- Leases that keep other programs out while a call works. -/
inductive Locker where
  | absent
  /-- Writes down what it is asked. It may refuse every lease, and giving one back may fail. -/
  | journal (refuses stuck : Bool) (reason : String)
  | server (space : String)

inductive ManagerError where
  | lease (cause : Lease.Error)
  | check (cause : StoreError)
  | analysis (cause : AnalysisError)
  | save (cause : StoreError)
  | store (cause : StoreError)

def ManagerError.message : ManagerError → String
  | .lease e => Lease.acquireFailed ++ ": " ++ e.message
  | .check e => "failed to check report existence: " ++ e.message
  | .analysis e => e.message
  | .save e => "failed to save report: " ++ e.message
  | .store e => e.message

def ManagerError.kind : ManagerError → ErrorKind
  | .lease e => e.kind
  | .check e | .save e | .store e => e.kind
  | .analysis e => e.kind

inductive Answer where
  | report (r : Report) (cached : Bool)
  | done

abbrev Outcome := Except ManagerError Answer

/-- What a call does while it holds the lock of its ID. -/
inductive Task where
  | load
  | delete
  /-- Looks for the report of a contract. -/
  | serve (c : Contract)
  /-- Runs the engine, since there was no report. -/
  | analyze (c : Contract)
  | keep (r : Report)

/-- How far a call has come. From `waiting` on it refers to the lock with a serial. -/
inductive Stage where
  | fresh (t : Task)
  | waiting (serial : Nat) (t : Task)
  | locked (serial : Nat) (t : Task)
  | working (serial : Nat) (token : Option String) (t : Task)
  /-- The outcome is known and the lease has to go back. -/
  | ending (serial : Nat) (token : Option String) (o : Outcome)
  | unlocking (serial : Nat) (o : Outcome)
  | leaving (o : Outcome)
  | returned (o : Outcome)

structure Call where
  id : String
  stage : Stage

structure Manager where
  engine : Engine := {}
  store : Store := {}
  locker : Locker := .absent
  /-- How long a lease outlives a holder that vanished, in seconds. -/
  leaseTime : Nat := 30
  shelf : Shelf := {}
  locks : LockTable := {}
  journal : List String := []
  /-- The number of tokens handed out so far. -/
  tokens : Nat := 0
  /-- What the analyses told on their way. -/
  trace : Array Entry := #[]

namespace Manager

def reportId (m : Manager) (c : Contract) : String := m.engine.reportId c

/-- Runs an action of the store. -/
def onShelf {α : Type} (m : Manager) (a : StoreAction α) : Except StoreError α × Manager :=
  match a m.shelf with
  | .ok x shelf => (.ok x, { m with shelf })
  | .error e shelf => (.error e, { m with shelf })

def note (m : Manager) (line : String) : Manager := { m with journal := m.journal ++ [line] }

def tokenName (n : Nat) : String := "token-" ++ Decimal.natText n

/-- Asks for the lease of an ID: a token or none where no lease is needed, or nothing at all while
somebody else has it. -/
def requestLease (m : Manager) (c : Caller) (id : String) :
    Option (Except Lease.Error (Option String)) × Manager :=
  match m.locker with
  | .absent => (some (.ok none), m)
  | .journal refuses _ reason =>
    if refuses then (some (.error (.refused reason)), m)
    else (some (.ok (some "")), m.note ("lock " ++ id ++ " " ++ Decimal.natText m.leaseTime))
  | .server space =>
    let token := tokenName m.tokens
    match Lease.request space id token c.canceled m.shelf.server with
    | .ok true server =>
      (some (.ok (some token)),
        { m with tokens := m.tokens + 1, shelf := { m.shelf with server } })
    | .ok false server => (none, { m with shelf := { m.shelf with server } })
    | .error e server => (some (.error (.server e)), { m with shelf := { m.shelf with server } })

/-- Gives a lease back. A failure changes nothing: the lease will run out. -/
def returnLease (m : Manager) (c : Caller) (id : String) : Option String → Manager
  | none => m
  | some token =>
    match m.locker with
    | .absent => m
    | .journal .. => m.note ("unlock " ++ id)
    | .server space =>
      match Lease.giveBack space id token c.canceled m.shelf.server with
      | .ok _ server => { m with shelf := { m.shelf with server } }
      | .error _ server => { m with shelf := { m.shelf with server } }

/-- One step of the work under the lock: what is left to do, or the outcome. -/
def work (m : Manager) (c : Caller) (id : String) : Task → (Task ⊕ Outcome) × Manager
  | .load =>
    match m.onShelf (m.store.load c id) with
    | (.ok r, m) => (.inr (.ok (.report r true)), m)
    | (.error e, m) => (.inr (.error (.store e)), m)
  | .delete =>
    match m.onShelf (m.store.delete c id) with
    | (.ok _, m) => (.inr (.ok .done), m)
    | (.error e, m) => (.inr (.error (.store e)), m)
  | .serve contract =>
    match m.onShelf (m.store.load c id) with
    | (.ok r, m) => (.inr (.ok (.report r true)), m)
    | (.error .notFound, m) => (.inl (.analyze contract), m)
    | (.error e, m) => (.inr (.error (.check e)), m)
  | .analyze contract =>
    let (a, engine) := m.engine.analyze (if c.canceled then .always else .never) c.clock contract
    let m := { m with engine, trace := m.trace ++ a.trace }
    match a.outcome with
    | .error e => (.inr (.error (.analysis e)), m)
    | .ok r =>
      -- a truncated report depends on the limits of this run
      if r.truncated then (.inr (.ok (.report r false)), m) else (.inl (.keep r), m)
  | .keep r =>
    match m.onShelf (m.store.save c r) with
    | (.ok _, m) => (.inr (.ok (.report r false)), m)
    | (.error e, m) => (.inr (.error (.save e)), m)

/-- One step of a call. A call that has to wait stays as it is. -/
def step (m : Manager) (c : Caller) (call : Call) : Call × Manager :=
  let at' (s : Stage) : Call := { call with stage := s }
  match call.stage with
  | .fresh t =>
    let (serial, locks) := m.locks.acquire call.id
    (at' (.waiting serial t), { m with locks })
  | .waiting serial t =>
    match m.locks.lock? serial with
    | none => (call, m)
    | some locks => (at' (.locked serial t), { m with locks })
  | .locked serial t =>
    match m.requestLease c call.id with
    | (some (.ok token), m) => (at' (.working serial token t), m)
    | (some (.error e), m) => (at' (.ending serial none (.error (.lease e))), m)
    | (none, m) =>
      if c.canceled then (at' (.ending serial none (.error (.lease .canceled))), m) else (call, m)
  | .working serial token t =>
    match m.work c call.id t with
    | (.inl t, m) => (at' (.working serial token t), m)
    | (.inr o, m) => (at' (.ending serial token o), m)
  | .ending serial token o => (at' (.unlocking serial o), m.returnLease c call.id token)
  | .unlocking serial o => (at' (.leaving o), { m with locks := m.locks.unlock serial })
  | .leaving o => (at' (.returned o), { m with locks := m.locks.release call.id })
  | .returned _ => (call, m)

/-- No call takes more steps than this unless it has to wait. -/
def longestCall : Nat := 12

def run (m : Manager) (c : Caller) (call : Call) : Nat → Option Outcome × Manager
  | 0 => (none, m)
  | fuel + 1 =>
    match m.step c call with
    | ({ stage := .returned o, .. }, m) => (some o, m)
    | (call, m) => m.run c call fuel

/-- Runs a call with nobody else around; no outcome if it would have to wait. -/
def perform (m : Manager) (c : Caller) (id : String) (t : Task) : Option Outcome × Manager :=
  m.run c ⟨id, .fresh t⟩ longestCall

/-- The stored report of a contract, or else a new one. -/
def analyze (m : Manager) (c : Caller) (contract : Contract) : Option Outcome × Manager :=
  m.perform c (m.reportId contract) (.serve contract)

def load (m : Manager) (c : Caller) (id : String) : Option Outcome × Manager := m.perform c id .load

def delete (m : Manager) (c : Caller) (id : String) : Option Outcome × Manager :=
  m.perform c id .delete

def list (m : Manager) (c : Caller) : Except StoreError (Option (List String)) × Manager :=
  m.onShelf (m.store.list c)

end Manager

end StackFlow
