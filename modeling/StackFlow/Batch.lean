import StackFlow.Manager

/-!
Batches of calls that serve one contract each. They are made side by side, so many of them at once as
the limit allows, and take steps in any order. The first error cancels the others.
-/

namespace StackFlow

/-- A call for a contract of this name. -/
structure Errand where
  name : String
  call : Call

def Errand.outcome? (e : Errand) : Option Outcome :=
  match e.call.stage with
  | .returned o => some o
  | _ => none

structure Batch where
  manager : Manager
  errands : List Errand
  /-- The most calls in flight; no bound unless positive. -/
  limit : Int := 0
  /-- The first error, with the name of the contract that it is about. -/
  error : Option (String × ManagerError) := none

namespace Batch

def start (m : Manager) (limit : Int) (cs : List Contract) : Batch :=
  { manager := m, limit, errands := cs.map fun x => ⟨x.name, m.reportId x, .fresh (.serve x)⟩ }

/-- The calls of the batch see their caller go at the first error. -/
def caller (b : Batch) (c : Caller) : Caller := { c with canceled := c.canceled || b.error.isSome }

/-- The calls begin in order, each as soon as few enough of those before it are left. -/
def admits (b : Batch) (k : Nat) : Bool :=
  b.limit ≤ 0 || ((b.errands.take k).countP fun e => e.outcome?.isNone) < b.limit

/-- The batch behind a step of the call at a position. -/
def move (b : Batch) (c : Caller) (k : Nat) : Batch :=
  match b.errands[k]? with
  | none => b
  | some e =>
    if b.admits k then
      let (call, manager) := b.manager.step (b.caller c) e.call
      let e := { e with call }
      { b with
        manager
        errands := b.errands.set k e
        error := b.error.or <| match e.outcome? with
          | some (.error cause) => some (e.name, cause)
          | _ => none }
    else b

def isDone (b : Batch) : Bool := b.errands.all fun e => e.outcome?.isSome

/-- A step of each call in turn, again and again until all have returned. -/
def run (b : Batch) (c : Caller) : (fuel : Nat) → Batch
  | 0 => b
  | fuel + 1 =>
    if b.isDone then b
    else ((List.range b.errands.length).foldl (fun b k => b.move c k) b).run c fuel

def reports (b : Batch) : List Report := b.errands.filterMap fun e =>
  match e.outcome? with
  | some (.ok (.report r _)) => some r
  | _ => none

/-- The reports in the order of the contracts, or the first error; nothing while calls are left. -/
def outcome? (b : Batch) : Option (Except (String × ManagerError) (List Report)) :=
  if b.isDone then some (b.error.elim (.ok b.reports) .error) else none

end Batch

end StackFlow
