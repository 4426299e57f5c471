import StackFlow.Valve

/-!
Reports: how every path of a contract ended.
-/

namespace StackFlow

open Json (Value)

/-- One path that left the frontier. A missing list is told apart from an empty one. -/
structure PathResult where
  path : Option (List Int) := none
  node : Int := 0
  top : String := ""
  /-- The visible items, the topmost first. -/
  stack : List String := []

structure Report where
  id : String := ""
  contract : String := ""
  /-- When the analysis was made, in the notation of RFC 3339. -/
  createdAt : String := "0001-01-01T00:00:00Z"
  nodes : Int := 0
  steps : Int := 0
  truncated : Bool := false
  terminals : Option (List PathResult) := none
  failures : Option (List PathResult) := none
  /-- The number of stacks recorded at each node, by node. -/
  visits : List (Int × Int) := []
  /-- The whole report as ciphertext, on the envelopes of a sealing store. -/
  sealed : String := ""

/-- A list that is missing when it is empty. -/
def nonEmpty? {α : Type} (xs : List α) : Option (List α) := if xs.isEmpty then none else some xs

namespace PathResult

def ofStack (node : Int) (s : Stack) : PathResult :=
  { path := nonEmpty? s.path
    node
    top := (s.items.head?.map fun x => x.reduce.text).getD ""
    stack := s.visible.map fun x => x.reduce.text }

def toJson (r : PathResult) : Value :=
  .obj ([("path", match r.path with
      | none => .null
      | some ids => .arr (ids.map fun n => .num (Decimal.text n))),
    ("node", .num (Decimal.text r.node))]
    ++ Value.unlessBlank "top" r.top ++ Value.unlessEmpty "stack" (r.stack.map .str))

end PathResult

namespace Report

def listJson : Option (List PathResult) → Value
  | none => .null
  | some rs => .arr (rs.map PathResult.toJson)

/-- The counts by the text of the node. -/
def visitFields (visits : List (Int × Int)) : Json.Fields :=
  Json.Fields.sorted (visits.map fun (id, n) => (Decimal.text id, .num (Decimal.text n)))

def toJson (r : Report) : Value :=
  .obj ([("id", .str r.id)] ++ Value.unlessBlank "contract" r.contract
    ++ [("created_at", .str r.createdAt), ("nodes", .num (Decimal.text r.nodes)),
      ("steps", .num (Decimal.text r.steps))]
    ++ (if r.truncated then [("truncated", .bool true)] else [])
    ++ [("terminals", listJson r.terminals), ("failures", listJson r.failures)]
    ++ (if r.visits.isEmpty then [] else [("visits", .obj (visitFields r.visits))])
    ++ Value.unlessBlank "sealed" r.sealed)

/-- The report on where a valve stands. -/
def ofValve (id contract createdAt : String) (truncated : Bool) (v : Valve) : Report :=
  { id, contract, createdAt, truncated
    nodes := v.graph.size
    steps := v.steps
    terminals := nonEmpty? (v.finished.toList.map fun f =>
      .ofStack (f.stack.trail.headD noNode) f.stack)
    failures := nonEmpty? (v.failed.toList.map fun f => .ofStack f.node f.stack)
    visits := v.visits.map fun (id, n) => (id, (n : Int)) }

end Report

end StackFlow
