import StackFlow.Graph.Basic
import StackFlow.Log

/-!
What a run reports: stacks that enter and leave nodes, paths that end, and log records.
-/

namespace StackFlow

structure NodeEvent where
  id : Int
  kind : NodeKind
  joint : String
  /-- The number of stacks that left the node. -/
  outputs : Nat := 0

structure PathEvent where
  path : List Int
  /-- The topmost item, empty for a path that ended on an empty stack. -/
  top : String

inductive Event where
  | enter (e : NodeEvent)
  | leave (e : NodeEvent)
  | finished (e : PathEvent)
  | failed (e : PathEvent)

namespace Event

def text : Event → String
  | .enter e => "node_enter " ++ nodeText e
  | .leave e => "node_leave " ++ nodeText e
  | .finished e => "path_finished " ++ pathText e
  | .failed e => "path_failed " ++ pathText e
where
  nodeText (e : NodeEvent) : String :=
    " ".intercalate [Decimal.text e.id, e.kind.name, e.joint, Decimal.natText e.outputs]
  pathText (e : PathEvent) : String :=
    "[" ++ " ".intercalate (e.path.map Decimal.text) ++ "] " ++ e.top

def isLeave : Event → Bool
  | .leave _ => true
  | _ => false

/-- The log record of an event: paths that end for the operator, traffic for the debugger. -/
def record? (analysisId : String) : Event → Option Log.Record
  | .enter e => some ⟨Log.debug, "node_enter", [("analysis_id", .text analysisId),
      ("node_id", .int e.id), ("kind", .text e.kind.name)]⟩
  | .leave _ => none
  | .finished e => some ⟨Log.info, "path_finished", pathAttrs e⟩
  | .failed e => some ⟨Log.info, "path_failed", pathAttrs e⟩
where
  pathAttrs (e : PathEvent) : List (String × Log.Attr) :=
    [("analysis_id", .text analysisId), ("path", .ints e.path), ("top", .text e.top)]

end Event

/-- An entry of a run's trace. -/
inductive Entry where
  | event (e : Event)
  | log (r : Log.Record)

def Entry.event? : Entry → Option Event
  | .event e => some e
  | .log _ => none

/-- The log of a run in which events are logged too. -/
def Entry.record? (analysisId : String) : Entry → Option Log.Record
  | .event e => e.record? analysisId
  | .log r => some r

end StackFlow
