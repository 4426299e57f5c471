import StackFlow.Json.Decode
import StackFlow.Json.Reader
import StackFlow.Report.Basic
import StackFlow.Text.Moment

/-!
Reports read back from their JSON text.
-/

namespace StackFlow

open Json (Value Decoder)

namespace PathResult

def fields : List (Decoder.Field PathResult) :=
  [Decoder.field "path" (·.path) (fun r x => { r with path := x }) (Decoder.list 0 Decoder.word),
    Decoder.field "node" (·.node) (fun r x => { r with node := x }) Decoder.word,
    Decoder.field "top" (·.top) (fun r x => { r with top := x }) Decoder.text,
    Decoder.field "stack" (fun r => some r.stack) (fun r x => { r with stack := x.getD [] })
      (Decoder.list "" Decoder.text)]

end PathResult

namespace Report

def moment : Decoder String := Decoder.inTurn fun old v =>
  match v with
  | .null => some old
  | .str s => (Moment.ofRfc3339? s).bind Moment.text?
  | _ => none

/-- Counts by node, in the order of the nodes. Null forgets all counts, and of several counts for a
node the last one holds. -/
def visitsOf : Decoder (List (Int × Int)) := Decoder.inTurn fun old v =>
  match v with
  | .null => some []
  | .obj fs => do
    let given ← fs.mapM fun (key, v) => do
      pure (← Decimal.readWord? key, ← Decoder.word 0 [v])
    let all := given.foldl (fun (done : List (Int × Int)) p => p :: done.filter (·.1 != p.1)) old
    pure (all.mergeSort fun a b => a.1 ≤ b.1)
  | _ => none

def paths : Decoder (Option (List PathResult)) := Decoder.list {} (Decoder.record PathResult.fields)

def fields : List (Decoder.Field Report) :=
  [Decoder.field "id" (·.id) (fun r x => { r with id := x }) Decoder.text,
    Decoder.field "contract" (·.contract) (fun r x => { r with contract := x }) Decoder.text,
    Decoder.field "created_at" (·.createdAt) (fun r x => { r with createdAt := x }) moment,
    Decoder.field "nodes" (·.nodes) (fun r x => { r with nodes := x }) Decoder.word,
    Decoder.field "steps" (·.steps) (fun r x => { r with steps := x }) Decoder.word,
    Decoder.field "truncated" (·.truncated) (fun r x => { r with truncated := x }) Decoder.flag,
    Decoder.field "terminals" (·.terminals) (fun r x => { r with terminals := x }) paths,
    Decoder.field "failures" (·.failures) (fun r x => { r with failures := x }) paths,
    Decoder.field "visits" (·.visits) (fun r x => { r with visits := x }) visitsOf,
    Decoder.field "sealed" (·.sealed) (fun r x => { r with sealed := x }) Decoder.text]

def ofJson? (v : Value) : Option Report := Decoder.record fields {} [v]

/-- The report that a text holds, if it is the text of one. -/
def parse? (s : String) : Option Report := (Json.transcript? s).bind ofJson?

def render (r : Report) : String := r.toJson.render

end Report

end StackFlow
