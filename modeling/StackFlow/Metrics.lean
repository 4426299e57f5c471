import StackFlow.Event

/-!
Counters over events: flows through nodes by kind, paths by outcome, and the number of stacks that
joints put out.
-/

namespace StackFlow

/-- A distribution over the bounds 0, 1, 2 and 3; bucket `i` counts the values up to `i`. -/
structure Histogram where
  count : Nat := 0
  sum : Nat := 0
  buckets : List Nat := [0, 0, 0, 0]

def Histogram.observe (h : Histogram) (value : Nat) : Histogram :=
  { count := h.count + 1
    sum := h.sum + value
    buckets := h.buckets.mapIdx fun i n => if value ≤ i then n + 1 else n }

/-- Counters by label; a label without an entry was never touched. -/
structure Metrics where
  flows : List (String × Nat) := []
  paths : List (String × Nat) := []
  fanout : List (String × Histogram) := []

namespace Metrics

/-- Changes the value under a label, which starts at `zero`. -/
def update {α : Type} (zero : α) (f : α → α) (label : String) :
    List (String × α) → List (String × α)
  | [] => [(label, f zero)]
  | (l, a) :: rest => if l == label then (l, f a) :: rest else (l, a) :: update zero f label rest

def observe (m : Metrics) : Event → Metrics
  | .enter _ => m
  | .leave e =>
    { m with
      flows := update 0 (· + 1) e.kind.name m.flows
      fanout := if e.joint == "" then m.fanout else update {} (·.observe e.outputs) e.joint m.fanout }
  | .finished _ => { m with paths := update 0 (· + 1) "finished" m.paths }
  | .failed _ => { m with paths := update 0 (· + 1) "failed" m.paths }

def observeAll (m : Metrics) (events : List Event) : Metrics := events.foldl observe m

/-- The series by name, each with its value. -/
def toJson (m : Metrics) : Json.Value :=
  let series (name label key : String) : String := name ++ "\x7b" ++ label ++ "=" ++ key ++ "\x7d"
  .obj (m.flows.map (fun (k, n) => (series "conduit_node_flows_total" "kind" k, .ofNat n))
    ++ m.paths.map (fun (k, n) => (series "conduit_paths_total" "outcome" k, .ofNat n))
    ++ m.fanout.map fun (k, h) => (series "conduit_joint_fanout" "joint" k,
      .obj [("count", .ofNat h.count), ("sum", .ofNat h.sum),
        ("buckets", .arr (h.buckets.map Json.Value.ofNat))]))

end Metrics

end StackFlow
