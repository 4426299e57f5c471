import StackFlow.Event
import StackFlow.Flow
import StackFlow.Memo

/-!
A valve drives all paths of a graph forward, one node per step. A step first flows every stack of
the frontier into a draft, and then commits the draft: the stacks that the nodes put out are
recorded, the events go out, failed stacks and ended paths leave the frontier. It works on the valve
itself, and one that fails leaves the valve behind as it stands then.
-/

namespace StackFlow

structure Valve where
  graph : Graph
  frontier : List Flight
  finished : Array Flight := #[]
  /-- Failed stacks, each at the node that failed it. -/
  failed : Array Flight := #[]
  /-- Every stack that a node put out. -/
  memo : Memo := .empty
  /-- The number of stacks recorded. -/
  recorded : Nat := 0
  steps : Nat := 0
  /-- The most stacks that may be recorded; no bound unless positive. -/
  maxStacks : Int := 0
  /-- Tags the log records of this run. -/
  analysisId : String := ""

namespace Valve

def start (graph : Graph) (initial : Stack) : Valve :=
  { graph, frontier := [⟨graph.root, initial⟩] }

def isDone (v : Valve) : Bool := v.frontier.isEmpty

/-- The stacks recorded at a node, in order of arrival. -/
def memoAt (v : Valve) (id : Int) : List Stack := (v.memo.stacksAt id).toList

/-- The number of stacks recorded at each node, by node. -/
def visits (v : Valve) : List (Int × Nat) := v.memo.sizes

def tagged (v : Valve) (r : Log.Record) : Log.Record :=
  if v.analysisId == "" then r
  else { r with attrs := ("analysis_id", .text v.analysisId) :: r.attrs }

def pathEvent (s : Stack) : PathEvent :=
  { path := s.path, top := (s.items.head?.map fun x => x.reduce.text).getD "" }

/-! ## Drafts -/

/-- What a step has put together so far and not committed. -/
structure Draft where
  next : Array Flight := #[]
  finished : Array Flight := #[]
  failed : Array Flight := #[]
  /-- What each node has put out. -/
  produced : Memo := .empty
  /-- The nodes that have put something out, in the order in which they came. -/
  order : Array Int := #[]
  /-- The number of stacks put out. -/
  count : Nat := 0
  events : Array Event := #[]

namespace Draft

/-- A flight that had ended before the step. -/
def retire (d : Draft) (f : Flight) : Draft := { d with finished := d.finished.push f }

/-- A stack that a node has put out, with the node that it goes on to. -/
def put (id : Int) (d : Draft) (o : Flight) : Draft :=
  let d := { d with produced := d.produced.add id #[o.stack] }
  if o.stack.isFailed then { d with failed := d.failed.push ⟨id, o.stack⟩ }
  else if o.node == noNode then { d with finished := d.finished.push o }
  else { d with next := d.next.push o }

/-- All that a node has put out. -/
def through (d : Draft) (id : Int) (n : Node) (outs : List Flight) : Draft :=
  outs.foldl (put id) { d with
    count := d.count + outs.length
    events := d.events ++
      #[.enter { id := n.id, kind := n.kind, joint := n.joint },
        .leave { id := n.id, kind := n.kind, joint := n.joint, outputs := outs.length }]
    order := if (d.produced.find? id).isSome then d.order else d.order.push id }

/-- Records what was put out, one node after the other. -/
def record (d : Draft) (m : Memo) : Memo :=
  d.order.foldl (fun m id => m.add id (d.produced.stacksAt id)) m

end Draft

end Valve

/-- Tells whether a run has been canceled, given all that it reported and the position in the
frontier that comes next. -/
abbrev Signal := Array Entry → Nat → Bool

namespace Signal

def never : Signal := fun _ _ => false
def always : Signal := fun _ _ => true

/-- Canceled by the `k`-th stack that leaves a node. -/
def afterLeaves (k : Nat) : Signal := fun trace _ =>
  k ≤ trace.foldl (fun n e => if (e.event?.map Event.isLeave).getD false then n + 1 else n) 0

end Signal

namespace Valve

/-! ## Steps -/

/-- A valve at work, with all that was reported. -/
structure Work where
  valve : Valve
  trace : Array Entry := #[]

/-- A part of a step. What it has done to the valve stays done if it fails. -/
abbrev Step := EStateM RunError Work

namespace Step

def report (e : Entry) : Step Unit := modify fun w => { w with trace := w.trace.push e }

def log (level : Int) (message : String) (attrs : List (String × Log.Attr)) : Step Unit := do
  report (.log ((← get).valve.tagged ⟨level, message, attrs⟩))

def update (f : Valve → Valve) : Step Unit := modify fun w => { w with valve := f w.valve }

/-- Flows one flight into the draft, if what it puts out still fits the budget. -/
def cross (f : Flight) (d : Draft) : Step Draft := do
  let v := (← get).valve
  if f.node = noNode then pure (d.retire f)
  else match v.graph.node? f.node with
    | none => throw (.missingNode f.node v.graph.size)
    | some n =>
      match flow n f.stack with
      | .error e =>
        log Log.error "flow failed" [("node", .int f.node), ("err", .text e.message)]
        throw e
      | .ok outs =>
        let count := d.count + outs.length
        if 0 < v.maxStacks && v.maxStacks < v.recorded + count then
          log Log.warn "stack budget exhausted"
            [("recorded", .int v.recorded), ("pending", .int count), ("budget", .int v.maxStacks)]
          throw (.stackBudget v.maxStacks)
        else pure (d.through f.node n outs)

/-- Flows flights in order, from a position in the frontier on. In front of each of them the step
looks whether it has been canceled. -/
def gather (signal : Signal) : List Flight → (position : Nat) → Draft → Step Draft
  | [], _, d => pure d
  | f :: fs, position, d => do
    if signal (← get).trace position then throw .canceled
    else gather signal fs (position + 1) (← cross f d)

def commit (d : Draft) : Step Unit := do
  update fun v => { v with memo := d.record v.memo, recorded := v.recorded + d.count }
  d.events.toList.forM fun e => report (.event e)
  d.finished.toList.forM fun f => report (.event (.finished (pathEvent f.stack)))
  d.failed.toList.forM fun f => report (.event (.failed (pathEvent f.stack)))
  update fun v => { v with
    finished := v.finished ++ d.finished
    failed := v.failed ++ d.failed
    frontier := d.next.toList
    steps := v.steps + 1 }
  let v := (← get).valve
  log Log.debug "valve advanced"
    [("step", .int v.steps), ("frontier", .int d.next.size), ("recorded", .int v.recorded),
      ("failed", .int d.failed.size), ("finished", .int d.finished.size)]

end Step

/-- One step: all of the frontier. -/
def step (signal : Signal) : Step Unit := do
  Step.commit (← Step.gather signal (← get).valve.frontier 0 {})

/-- A step that failed, with the valve that it leaves behind and what it reported. -/
structure Abort where
  cause : RunError
  valve : Valve
  entries : List Entry := []

/-- One step by itself: the valve behind it, and what it reports. -/
def advance (v : Valve) (canceled : Nat → Bool) : Except Abort (Valve × List Entry) :=
  match (step fun _ => canceled).run ⟨v, #[]⟩ with
  | .ok _ w => .ok (w.valve, w.trace.toList)
  | .error e w => .error ⟨e, w.valve, w.trace.toList⟩

end Valve

/-- Where a run stands when it ends, or when it is given up. -/
structure Run where
  valve : Valve
  trace : Array Entry
  error : Option RunError

namespace Valve

/-- Steps until the frontier is empty. A positive `maxSteps` bounds the steps in the valve's life.
`none` means that the fuel ran out first. -/
def run (signal : Signal) (maxSteps : Int) : (fuel : Nat) → Valve → Array Entry → Option Run
  | 0, _, _ => none
  | fuel + 1, v, trace =>
    if v.isDone then
      some ⟨v, trace.push (.log (v.tagged ⟨Log.info, "valve drained", [("steps", .int v.steps),
        ("terminals", .int v.finished.size), ("failures", .int v.failed.size)]⟩)), none⟩
    else if 0 < maxSteps && maxSteps ≤ v.steps then
      some ⟨v, trace.push (.log (v.tagged ⟨Log.warn, "step limit reached",
        [("steps", .int v.steps), ("frontier", .int v.frontier.length)]⟩)), some .stepLimit⟩
    else
      match (step signal).run ⟨v, trace⟩ with
      | .error e w => some ⟨w.valve, w.trace, some e⟩
      | .ok _ w => run signal maxSteps fuel w.valve w.trace

/-- More steps than a run can be waited for. -/
def patience : Nat := 1152921504606846976

/-- Runs to the end. -/
def drain (signal : Signal) (maxSteps : Int) (v : Valve) (trace : Array Entry) : Run :=
  (run signal maxSteps patience v trace).getD ⟨v, trace, some .unfinished⟩

end Valve

end StackFlow
