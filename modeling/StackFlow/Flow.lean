import StackFlow.Graph.Basic

/-!
How a stack flows through one node. The stack that enters is left as it is.
-/

namespace StackFlow

open Micheline (Instruction Code)

/-- A stack that is about to enter a node; at `noNode` its path has ended. -/
structure Flight where
  node : Int
  stack : Stack
deriving Inhabited

inductive RunError where
  | missingNode (id : Int) (size : Nat)
  | unknownKind (id : Int) (kind : NodeKind)
  | instruction (node : Int) (i : Instruction) (fault : Fault)
  | joint (node : Int) (fault : Fault)
  | edgeCount (node : Int) (joint : String) (edges : Nat)
  | stepLimit
  | stackBudget (budget : Int)
  | canceled
  /-- The run was not followed to its end. -/
  | unfinished

def RunError.message : RunError → String
  | .missingNode id size =>
    "node " ++ Decimal.text id ++ " not in graph of " ++ Decimal.natText size ++ " nodes"
  | .unknownKind id kind => "node " ++ Decimal.text id ++ ": unknown kind " ++ kind.name
  | .instruction n i e => "node " ++ Decimal.text n ++ ": " ++ i.text ++ ": " ++ e.message
  | .joint n e => "node " ++ Decimal.text n ++ ": " ++ e.message
  | .edgeCount n j edges =>
    "node " ++ Decimal.text n ++ ": " ++ j ++ " produced 2 stacks for " ++ Decimal.natText edges
      ++ " edges"
  | .stepLimit => "step limit reached"
  | .stackBudget b => "step limit reached: stack budget of " ++ Decimal.text b ++ " exhausted"
  | .canceled => "context canceled"
  | .unfinished => "run not finished"

def RunError.kind : RunError → ErrorKind
  | .instruction _ _ e | .joint _ e => e.kind
  | .stepLimit | .stackBudget _ => .limit
  | .canceled => .canceled
  | _ => .other

/-- Whether a run was only cut short. -/
def RunError.isLimit : RunError → Bool
  | .stepLimit | .stackBudget _ => true
  | _ => false

/-- Runs straight-line code; nothing runs behind a failure. -/
def runCode : Code → Stack → Except (Instruction × Fault) Stack
  | [], s => .ok s
  | i :: is, s =>
    if s.isFailed then .ok s
    else
      match (Stack.step i).run s with
      | .ok _ s' => runCode is s'
      | .error e _ => .error (i, e)

def flowTube (n : Node) (s : Stack) : Except RunError (List Flight) :=
  match runCode n.code s with
  | .ok s' => .ok [⟨n.next, s'.visit n.id⟩]
  | .error (i, e) => .error (.instruction n.id i e)

def flowJoint (n : Node) (s : Stack) : Except RunError (List Flight) :=
  match (Stack.split n.joint).run s with
  | .error e _ => .error (.joint n.id e)
  | .ok (first, second) _ =>
    match n.edges with
    | [a, b] => .ok [⟨a, first⟩, ⟨b, second⟩]
    | edges => .error (.edgeCount n.id n.joint edges.length)

/-- The flights behind a node. -/
def flow (n : Node) (s : Stack) : Except RunError (List Flight) :=
  match n.kind with
  | .tube => flowTube n s
  | .joint => flowJoint n s
  | .other => .error (.unknownKind n.id n.kind)

end StackFlow
