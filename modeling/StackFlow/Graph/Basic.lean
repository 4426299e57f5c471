import StackFlow.Micheline.Instruction
import StackFlow.Semantics.Joint

/-!
Control-flow graphs. Tubes hold straight-line code and continue at one node; joints branch along
edges. A node is addressed by its position; positions outside the graph may occur as targets.
-/

namespace StackFlow

open Micheline (Code)

inductive NodeKind where
  | tube | joint
  /-- Neither; nothing flows through such a node. -/
  | other
deriving DecidableEq, Repr

def NodeKind.name : NodeKind → String
  | .joint => "joint"
  | _ => "tube"

/-- Where a path goes that has ended. -/
def noNode : Int := -1

/-- The empty tube in which compiled code ends. -/
def terminalId : Int := 0

structure Node where
  id : Int
  kind : NodeKind
  code : Code := []
  next : Int := noNode
  joint : String := ""
  edges : List Int := []

namespace Node

def tube (id : Int) (code : Code) (next : Int) : Node := { id, kind := .tube, code, next }

def fork (id : Int) (joint : String) (edges : List Int) : Node := { id, kind := .joint, joint, edges }

/-- The targets that are one step away. -/
def successors (n : Node) : List Int :=
  if n.kind = .joint then n.edges else if n.next = noNode then [] else [n.next]

end Node

structure Graph where
  nodes : Array Node
  root : Int

namespace Graph

def size (g : Graph) : Nat := g.nodes.size

def node? (g : Graph) (id : Int) : Option Node :=
  if id < 0 then none else g.nodes[id.toNat]?

/-- Why a look-up fails. -/
def missingMessage (g : Graph) (id : Int) : String :=
  "node " ++ Decimal.text id ++ " not in graph of " ++ Decimal.natText g.size ++ " nodes"

/-- All positions, in order. -/
def positions (g : Graph) : List Int := (List.range g.size).map Int.ofNat

def successorsOf (g : Graph) (id : Int) : List Int := ((g.node? id).map Node.successors).getD []

/-- Breadth-first search from the queue through the nodes that are still fresh. -/
def search (g : Graph) (queue fresh : List Int) : List Int :=
  match queue with
  | [] => []
  | id :: queue =>
    if h : id ∈ fresh then
      have := List.length_erase_of_mem h
      have := List.length_pos_of_mem h
      id :: search g (queue ++ g.successorsOf id) (fresh.erase id)
    else search g queue fresh
termination_by (fresh.length, queue.length)

/-- The nodes that can be reached from the root, nearest first. -/
def reachable (g : Graph) : List Int := g.search [g.root] g.positions

end Graph

end StackFlow
