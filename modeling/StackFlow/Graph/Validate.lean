import StackFlow.Graph.Basic
import StackFlow.Graph.Flatten

/-!
Structural checks. A crawl from the root gives every node the depth of the boundary with which a
stack enters it, and lists what is wrong: unknown instructions, wrong numbers of edges, targets
outside the graph, and markers that do not balance.
-/

namespace StackFlow

open Micheline (Instruction Code)

inductive Problem where
  | unsupported (node : Int) (name : String)
  | belowZero (node : Int)
  | unbalancedEnd (node : Int) (depth : Int)
  | unsupportedJoint (node : Int) (name : String)
  | edgeCount (node : Int) (joint : String) (found : Nat)
  | missingTarget (node : Int) (target : Int)
  | twoDepths (node : Int) (first second : Int)
deriving DecidableEq, Repr

def Problem.message : Problem → String
  | .unsupported n name => "node " ++ Decimal.text n ++ ": unsupported instruction " ++ name
  | .belowZero n => "node " ++ Decimal.text n ++ ": cursor drops below zero"
  | .unbalancedEnd n d => "node " ++ Decimal.text n ++ ": path ends with cursor " ++ Decimal.text d
  | .unsupportedJoint n name => "node " ++ Decimal.text n ++ ": unsupported joint " ++ name
  | .edgeCount n joint k =>
    "node " ++ Decimal.text n ++ ": " ++ joint ++ " has " ++ Decimal.natText k ++ " edges, want 2"
  | .missingTarget n t =>
    "node " ++ Decimal.text n ++ ": edge to missing node " ++ Decimal.text t
  | .twoDepths n a b =>
    "node " ++ Decimal.text n ++ ": reached with cursor " ++ Decimal.text a ++ " and "
      ++ Decimal.text b

inductive GraphError where
  | noRoot (root : Int) (size : Nat)
  | problems (found : List Problem)

def GraphError.message : GraphError → String
  | .noRoot root size =>
    "invalid graph: root: node " ++ Decimal.text root ++ " not in graph of " ++ Decimal.natText size
      ++ " nodes"
  | .problems ps =>
    "invalid graph: found " ++ Decimal.natText ps.length ++ " errors:\n- "
      ++ "\n- ".intercalate (ps.map Problem.message)

namespace Graph

/-- The depth behind a tube's code, and the problems on the way. -/
def checkTube (known : String → Bool) (id : Int) : Code → Int → Int × List Problem
  | [], d => (d, [])
  | i :: is, d =>
    let next := if isMarker i then wrap (d + markerDelta i) else d
    let (out, ps) := checkTube known id is next
    (out, (if known i.name then [] else [.unsupported id i.name])
      ++ (if isMarker i && next < 0 then [.belowZero id] else []) ++ ps)

/-- The depths along the edges of a joint: the first edge of an iteration hides one more item. -/
def edgeDepths (joint : String) (depth : Int) : List Int → List (Int × Int)
  | [] => []
  | e :: es =>
    (e, if joint == Joint.iter.name then wrap (depth + 1) else depth) :: es.map fun e => (e, depth)

/-- What a node sends on: its targets with their depths, and its own problems. -/
def checkNode (known : String → Bool) (id : Int) (n : Node) (depth : Int) :
    List (Int × Int) × List Problem :=
  match n.kind with
  | .tube =>
    let (out, ps) := checkTube known id n.code depth
    if n.next = noNode then ([], ps ++ if out = 0 then [] else [.unbalancedEnd id out])
    else ([(n.next, out)], ps)
  | .joint =>
    (edgeDepths n.joint depth n.edges,
      (if known n.joint then [] else [.unsupportedJoint id n.joint])
        ++ if n.edges.length = 2 then [] else [.edgeCount id n.joint n.edges.length])
  | .other => ([], [])

/-- The state of a crawl: nodes to look at, nodes not yet looked at, depths given, and problems. -/
structure Crawl where
  queue : List Int
  fresh : List Int
  depths : List (Int × Int)
  problems : List Problem

/-- Follows one edge from node `id`. -/
def Crawl.follow (g : Graph) (id : Int) (c : Crawl) (target : Int × Int) : Crawl :=
  let (next, depth) := target
  if (g.node? next).isNone then { c with problems := c.problems ++ [.missingTarget id next] }
  else
    match c.depths.lookup next with
    | some known =>
      if known ≠ depth then { c with problems := c.problems ++ [.twoDepths next known depth] }
      else { c with queue := if next ∈ c.fresh then c.queue ++ [next] else c.queue }
    | none =>
      { c with
        depths := (next, depth) :: c.depths
        queue := if next ∈ c.fresh then c.queue ++ [next] else c.queue }

theorem Crawl.fresh_follow (g : Graph) (id : Int) (c : Crawl) (target : Int × Int) :
    (c.follow g id target).fresh = c.fresh := by
  simp only [Crawl.follow]
  split
  · rfl
  · split
    · split <;> rfl
    · rfl

theorem Crawl.fresh_foldl (g : Graph) (id : Int) (targets : List (Int × Int)) (c : Crawl) :
    (targets.foldl (Crawl.follow g id) c).fresh = c.fresh := by
  induction targets generalizing c with
  | nil => rfl
  | cons t ts ih => simp [ih, Crawl.fresh_follow]

/-- Looks at one node. -/
def Crawl.visit (known : String → Bool) (g : Graph) (id : Int) (c : Crawl) : Crawl :=
  match g.node? id with
  | none => c
  | some n =>
    let (targets, ps) := checkNode known id n ((c.depths.lookup id).getD 0)
    targets.foldl (Crawl.follow g id) { c with problems := c.problems ++ ps }

theorem Crawl.fresh_visit (known : String → Bool) (g : Graph) (id : Int) (c : Crawl) :
    (c.visit known g id).fresh = c.fresh := by
  unfold Crawl.visit
  split
  · rfl
  · simp [Crawl.fresh_foldl]

def crawl (known : String → Bool) (g : Graph) (c : Crawl) : Crawl :=
  match _hq : c.queue with
  | [] => c
  | id :: queue =>
    if h : id ∈ c.fresh then
      have := List.length_erase_of_mem h
      have := List.length_pos_of_mem h
      crawl known g (Crawl.visit known g id { c with queue, fresh := c.fresh.erase id })
    else crawl known g { c with queue }
termination_by (c.fresh.length, c.queue.length)
decreasing_by
  · simp only [Crawl.fresh_visit]
    apply Prod.Lex.left
    omega
  · apply Prod.Lex.right
    simp [_hq]

/-- The crawl of the whole graph. -/
def survey (known : String → Bool) (g : Graph) : Crawl :=
  crawl known g { queue := [g.root], fresh := g.positions, depths := [(g.root, 0)], problems := [] }

def validate (known : String → Bool) (g : Graph) : Except GraphError Unit :=
  if (g.node? g.root).isNone then throw (.noRoot g.root g.size)
  else
    match (g.survey known).problems with
    | [] => pure ()
    | ps => throw (.problems ps)

end Graph

end StackFlow
