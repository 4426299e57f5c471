import StackFlow.Graph.Basic

/-!
Flowcharts of the reachable nodes in Mermaid's language. The terminal is a circle, a joint a rhombus
with labelled edges, a tube a rectangle that lists its code; an edge back to a loop is dotted. An
overlay highlights the nodes of a path, and the last of them once more.
-/

namespace StackFlow.Graph

def mermaidId (id : Int) : String := "n" ++ Decimal.text id

def escapeLabel (s : String) : String :=
  String.ofList (s.toList.flatMap fun c => if c = '"' then "#quot;".toList else [c])

def tubeLabel (n : Node) : String :=
  "<br/>".intercalate (Decimal.text n.id :: n.code.map fun i => escapeLabel i.text)

def shapeLine (id : Int) (n : Node) : String :=
  if id = terminalId && n.code.isEmpty then mermaidId id ++ "((\"end\"))"
  else if n.kind = .joint then
    mermaidId id ++ "\x7b\"" ++ Decimal.text id ++ ": " ++ n.joint ++ "\"\x7d"
  else mermaidId id ++ "[\"" ++ tubeLabel n ++ "\"]"

/-- The label of an edge by its position; a joint of no known kind has none. -/
def edgeLabel (joint : String) (i : Nat) : String :=
  match Joint.ofName? joint, i with
  | some j, 0 => j.labels.1
  | some j, 1 => j.labels.2
  | _, _ => ""

/-- Whether the edge of a tube goes back to a loop: loops are numbered before their bodies. -/
def isBackEdge (g : Graph) (id next : Int) : Bool :=
  match g.node? next with
  | some n => n.kind = .joint && ((Joint.ofName? n.joint).map Joint.isLoop).getD false && next < id
  | none => false

def edgeLines (g : Graph) (id : Int) (n : Node) : List String :=
  if n.kind = .joint then
    n.edges.mapIdx fun i target =>
      mermaidId id ++ " -- \"" ++ edgeLabel n.joint i ++ "\" --> " ++ mermaidId target
  else if n.next = noNode then []
  else
    [mermaidId id ++ (if g.isBackEdge id n.next then " -.-> " else " --> ") ++ mermaidId n.next]

/-- A node's own line and the lines of its edges. -/
def nodeLines (g : Graph) (id : Int) : List String :=
  match g.node? id with
  | some n => shapeLine id n :: g.edgeLines id n
  | none => []

/-- A list without repetitions, by first occurrence. -/
def distinct : List Int → List Int → List Int
  | _, [] => []
  | seen, id :: ids => if id ∈ seen then distinct seen ids else id :: distinct (id :: seen) ids

def overlayLines (drawn path : List Int) : List String :=
  ["%% Overlay Styles",
    "classDef visited fill:#e1f5fe,stroke:#01579b,stroke-width:2px,color:#000;",
    "classDef current fill:#ffeb3b,stroke:#fbc02d,stroke-width:4px,color:#000;"]
    ++ (distinct [] (path.filter (· ∈ drawn))).map (fun id => "class " ++ mermaidId id ++ " visited;")
    ++ (path.getLast?.toList.filter (· ∈ drawn)).map fun id =>
      "class " ++ mermaidId id ++ " current;"

def indented (lines : List String) : String :=
  String.join (lines.map fun l => "    " ++ l ++ "\n")

def mermaid (g : Graph) (path : Option (List Int)) : String :=
  let drawn := g.reachable
  "graph TD\n" ++ indented (drawn.flatMap g.nodeLines)
    ++ match path with
      | none => ""
      | some p => "\n" ++ indented (overlayLines drawn p)

end StackFlow.Graph
