import StackFlow.Graph.Mermaid
import StackFlow.Manager
import StackFlow.Text.Binary64
import StackFlow.Trail

/-!
The analyses as tools and resources for agents, after the Model Context Protocol.
-/

namespace StackFlow.Mcp

open Json (Value)

/-- What a tool answers; an error is also a text for the agent. -/
structure ToolResult where
  isError : Bool := false
  text : String

/-- A request that the protocol itself refuses. -/
structure RpcError where
  code : Int
  message : String

structure Resource where
  uri : String
  mime : String := "application/json"
  text : String

def toolNames : List String := ["analyze_contract", "contract_graph", "list_reports"]

def reportsUri : String := "conduit://reports"

def resourceNames : List String := [reportsUri]

/-! ## Arguments -/

def contractOf (args : Value) : Except ToolResult Contract :=
  match args.field? "contract" with
  | none => .error ⟨true, "required argument \"contract\" not found"⟩
  | some (.str source) =>
    match Contract.parse source with
    | .ok c => .ok c
    | .error e => .error ⟨true, "invalid contract: " ++ e.message⟩
  | some _ => .error ⟨true, "argument \"contract\" is not a string"⟩

/-- A number is cut to a whole one, a text has to be one; anything else counts as zero. -/
def wordOf (args : Value) (name : String) : Int :=
  match args.field? name with
  | some (.num t) => ((Binary64.read? t).map Binary64.truncate).getD 0
  | some (.str s) => (Decimal.readWord? s).getD 0
  | _ => 0

def textOf (args : Value) (name : String) : String :=
  match args.field? name with
  | some (.str s) => s
  | _ => ""

/-! ## Tools -/

def reportResult (r : Report) : ToolResult := { text := r.render }

/-- A step limit makes a run of its own, which is not kept. -/
def analyze (m : Manager) (c : Caller) (args : Value) : ToolResult × Manager :=
  match contractOf args with
  | .error r => (r, m)
  | .ok contract =>
    let limit := wordOf args "max_steps"
    if 0 < limit then
      let (a, engine) :=
        m.engine.analyzeLimit (if c.canceled then .always else .never) c.clock contract limit
      let m := { m with engine, trace := m.trace ++ a.trace }
      match a.outcome with
      | .ok r => (reportResult r, m)
      | .error e => (⟨true, "analysis failed: " ++ e.message⟩, m)
    else
      match m.analyze c contract with
      | (some (.ok (.report r _)), m) => (reportResult r, m)
      | (some (.error e), m) => (⟨true, "analysis failed: " ++ e.message⟩, m)
      | (_, m) => (⟨true, "analysis failed"⟩, m)

/-- Graphs are drawn without being checked. -/
def graph (m : Manager) (args : Value) : ToolResult × Manager :=
  match contractOf args with
  | .error r => (r, m)
  | .ok contract =>
    let raw := textOf args "path"
    let overlay : Except Trail.Error (Option (List Int)) :=
      if raw.isEmpty then .ok none else (Trail.parseLenient raw).map some
    match overlay with
    | .error e => (⟨true, e.message⟩, m)
    | .ok overlay =>
      let (g, _, engine) := m.engine.compile contract.code
      (⟨false, g.mermaid overlay⟩, { m with engine })

def listReports (m : Manager) (c : Caller) : ToolResult × Manager :=
  match m.list c with
  | (.ok ids, m) => (⟨false, (Value.ofStrings (ids.getD [])).render⟩, m)
  | (.error e, m) => (⟨true, "list failed: " ++ e.message⟩, m)

def call (m : Manager) (c : Caller) (tool : String) (args : Value) :
    Except RpcError ToolResult × Manager :=
  let ok (r : ToolResult × Manager) : Except RpcError ToolResult × Manager := (.ok r.1, r.2)
  match tool with
  | "analyze_contract" => ok (analyze m c args)
  | "contract_graph" => ok (graph m args)
  | "list_reports" => ok (listReports m c)
  | _ => (.error ⟨-32602, "tool '" ++ tool ++ "' not found: tool not found"⟩, m)

/-! ## Resources -/

/-- Whether a text can stand for a variable of a URI template: letters, digits, some marks and
percent escapes. -/
def isVariable : List Char → Bool
  | [] => true
  | '%' :: a :: b :: cs =>
    (Hex.digitValue? a).isSome && (Hex.digitValue? b).isSome && isVariable cs
  | c :: cs => (c.isAlphanum || ['-', '.', '_', '~', ','].contains c) && isVariable cs

/-- The ID in the URI of a report. -/
def reportOf? (uri : String) : Option String :=
  let start := (reportsUri ++ "/").toList
  let id := uri.toList.drop start.length
  if start.isPrefixOf uri.toList && isVariable id then some (String.ofList id) else none

def read (m : Manager) (c : Caller) (uri : String) : Except RpcError Resource × Manager :=
  if uri = reportsUri then
    match m.list c with
    | (.ok none, m) => (.ok { uri, text := Value.null.render }, m)
    | (.ok (some ids), m) => (.ok { uri, text := (Value.ofStrings ids).render }, m)
    | (.error e, m) => (.error ⟨-32603, "failed to list reports: " ++ e.message⟩, m)
  else
    match reportOf? uri with
    | none =>
      (.error ⟨-32002, "handler not found for resource URI '" ++ uri ++ "': resource not found"⟩, m)
    | some id =>
      match m.load c id with
      | (some (.ok (.report r _)), m) => (.ok { uri, text := r.render }, m)
      | (some (.error e), m) =>
        (.error ⟨-32603, "failed to load report " ++ id ++ ": " ++ e.message⟩, m)
      | (_, m) => (.error ⟨-32603, "failed to load report " ++ id⟩, m)

end StackFlow.Mcp
