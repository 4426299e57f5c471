import StackFlow.Graph.Mermaid
import StackFlow.Http.Query
import StackFlow.Http.Route
import StackFlow.Manager
import StackFlow.Metrics
import StackFlow.Stream
import StackFlow.Trail
import StackFlow.Version

/-!
The analyses over HTTP: requests in, responses out. Listeners of the event stream hear of every
report that was newly made.
-/

namespace StackFlow.Http

open Json (Value)

structure Request where
  method : String
  /-- Path and query, percent-encoded. -/
  target : String
  body : String := ""

inductive Body where
  | empty
  | text (s : String)
  | json (v : Value)
  | metrics (m : Metrics)

structure Response where
  status : Nat
  headers : List (String × String) := []
  body : Body := .empty

structure Api where
  manager : Manager
  stream : Stream := {}
  /-- What the listeners of the event stream have received, by the number of their subscription. -/
  received : List (Nat × String) := []

/-- Uploads may have four mebibytes. -/
def maxBody : Nat := 4194304

/-- Every response lets pages from anywhere use the service. -/
def openHeaders : List (String × String) :=
  [("Access-Control-Allow-Origin", "*"),
    ("Access-Control-Allow-Methods", "GET, POST, DELETE, OPTIONS"),
    ("Access-Control-Allow-Headers", "Content-Type")]

namespace Response

def contentType? (r : Response) : Option String := r.headers.lookup "Content-Type"

def plain (status : Nat) (s : String) : Response :=
  { status, headers := [("Content-Type", "text/plain; charset=utf-8")], body := .text s }

/-- An error is a line of text that no browser should take for anything else. -/
def error (status : Nat) (message : String) : Response :=
  let r := plain status (message ++ "\n")
  { r with headers := r.headers ++ [("X-Content-Type-Options", "nosniff")] }

def ofJson (v : Value) : Response :=
  { status := 200, headers := [("Content-Type", "application/json")], body := .json v }

def eventStream (text : String) : Response :=
  { status := 200
    headers := [("Content-Type", "text/event-stream"), ("Cache-Control", "no-cache"),
      ("Connection", "keep-alive")]
    body := .text text }

/-- The series in their exposition format. -/
def ofMetrics (m : Metrics) : Response :=
  { status := 200
    headers := [("Content-Type", "text/plain; version=0.0.4; charset=utf-8; escaping=underscores")]
    body := .metrics m }

end Response

/-! ## Status codes -/

def statusOfKind : ErrorKind → Nat
  | .reportNotFound | .contractNotFound => 404
  | .unsupported | .underflow | .invalidGraph => 422
  | .canceled => 503
  | _ => 500

def statusOf : ManagerError → Nat
  | .lease (.server .canceled) => 503
  | e => statusOfKind e.kind

/-! ## The event stream -/

def greeting : String := "event: ping\ndata: connected\n\n"

def announcement (message : String) : String := "event: report\ndata: " ++ message ++ "\n\n"

def summary (r : Report) : Value :=
  .obj ([("id", .str r.id)] ++ Value.unlessBlank "contract" r.contract
    ++ [("terminals", .ofNat (r.terminals.getD []).length),
      ("failures", .ofNat (r.failures.getD []).length)]
    ++ if r.truncated then [("truncated", .bool true)] else [])

namespace Api

/-- Hands every listener what waits for it. -/
def deliver (a : Api) : Api :=
  a.received.foldl (fun a (n, _) =>
    let (messages, _, stream) := a.stream.drain n
    { a with
      stream
      received := a.received.map fun (k, text) =>
        if k = n then (k, text ++ String.join (messages.map announcement)) else (k, text) }) a

def announce (a : Api) (r : Report) : Api :=
  ({ a with stream := a.stream.broadcast (summary r).render } : Api).deliver

/-- A listener joins; its number names it from then on. -/
def listen (a : Api) : Nat × Api :=
  let (n, stream) := a.stream.subscribe
  (n, { a with stream, received := a.received ++ [(n, greeting)] })

/-- A listener goes; the response is all that it received. -/
def hangUp (a : Api) (n : Nat) : Response × Api :=
  (.eventStream ((a.received.lookup n).getD ""),
    { a with stream := a.stream.leave n, received := a.received.filter (·.1 != n) })

/-! ## Requests -/

def metrics (a : Api) : Metrics :=
  Metrics.observeAll {} (a.manager.trace.toList.filterMap Entry.event?)

def readContract (body : String) : Except Response Contract :=
  if maxBody < body.utf8ByteSize then .error (.error 400 "Invalid request body")
  else
    match Contract.parse body with
    | .error e => .error (.error 400 ("Invalid contract: " ++ e.message))
    | .ok c => .ok c

def analyze (a : Api) (c : Caller) (body : String) : Response × Api :=
  match readContract body with
  | .error r => (r, a)
  | .ok contract =>
    let (o, m) := a.manager.analyze c contract
    let a := { a with manager := m }
    match o with
    | some (.ok (.report r cached)) =>
      (.ofJson (.obj [("report", r.toJson), ("cached", .bool cached)]),
        if cached then a else a.announce r)
    | some (.error e) => (.error (statusOf e) ("Analyze error: " ++ e.message), a)
    | _ => (.error 500 "Analyze error", a)

/-- A path in the query is highlighted; the first one counts. -/
def graph (a : Api) (body : String) (query : Query) : Response × Api :=
  match readContract body with
  | .error r => (r, a)
  | .ok contract =>
    let overlay : Except Trail.Error (Option (List Int)) := match query.lookup "path" with
      | none | some [] => .ok none
      | some raw => (Trail.parsePieces raw).map some
    match overlay with
    | .error e => (.error 400 e.message, a)
    | .ok overlay =>
      let (g, _, engine) := a.manager.engine.compile contract.code
      let a := { a with manager := { a.manager with engine } }
      match Engine.validate g with
      | .error e => (.error 422 ("Invalid graph: " ++ e.message), a)
      | .ok () => (.plain 200 (g.mermaid overlay), a)

def answer (a : Api) (c : Caller) (r : Request) (query : Query) :
    Resource → Response × Api
  | .health => (.ofJson (.obj [("status", .str "ok")]), a)
  | .info =>
    (.ofJson (.obj [("app", .str "conduit-http"), ("subscribers", .ofNat a.stream.count),
      ("version", .str version)]), a)
  | .analyze => a.analyze c r.body
  | .graph => a.graph r.body query
  | .events => (.eventStream greeting, a)
  | .reports =>
    let (ids, m) := a.manager.list c
    let a := { a with manager := m }
    match ids with
    | .ok ids => (.ofJson (.ofStrings (ids.getD [])), a)
    | .error e => (.error 500 ("List error: " ++ e.message), a)
  | .report id =>
    let (o, m) := if r.method == "DELETE" then a.manager.delete c id else a.manager.load c id
    let a := { a with manager := m }
    match o with
    | some (.ok (.report r _)) => (.ofJson r.toJson, a)
    | some (.ok .done) => ({ status := 204 }, a)
    | some (.error e) => (.error (statusOf e) e.message, a)
    | none => (.error 500 "", a)
  | .metrics => (.ofMetrics a.metrics, a)

/-- Where series are told, nothing is the same as no series. -/
def emptyAt (path : String) : Body := if path == "/metrics" then .metrics {} else .empty

/-- The response without the headers that all responses have. -/
def respond (a : Api) (c : Caller) (r : Request) : Response × Api :=
  let (path, query) := splitTarget r.target
  if r.method == "OPTIONS" then ({ status := 200, body := emptyAt path }, a)
  else
    match route r.method path with
    | .notFound => (.error 404 "404 page not found", a)
    | .notAllowed ms =>
      ({ status := 405, headers := ms.map fun m => ("Allow", m), body := emptyAt path }, a)
    | .found resource => a.answer c r query resource

def handle (a : Api) (c : Caller) (r : Request) : Response × Api :=
  let (response, a) := a.respond c r
  ({ response with headers := openHeaders ++ response.headers }, a)

end Api

end StackFlow.Http
