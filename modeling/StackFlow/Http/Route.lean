/-!
The resources that a path can name, and the methods they take.
-/

namespace StackFlow.Http

inductive Resource where
  | health
  | info
  | analyze
  | graph
  | events
  | reports
  | report (id : String)
  | metrics

namespace Resource

/-- A report's ID is one non-empty segment, taken as it was sent. -/
def ofPath? (path : String) : Option Resource :=
  match path with
  | "/health" => some health
  | "/info" => some info
  | "/analyze" => some analyze
  | "/graph" => some graph
  | "/events" => some events
  | "/reports" | "/reports/" => some reports
  | "/metrics" => some metrics
  | _ =>
    let start := "/reports/".toList
    let id := path.toList.drop start.length
    if start.isPrefixOf path.toList && !id.contains '/' then some (report (String.ofList id))
    else none

/-- The methods of a resource; `none` where any will do. -/
def methods : Resource → Option (List String)
  | health | info | events | reports => some ["GET"]
  | analyze | graph => some ["POST"]
  | report _ => some ["DELETE", "GET"]
  | metrics => none

end Resource

/-- The methods that a request may have at all. -/
def knownMethods : List String :=
  ["CONNECT", "DELETE", "GET", "HEAD", "OPTIONS", "PATCH", "POST", "PUT", "TRACE"]

inductive Routing where
  | found (r : Resource)
  | notFound
  /-- The resource takes only some methods. -/
  | notAllowed (methods : List String)

def route (method path : String) : Routing :=
  if !knownMethods.contains method then .notAllowed []
  else
    match Resource.ofPath? path with
    | none => .notFound
    | some r =>
      match r.methods with
      | none => .found r
      | some ms => if ms.contains method then .found r else .notAllowed ms

end StackFlow.Http
