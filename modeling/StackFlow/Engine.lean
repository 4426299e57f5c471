import StackFlow.Contract
import StackFlow.Graph.Build
import StackFlow.Graph.Validate
import StackFlow.Lru
import StackFlow.Report.Basic

/-!
The engine: a contract is compiled, checked, and run over all of its paths within limits. Failures
of the contract end up in the report; only defects of the code are errors.
-/

namespace StackFlow

open Micheline (Code)

structure Engine where
  env : Env := Env.default
  /-- The most steps of a run; no bound unless positive. -/
  maxSteps : Int := 1000
  /-- The most stacks that a run records; no bound unless positive. -/
  maxStacks : Int := 50000
  /-- Compiled graphs by the fingerprint of their code. -/
  cache : Option (Lru Graph) := none

inductive AnalysisError where
  | invalid (id : String) (cause : GraphError)
  | failed (id : String) (cause : RunError)

def AnalysisError.message : AnalysisError → String
  | .invalid id e => "contract " ++ id ++ ": " ++ e.message
  | .failed id e => "contract " ++ id ++ ": " ++ e.message

def AnalysisError.kind : AnalysisError → ErrorKind
  | .invalid .. => .invalidGraph
  | .failed _ e => e.kind

/-- What an analysis gives: a report or an error, and the trace of the run. -/
structure Analysis where
  outcome : Except AnalysisError Report
  trace : Array Entry := #[]

namespace Engine

def withCache (e : Engine) (size : Int) : Engine :=
  { e with cache := if 0 < size then some { capacity := size.toNat } else none }

/-- The graph of the code, whether it came from the cache, and the engine with its cache as the call
leaves it. -/
def compile (e : Engine) (code : Code) : Graph × Bool × Engine :=
  match e.cache with
  | none => (.build code, false, e)
  | some cache =>
    let key := Micheline.Code.fingerprint code
    match cache.get? key with
    | some (g, cache) => (g, true, { e with cache := some cache })
    | none =>
      let g := Graph.build code
      (g, false, { e with cache := some (cache.insert key g) })

def validate (g : Graph) : Except GraphError Unit := g.validate supports

def reportId (e : Engine) (c : Contract) : String := c.reportId e.env

/-- A valve over a graph with the limits of the engine. -/
def valve (e : Engine) (g : Graph) (initial : Stack) (id : String) : Valve :=
  { Valve.start g initial with maxStacks := e.maxStacks, analysisId := id }

/-- Analyses a compiled contract. -/
def analyzeGraph (e : Engine) (signal : Signal) (now : String) (c : Contract) (g : Graph)
    (maxSteps : Int) : Analysis :=
  let id := e.reportId c
  let record (level : Int) (message : String) (attrs : List (String × Log.Attr)) : Entry :=
    .log ⟨level, message, [("contract", .text c.name), ("id", .text id)] ++ attrs⟩
  match validate g with
  | .error err => { outcome := .error (.invalid id err) }
  | .ok () =>
    let r := (e.valve g (c.initialStack e.env) id).drain signal maxSteps #[]
    let done (truncated : Bool) : Analysis :=
      let report := Report.ofValve id c.name now truncated r.valve
      { outcome := .ok report
        trace := r.trace.push (record Log.info "analysis complete"
          [("steps", .int report.steps), ("terminals", .int (report.terminals.getD []).length),
            ("failures", .int (report.failures.getD []).length), ("truncated", .bool truncated)]) }
    match r.error with
    | none => done false
    | some err =>
      if err.isLimit then done true
      else
        { outcome := .error (.failed id err)
          trace := r.trace.push (record Log.error "analysis failed" [("err", .text err.message)]) }

/-- Analyses a contract with a step limit for this run only. -/
def analyzeLimit (e : Engine) (signal : Signal) (now : String) (c : Contract) (maxSteps : Int) :
    Analysis × Engine :=
  let (g, _, e') := e.compile c.code
  (e.analyzeGraph signal now c g maxSteps, e')

def analyze (e : Engine) (signal : Signal) (now : String) (c : Contract) : Analysis × Engine :=
  e.analyzeLimit signal now c e.maxSteps

/-- Analyses contracts in order; the first error ends it. -/
def analyzeAll (e : Engine) (signal : Signal) (now : String) :
    List Contract → Except AnalysisError (List Report)
  | [] => .ok []
  | c :: cs =>
    let (a, e) := e.analyze signal now c
    match a.outcome with
    | .error err => .error err
    | .ok r =>
      match analyzeAll e signal now cs with
      | .error err => .error err
      | .ok rs => .ok (r :: rs)

end Engine

end StackFlow
