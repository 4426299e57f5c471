import StackFlow.Regex.Parser
import StackFlow.Report.Basic
import StackFlow.Text.Quoted

/-!
Masked reports: what patterns match in the rendered stacks is replaced by asterisks.
-/

namespace StackFlow

def maskWord : String := "***"

structure PatternError where
  pattern : String

def PatternError.message (e : PatternError) : String :=
  "invalid redact pattern " ++ Text.quote e.pattern ++ ": error parsing regexp: not an expression"

def readPatterns (patterns : List String) : Except PatternError (List Regex) :=
  patterns.mapM fun p =>
    match Regex.parse? p with
    | some r => .ok r
    | none => .error ⟨p⟩

/-- Masks the matches of one pattern after the other. -/
def maskText (patterns : List Regex) (s : String) : String :=
  patterns.foldl (fun s r => r.replaceAll maskWord s) s

/-- An empty path comes out as a missing one. -/
def PathResult.mask (patterns : List Regex) (p : PathResult) : PathResult :=
  { p with
    path := p.path.bind nonEmpty?
    top := maskText patterns p.top
    stack := p.stack.map (maskText patterns) }

def Report.mask (patterns : List Regex) (r : Report) : Report :=
  { r with
    terminals := r.terminals.map fun ps => ps.map (PathResult.mask patterns)
    failures := r.failures.map fun ps => ps.map (PathResult.mask patterns) }

end StackFlow
