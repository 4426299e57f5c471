import StackFlow.Report.Basic

/-!
Reports as Markdown documents: a summary, then a section per outcome with the trail and the final
stack of each path.
-/

namespace StackFlow.Report

/-- A trail of nodes, or a word for an empty one. -/
def trailText (path : List Int) : String :=
  if path.isEmpty then "(empty)" else " → ".intercalate (path.map Decimal.text)

def pathSection (index : Nat) (p : PathResult) : String :=
  "\n### " ++ Decimal.natText (index + 1) ++ ". `" ++ p.top ++ "`\n\n- path: "
    ++ trailText (p.path.getD []) ++ "\n- node: " ++ Decimal.text p.node ++ "\n"
    ++ if 1 < p.stack.length then
        "- stack:\n" ++ String.join (p.stack.map fun s => "  - `" ++ s ++ "`\n")
      else ""

def outcomeSection (title : String) (paths : List PathResult) : String :=
  if paths.isEmpty then "" else "\n## " ++ title ++ "\n" ++ String.join (paths.mapIdx pathSection)

def visitsSection (visits : List (Int × Int)) : String :=
  if visits.isEmpty then ""
  else
    "\n## Visits\n\n| node | stacks |\n|---|---|\n" ++ String.join
      ((visits.mergeSort fun a b => a.1 ≤ b.1).map fun (id, n) =>
        "| " ++ Decimal.text id ++ " | " ++ Decimal.text n ++ " |\n")

def markdown (r : Report) : String :=
  let row (name value : String) : String := "| " ++ name ++ " | " ++ value ++ " |\n"
  let terminals := r.terminals.getD []
  let failures := r.failures.getD []
  "# " ++ (if r.contract == "" then r.id else r.contract) ++ "\n\n| | |\n|---|---|\n"
    ++ row "id" ("`" ++ r.id ++ "`") ++ row "nodes" (Decimal.text r.nodes)
    ++ row "steps" (Decimal.text r.steps)
    ++ row "terminals" (Decimal.natText terminals.length)
    ++ row "failures" (Decimal.natText failures.length)
    ++ (if r.truncated then
        "\n> **Truncated:** the step limit was reached before every path finished.\n" else "")
    ++ outcomeSection "Terminals" terminals ++ outcomeSection "Failures" failures
    ++ visitsSection r.visits

end StackFlow.Report
