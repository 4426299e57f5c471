import StackFlow.App
import StackFlow.Banner
import StackFlow.Command.Flags
import StackFlow.Command.Suggest
import StackFlow.Report.Markdown
import StackFlow.Version

/-!
The command line: words in, what is printed out.
-/

namespace StackFlow

open Json (Value)

/-- What a run prints, and the error that ended it. -/
structure Output where
  stdout : String := ""
  stderr : String := ""
  error : Option AppError := none

/-- What a run of the command line finds around it, and leaves to the next. -/
structure Machine where
  /-- The files below the working directory. -/
  files : Files
  /-- Connections are not part of this library. -/
  server : Server := .unreachable

/-- What a command prints on both channels before it ends or fails. -/
structure Printed where
  stdout : String := ""
  stderr : String := ""
  outcome : Except AppError Unit := .ok ()

namespace Command

def programName : String := "conduit"

def commonFlags : List Flag :=
  [⟨"dir", .text, none⟩, ⟨"config", .text, none⟩, ⟨"debug", .switch, none⟩]

/-- The commands and the flags of their own. -/
def commands : List (String × List Flag) :=
  [("analyze", [⟨"json", .switch, none⟩, ⟨"max-steps", .int, none⟩, ⟨"store", .text, none⟩,
      ⟨"concurrency", .int, none⟩, ⟨"watch", .switch, some 'w'⟩]),
    ("graph", [⟨"path", .text, none⟩]),
    ("list", [⟨"reports", .switch, none⟩, ⟨"store", .text, none⟩]),
    ("mcp", [⟨"transport", .text, none⟩, ⟨"port", .int, none⟩, ⟨"store", .text, none⟩]),
    ("serve", [⟨"port", .int, some 'p'⟩, ⟨"store", .text, none⟩]),
    ("validate", []),
    ("version", [])]

/-- The names that a mistyped command may have meant. -/
def suggestible : List String := commands.map (·.1) ++ ["completion"]

def unknownCommand (name : String) : String :=
  let found := suggestions suggestible name
  "unknown command " ++ Text.quote name ++ " for " ++ Text.quote programName
    ++ if found.isEmpty then ""
      else "\n\nDid you mean this?\n" ++ String.join (found.map fun n => "\t" ++ n ++ "\n")

def overrides (a : Arguments) : Overrides :=
  { dir := (a.text? "dir").getD "."
    configPath := (a.text? "config").getD ""
    debug := a.isOn "debug"
    maxSteps := a.int? "max-steps"
    driver := a.text? "store" }

/-! ## What commands print -/

def printReports (asJson : Bool) (rs : List Report) : String :=
  if asJson then
    match rs with
    | [r] => r.toJson.renderIndented ++ "\n"
    | rs => (Value.arr (rs.map Report.toJson)).renderIndented ++ "\n"
  else
    String.join (rs.map fun r =>
      let failures := (r.failures.getD []).length
      r.markdown ++ "\n" ++ outcomeWord (failures != 0) ++ " " ++ r.contract ++ ": "
        ++ Decimal.natText (r.terminals.getD []).length ++ " terminal, "
        ++ Decimal.natText failures ++ " failing\n\n")

def contractLine (id : String) (m : Metadata) : String :=
  id ++ (if m.name.isEmpty || m.name == id then "" else "\t" ++ m.name)
    ++ (if (m.tags.getD []).isEmpty then "" else "\t[" ++ ", ".intercalate (m.tags.getD []) ++ "]")
    ++ "\n"

/-- Prints the contracts one by one until one cannot be read. -/
def printContracts (r : Repository) : List String → Printed
  | [] => {}
  | id :: ids =>
    match r.metadata id with
    | .error e => { outcome := .error (.repository e) }
    | .ok m =>
      let rest := printContracts r ids
      { rest with stdout := contractLine id m ++ rest.stdout }

def validateOne (c : Contract) : Printed :=
  match Engine.validate (Graph.build c.code) with
  | .ok () => { stdout := c.name ++ ": graph is valid ✅\n" }
  | .error e => { stderr := c.name ++ ": " ++ e.message ++ "\n", outcome := .error (.invalid 1 1) }

def validateAll (cs : List Contract) : Printed :=
  let results := cs.map validateOne
  let failed := (results.filter fun r => r.outcome.toOption.isNone).length
  { stdout := String.join (results.map (·.stdout))
    stderr := String.join (results.map (·.stderr))
    outcome := if failed = 0 then .ok () else .error (.invalid failed cs.length) }

/-! ## Commands -/

def analyze (app : App) (c : Caller) (a : Arguments) : Printed × App :=
  match app.round c a.rest ((a.int? "concurrency").getD 4) with
  | (.ok rs, app) => ({ stdout := printReports (a.isOn "json") rs }, app)
  | (.error e, app) => ({ outcome := .error e }, app)

def graph (app : App) (a : Arguments) : Printed :=
  let drawn : Except AppError String := do
    let cs ← app.contracts a.rest
    let overlay ← match a.text? "path" with
      | none | some "" => pure none
      | some raw =>
        match Trail.parse raw with
        | .ok ids => pure (some ids)
        | .error e => throw (.trail e)
    pure (String.join (cs.take 1 |>.map fun c => (Graph.build c.code).mermaid overlay))
  match drawn with
  | .ok s => { stdout := s }
  | .error e => { outcome := .error e }

def list (app : App) (c : Caller) (a : Arguments) : Printed × App :=
  if a.isOn "reports" then
    match app.manager.list c with
    | (.ok ids, m) =>
      ({ stdout := String.join ((ids.getD []).map (· ++ "\n")) }, { app with manager := m })
    | (.error e, m) => ({ outcome := .error (.store e) }, { app with manager := m })
  else
    match app.list with
    | .error e => ({ outcome := .error e }, app)
    | .ok ids =>
      match app.source, Repository.openAt app.files app.dir with
      | .directory, .ok r => (printContracts r ids, app)
      | _, _ => ({ stdout := String.join (ids.map (· ++ "\n")) }, app)

def validate (app : App) (a : Arguments) : Printed :=
  match app.contracts a.rest with
  | .error e => { outcome := .error e }
  | .ok cs => validateAll cs

/-- Sockets and streams are not part of this library, so a server is never started. -/
def server (name : String) (a : Arguments) : Printed :=
  match (a.text? "transport").getD "stdio" with
  | "stdio" | "sse" => { outcome := .error (.notListening name) }
  | other => { outcome := .error (.transport other) }

def execute (m : Machine) (c : Caller) (name : String) (a : Arguments) : Printed × Machine :=
  if name == "version" then
    ({ stdout := programName ++ " version " ++ version ++ "\n" }, m)
  else if name == "graph" && a.rest.length ≠ 1 then
    ({ outcome := .error (.usage ("accepts 1 arg(s), received "
      ++ Decimal.natText a.rest.length)) }, m)
  else
    match App.start m.files m.server (overrides a) with
    | .error e => ({ outcome := .error e }, m)
    | .ok app =>
      let (printed, app) : Printed × App := match name with
        | "analyze" => analyze app c a
        | "graph" => (graph app a, app)
        | "list" => list app c a
        | "validate" => (validate app a, app)
        | _ => (server name a, app)
      (printed, { m with server := app.manager.shelf.server })

def finished (p : Printed) : Output :=
  match p.outcome with
  | .ok () => { stdout := p.stdout, stderr := p.stderr }
  | .error e =>
    { stdout := p.stdout, stderr := p.stderr ++ "Error: " ++ e.message ++ "\n", error := some e }

end Command

open Command in
/-- Runs the command that the words name. -/
def Machine.run (m : Machine) (c : Caller) (args : List String) : Output × Machine :=
  match splitCommand commonFlags args with
  | none =>
    match Arguments.parse commonFlags args with
    | .ok _ => ({}, m)
    | .error message => (finished { outcome := .error (.usage message) }, m)
  | some (name, args) =>
    match commands.lookup name with
    | none =>
      let e := AppError.usage (unknownCommand name)
      ({ stderr := "Error: " ++ e.message ++ "\nRun '" ++ programName ++ " --help' for usage.\n"
         error := some e }, m)
    | some own =>
      match Arguments.parse (commonFlags ++ own) args with
      | .error message => (finished { outcome := .error (.usage message) }, m)
      | .ok a =>
        let (printed, m) := execute m c name a
        (finished printed, m)

end StackFlow
