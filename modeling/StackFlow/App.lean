import StackFlow.Batch
import StackFlow.Config
import StackFlow.Graph.Mermaid
import StackFlow.Library
import StackFlow.Repository.Directory
import StackFlow.Trail

/-!
What the commands share: the configuration, the manager it makes, and the place where contracts
come from.
-/

namespace StackFlow

inductive AppError where
  | config (cause : ConfigError)
  | pattern (cause : PatternError)
  | key (cause : Key.Error)
  | repository (cause : RepositoryError)
  | noContracts (dir : String)
  | unreadable (arg reason : String)
  | notLoaded (arg : String) (cause : RepositoryError)
  | malformed (arg : String) (cause : Micheline.DecodeError)
  | analysis (cause : AnalysisError)
  | served (name : String) (cause : ManagerError)
  | store (cause : StoreError)
  | trail (cause : Trail.Error)
  | invalid (failed total : Nat)
  | notWatchable
  /-- Calls still wait for leases of other programs. -/
  | unfinished
  | transport (name : String)
  | notListening (command : String)
  /-- The words of the command line do not fit the command. -/
  | usage (message : String)

def AppError.message : AppError → String
  | .config e => e.message
  | .pattern e => e.message
  | .key e => e.message
  | .repository e => e.message
  | .noContracts dir => "no contracts found in " ++ dir
  | .unreadable arg reason => arg ++ ": " ++ reason
  | .notLoaded arg e => arg ++ ": " ++ e.message
  | .malformed arg e => arg ++ ": " ++ e.message
  | .analysis e => e.message
  | .served name e => name ++ ": " ++ e.message
  | .store e => e.message
  | .trail e => e.message
  | .invalid failed total =>
    "validation failed for " ++ Decimal.natText failed ++ " of " ++ Decimal.natText total ++ " contracts"
  | .notWatchable => "contract source does not support watching"
  | .unfinished => "the calls have not returned"
  | .transport name => "unknown transport: " ++ name ++ ". Supported: stdio, sse"
  | .notListening command => command ++ ": listening is not supported"
  | .usage message => message

def AppError.kind : AppError → ErrorKind
  | .repository e | .notLoaded _ e => e.kind
  | .analysis e => e.kind
  | .served _ e => e.kind
  | .store e => e.kind
  | _ => .other

/-- Where contracts come from when they are not named by their files. -/
inductive ContractSource where
  /-- The repository in a directory, which is opened when it is first needed. -/
  | directory
  /-- Contracts in memory; the flag tells whether changes are announced. -/
  | library (l : Library) (announces : Bool := true)

structure App where
  config : Config
  manager : Manager
  files : Files
  dir : String
  source : ContractSource := .directory

/-- What a command line sets over the configuration. -/
structure Overrides where
  dir : String := "."
  configPath : String := ""
  debug : Bool := false
  maxSteps : Option Int := none
  driver : Option String := none

namespace App

/-- The layers that the configuration asks for. Texts are masked before they are sealed. -/
def layers (c : StoreConfig) : Except AppError (List Layer) := do
  let sealing : List Layer ←
    if c.encryptionKey.isEmpty then pure []
    else do
      let read (k : String) : Except AppError Bytes :=
        match Key.parse k with
        | .ok key => .ok key
        | .error e => .error (.key e)
      let active ← read c.encryptionKey
      let fallbacks ← (c.fallbackKeys.getD []).mapM read
      pure [.sealing { active, fallbacks }]
  match readPatterns (c.redact.getD []) with
  | .error e => throw (.pattern e)
  | .ok [] => pure sealing
  | .ok patterns => pure (.masking patterns :: sealing)

def ofConfig (c : Config) (files : Files) (server : Server) (dir : String) : Except AppError App := do
  let engine : Engine :=
    { env := Env.default.merge c.env, maxSteps := c.maxSteps, maxStacks := c.maxStacks }
  let layers ← layers c.store
  let onServer := c.store.driver = "redis"
  let space := c.store.server.space
  pure
    { config := c, files, dir
      manager :=
        { engine := engine.withCache c.cacheSize
          store := { place := if onServer then .server (space ++ "report:") else .memory, layers }
          locker := if onServer then .server space else .absent
          shelf := { server } } }

/-- Reads the configuration file and applies what the command line sets. -/
def start (files : Files) (server : Server) (o : Overrides) : Except AppError App := do
  let dir := if o.dir.isEmpty then "." else o.dir
  let path := if o.configPath.isEmpty then Files.join dir "conduit.yaml" else o.configPath
  let orError {α : Type} (r : Except ConfigError α) : Except AppError α :=
    match r with
    | .ok a => .ok a
    | .error e => .error (.config e)
  let c ← orError (Config.load path (files.find path))
  let c := { c with
    maxSteps := o.maxSteps.getD c.maxSteps
    logLevel := if o.debug then "debug" else c.logLevel
    store := { c.store with driver := match o.driver with
      | none | some "" => c.store.driver
      | some name => name } }
  orError c.validate
  ofConfig c files server dir

/-! ## Contracts -/

def withRepository {α : Type} (a : App) (f : Repository → Except RepositoryError α) :
    Except AppError α :=
  match Repository.openAt a.files a.dir with
  | .error e => .error (.repository e)
  | .ok r =>
    match f r with
    | .ok x => .ok x
    | .error e => .error (.repository e)

def list (a : App) : Except AppError (List String) :=
  match a.source with
  | .library l _ => .ok l.list
  | .directory => a.withRepository Repository.list

/-- The text of a contract that the source knows. -/
def fetch (a : App) (arg : String) : Except AppError String :=
  match a.source with
  | .library l _ =>
    match l.get arg with
    | .ok s => .ok s
    | .error e => .error (.notLoaded arg (.notFound e.id))
  | .directory =>
    match Repository.openAt a.files a.dir with
    | .error e => .error (.repository e)
    | .ok r =>
      match r.envelope arg with
      | .ok v => .ok v.render
      | .error e => .error (.notLoaded arg e)

/-- A contract by the path of its file, or else by its ID. Without a name of its own it has that of
the file or the ID. -/
def contract (a : App) (arg : String) : Except AppError Contract := do
  let (source, name) ← match a.files.find arg with
    | .text s => pure (s, Files.withoutExtension (Files.baseName arg))
    | .directory => throw (.unreadable arg ("read " ++ arg ++ ": is a directory"))
    | .blocked => throw (.unreadable arg ("open " ++ arg ++ ": not a directory"))
    | .missing => do pure (← a.fetch arg, arg)
  match Contract.parse source with
  | .error e => throw (.malformed arg e)
  | .ok c => pure (if c.name.isEmpty then { c with name } else c)

/-- The contracts that are named, or else all that the source knows. -/
def contracts (a : App) (args : List String) : Except AppError (List Contract) := do
  if args.isEmpty then
    let ids ← a.list
    if ids.isEmpty then throw (.noContracts a.dir)
    ids.mapM a.contract
  else args.mapM a.contract

/-! ## Reports -/

/-- Reports that nothing outlives come straight from the engine, others through the manager, with so
many calls at once. -/
def analyze (a : App) (c : Caller) (cs : List Contract) (concurrency : Int := 4) :
    Except AppError (List Report) × App :=
  if a.config.store.driver = "redis" then
    let b := (Batch.start a.manager concurrency cs).run c (Manager.longestCall * cs.length + 1)
    let r : Except AppError (List Report) := match b.outcome? with
      | some (.ok rs) => .ok rs
      | some (.error (name, e)) => .error (.served name e)
      | none => .error .unfinished
    (r, { a with manager := b.manager })
  else
    match a.manager.engine.analyzeAll (if c.canceled then .always else .never) c.clock cs with
    | .ok rs => (.ok rs, a)
    | .error e => (.error (.analysis e), a)

/-- One round: the contracts are read anew and analysed. -/
def round (a : App) (c : Caller) (args : List String) (concurrency : Int := 4) :
    Except AppError (List Report) × App :=
  match a.contracts args with
  | .error e => (.error e, a)
  | .ok cs => a.analyze c cs concurrency

/-! ## Watching -/

/-- A contract that was replaced, or removed. -/
structure Change where
  id : String
  source : Option String

def apply (a : App) (c : Change) : App :=
  match a.source with
  | .directory => a
  | .library l w => { a with source := .library (l.set c.id c.source) w }

/-- A round before any change and one after each. A round that fails does not end it. -/
def rounds (a : App) (c : Caller) (args : List String) (concurrency : Int) :
    List Change → List (Except AppError (List Report))
  | [] => [(a.round c args concurrency).1]
  | change :: changes =>
    let (r, a) := a.round c args concurrency
    r :: (a.apply change).rounds c args concurrency changes

def canWatch (a : App) : Bool :=
  match a.source with
  | .directory => true
  | .library _ announces => announces

/-- The rounds, if changes are announced at all. -/
def watch (a : App) (c : Caller) (args : List String) (changes : List Change)
    (concurrency : Int := 4) : Except AppError (List (Except AppError (List Report))) :=
  if a.canWatch then .ok (a.rounds c args concurrency changes) else .error .notWatchable

end App

end StackFlow
