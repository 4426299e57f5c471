import StackFlow.Env
import StackFlow.Files
import StackFlow.Json.Decode
import StackFlow.Json.Reader
import StackFlow.Log
import StackFlow.Store.Key
import StackFlow.Yaml.Decode

/-!
The configuration file. What it leaves out keeps its default.
-/

namespace StackFlow

open Json (Value)

structure ServerConfig where
  addr : String := "localhost:6379"
  password : String := ""
  db : Int := 0
  space : String := "conduit:"
  /-- How long reports are kept, in nanoseconds; forever if zero. -/
  ttl : Int := 0

structure StoreConfig where
  driver : String := "memory"
  server : ServerConfig := {}
  encryptionKey : String := ""
  fallbackKeys : Option (List String) := none
  redact : Option (List String) := none

structure Config where
  maxSteps : Int := 1000
  maxStacks : Int := 50000
  logLevel : String := "info"
  logFormat : String := ""
  cacheSize : Int := 64
  env : Env := {}
  store : StoreConfig := {}
  port : Int := 8080

inductive ConfigError where
  | unreadable
  | malformed (file : String)
  | unknownDriver (name : String)
  | negativeSteps
  | negativeStacks
  | badLevel (name : String)
  | badFormat (name : String)
  | badKey (cause : Key.Error)

def ConfigError.message : ConfigError → String
  | .unreadable => "failed to read config: not a readable file"
  | .malformed file => "failed to parse " ++ file ++ ": not a configuration"
  | .unknownDriver name => "unknown store driver " ++ Text.quote name
  | .negativeSteps => "max_steps must not be negative"
  | .negativeStacks => "max_stacks must not be negative"
  | .badLevel name =>
    "invalid log_level " ++ Text.quote name ++ ": slog: level string " ++ Text.quote name
      ++ ": unknown name"
  | .badFormat name => Log.unknownFormat name
  | .badKey e => e.message

namespace Config

/-! ## The fields of the file -/

/-- The ways to read the kinds of values that a file holds, in one notation. -/
structure FileReader (D : Type → Type) where
  text : D String
  word : D Int
  duration : D Int
  texts : D (Option (List String))
  /-- Reads a part of a larger whole. -/
  part : {α β : Type} → (α → β) → (α → β → α) → D β → D α
  /-- Reads the fields of a record by their names. -/
  record : {α : Type} → List (String × D α) → D α

def FileReader.json : FileReader Json.Decoder where
  text := Json.Decoder.text
  word := Json.Decoder.word
  duration := Json.Decoder.word
  texts := Json.Decoder.list "" Json.Decoder.text
  part get set d := fun a vs => (d (get a) vs).map (set a)
  record := Json.Decoder.record

def FileReader.yaml : FileReader Yaml.Decoder where
  text := Yaml.Decoder.text
  word := Yaml.Decoder.word
  duration := Yaml.Decoder.duration
  texts := Yaml.Decoder.list "" Yaml.Decoder.text
  part get set d := fun doc a s => do
    return (← d doc (get a) s).map (set a)
  record := Yaml.Decoder.record

section Fields

variable {D : Type → Type} (r : FileReader D)

def envFields : D Env :=
  r.record
    [("self", r.part (·.self) (fun e x => { e with self := x }) r.text),
      ("amount", r.part (·.amount) (fun e x => { e with amount := x }) r.text),
      ("balance", r.part (·.balance) (fun e x => { e with balance := x }) r.text),
      ("sender", r.part (·.sender) (fun e x => { e with sender := x }) r.text),
      ("source", r.part (·.source) (fun e x => { e with source := x }) r.text),
      ("chain_id", r.part (·.chainId) (fun e x => { e with chainId := x }) r.text),
      ("now", r.part (·.now) (fun e x => { e with now := x }) r.text)]

def serverFields : D ServerConfig :=
  r.record
    [("addr", r.part (·.addr) (fun s x => { s with addr := x }) r.text),
      ("password", r.part (·.password) (fun s x => { s with password := x }) r.text),
      ("db", r.part (·.db) (fun s x => { s with db := x }) r.word),
      ("prefix", r.part (·.space) (fun s x => { s with space := x }) r.text),
      ("ttl", r.part (·.ttl) (fun s x => { s with ttl := x }) r.duration)]

def storeFields : D StoreConfig :=
  r.record
    [("driver", r.part (·.driver) (fun s x => { s with driver := x }) r.text),
      ("redis", r.part (·.server) (fun s x => { s with server := x }) (serverFields r)),
      ("encryption_key", r.part (·.encryptionKey) (fun s x => { s with encryptionKey := x }) r.text),
      ("fallback_keys", r.part (·.fallbackKeys) (fun s x => { s with fallbackKeys := x }) r.texts),
      ("redact", r.part (·.redact) (fun s x => { s with redact := x }) r.texts)]

def fields : D Config :=
  r.record
    [("max_steps", r.part (·.maxSteps) (fun c x => { c with maxSteps := x }) r.word),
      ("max_stacks", r.part (·.maxStacks) (fun c x => { c with maxStacks := x }) r.word),
      ("log_level", r.part (·.logLevel) (fun c x => { c with logLevel := x }) r.text),
      ("log_format", r.part (·.logFormat) (fun c x => { c with logFormat := x }) r.text),
      ("cache_size", r.part (·.cacheSize) (fun c x => { c with cacheSize := x }) r.word),
      ("env", r.part (·.env) (fun c x => { c with env := x }) (envFields r)),
      ("store", r.part (·.store) (fun c x => { c with store := x }) (storeFields r)),
      ("http", r.part (·.port) (fun c x => { c with port := x }) (r.record [("port", r.word)]))]

end Fields

/-! ## Reading -/

def ofJson? (content : String) : Option Config :=
  (Json.transcript? content).bind fun v => fields .json {} [v]

def ofYaml? (content : String) : Option Config :=
  match Yaml.Document.read? content with
  | none => none
  | some none => some {}
  | some (some doc) => doc.decode? (fields .yaml) {}

/-- An empty name stands for the usual level. -/
def level? (c : Config) : Option Int :=
  if c.logLevel.isEmpty then some Log.info else Log.readLevel? c.logLevel

def keys (c : Config) : List String :=
  (c.store.encryptionKey :: c.store.fallbackKeys.getD []).filter (!·.isEmpty)

def knownDrivers : List String := ["", "memory", "redis"]

/-- Refuses what no command can act on. -/
def validate (c : Config) : Except ConfigError Unit := do
  if !(knownDrivers.contains c.store.driver) then throw (.unknownDriver c.store.driver)
  if c.maxSteps < 0 then throw .negativeSteps
  if c.maxStacks < 0 then throw .negativeStacks
  if c.level?.isNone then throw (.badLevel c.logLevel)
  if (Log.Format.ofName? c.logFormat).isNone then throw (.badFormat c.logFormat)
  for k in c.keys do
    match Key.parse k with
    | .ok _ => pure ()
    | .error e => throw (.badKey e)

/-- A file named `.json` holds JSON, any other YAML. A missing file leaves the defaults. -/
def load (path : String) : Found → Except ConfigError Config
  | .missing => .ok {}
  | .directory | .blocked => .error .unreadable
  | .text content =>
    let c? := if (Files.extension path).toLower = ".json" then ofJson? content else ofYaml? content
    match c? with
    | none => .error (.malformed (Files.baseName path))
    | some c =>
      match c.validate with
      | .error e => .error e
      | .ok () => .ok c

/-! ## As JSON -/

def listJson : Option (List String) → Value
  | none => .null
  | some xs => .ofStrings xs

def toJson (c : Config) : Value :=
  let num (n : Int) : Value := .num (Decimal.text n)
  .obj [("max_steps", num c.maxSteps), ("max_stacks", num c.maxStacks),
    ("log_level", .str c.logLevel), ("log_format", .str c.logFormat),
    ("cache_size", num c.cacheSize), ("env", c.env.toJson),
    ("store", .obj [("driver", .str c.store.driver),
      ("redis", .obj [("addr", .str c.store.server.addr),
        ("password", .str c.store.server.password), ("db", num c.store.server.db),
        ("prefix", .str c.store.server.space), ("ttl", num c.store.server.ttl)]),
      ("encryption_key", .str c.store.encryptionKey),
      ("fallback_keys", listJson c.store.fallbackKeys), ("redact", listJson c.store.redact)]),
    ("http", .obj [("port", num c.port)])]

end Config

end StackFlow
