import StackFlow.ErrorKind
import StackFlow.Files
import StackFlow.Json.Display
import StackFlow.Json.Number
import StackFlow.Text.Blank

/-!
Contracts in a repository of documents. A contract is listed under the ID that its document gives
it, or else under the ID of the document; it is found by what the repository finds under an ID.
-/

namespace StackFlow

open Json (Value)

structure Metadata where
  id : String := ""
  name : String := ""
  description : String := ""
  tags : Option (List String) := none
  /-- The sections of the contract, in Micheline. -/
  script : Option Value := none

/-- A document as a repository gives it out. -/
structure StoredDocument where
  id : String
  data : Metadata := {}
  content : String := ""

/-- What contracts are read from. -/
structure Repository where
  /-- All documents, or why they could not be listed. -/
  documents : Except String (List StoredDocument)
  /-- The document under an ID, or why there is none. -/
  get : String → Except String StoredDocument

inductive RepositoryError where
  | noDirectory
  | notFound (id : String)
  | getFailed (id reason : String)
  | listFailed (reason : String)
  | collision (id first second : String)
  | noScript (id : String)

def RepositoryError.message : RepositoryError → String
  | .noDirectory => "failed to open contract repository: no such directory"
  | .notFound id => "contract not found: " ++ id
  | .getFailed id reason => "loam get failed for " ++ id ++ ": " ++ reason
  | .listFailed reason => "loam list failed: " ++ reason
  | .collision id a b =>
    "collision detected: ID '" ++ id ++ "' is defined in both '" ++ a ++ "' and '" ++ b ++ "'"
  | .noScript id => "contract " ++ id ++ " has no script"

def RepositoryError.kind : RepositoryError → ErrorKind
  | .notFound _ => .contractNotFound
  | _ => .other

/-- The ID that a document is listed under. -/
def StoredDocument.listedId (d : StoredDocument) : String :=
  Files.withoutExtension (if d.data.id.isEmpty then d.id else d.data.id)

/-! ## Scripts -/

/-- Numbers in messages have an exponent from a million on. -/
def shownNumber : Binary64.Style := ⟨-4, 5, 2⟩

mutual

/-- Numbers by their value of 64 bits, written in a style. -/
def restyled (style : Binary64.Style) : Value → Value
  | .num t => .num (((Binary64.read? t).map (Binary64.textWith style)).getD t)
  | .arr items => .arr (restyledItems style items)
  | .obj fields => .obj (restyledFields style fields)
  | v => v

def restyledItems (style : Binary64.Style) : List Value → List Value
  | [] => []
  | v :: vs => restyled style v :: restyledItems style vs

def restyledFields (style : Binary64.Style) : List (String × Value) → List (String × Value)
  | [] => []
  | (k, v) :: fs => (k, restyled style v) :: restyledFields style fs

end

mutual

/-- A script as Micheline has it: what stands under `int` is a text. -/
def normalScript : Value → Value
  | .arr items => .arr (normalItems items)
  | .obj fields => .obj (normalFields fields)
  | v => restyled Json.numberStyle v

def normalItems : List Value → List Value
  | [] => []
  | v :: vs => normalScript v :: normalItems vs

def normalFields : List (String × Value) → List (String × Value)
  | [] => []
  | (k, v) :: fs =>
    let v' := match k, v with
      | "int", .str s => .str s
      | "int", v => .str (restyled shownNumber v).display
      | _, _ => normalScript v
    (k, v') :: normalFields fs

end

namespace Repository

/-- The first ID that occurs twice, with its two documents. -/
def collision? : List (String × String) → List (String × String) → Option (String × String × String)
  | _, [] => none
  | seen, (id, document) :: rest =>
    match seen.lookup id with
    | some first => some (id, first, document)
    | none => collision? ((id, document) :: seen) rest

def list (r : Repository) : Except RepositoryError (List String) :=
  match r.documents with
  | .error reason => .error (.listFailed reason)
  | .ok docs =>
    let ids := docs.map fun d => (d.listedId, d.id)
    match collision? [] ids with
    | some (id, a, b) => .error (.collision id a b)
    | none => .ok ((ids.map (·.1)).mergeSort (· ≤ ·))

/-- An ID that nothing is found under is unknown, unless it is listed. -/
def metadata (r : Repository) (id : String) : Except RepositoryError Metadata :=
  match r.get id with
  | .ok d =>
    .ok { d.data with
      id := d.listedId
      description := if d.data.description.isEmpty then Text.trim d.content else d.data.description }
  | .error reason =>
    match r.list with
    | .ok ids => if ids.contains id then .error (.getFailed id reason) else .error (.notFound id)
    | .error _ => .error (.getFailed id reason)

/-- A contract with its name, as the parser reads it. -/
def envelope (r : Repository) (id : String) : Except RepositoryError Value := do
  let m ← r.metadata id
  match m.script with
  | none => throw (.noScript id)
  | some script =>
    pure (.obj [("name", .str (if m.name.isEmpty then id else m.name)),
      ("script", normalScript script)])

end Repository

end StackFlow
