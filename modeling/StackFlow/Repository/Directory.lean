import StackFlow.Repository.Basic
import StackFlow.Repository.Document

/-!
Repositories in directories. A document is found by the name of its file, with the extension or
without it.
-/

namespace StackFlow

open Json (Value Decoder)

namespace Metadata

mutual

/-- Whether all numbers of a value fit 64 bits. -/
def fits : Value → Bool
  | .num t => (Binary64.read? t).isSome
  | .arr items => fitsAll items
  | .obj fields => fitsFields fields
  | _ => true

def fitsAll : List Value → Bool
  | [] => true
  | v :: vs => fits v && fitsAll vs

def fitsFields : List (String × Value) → Bool
  | [] => true
  | (_, v) :: fs => fits v && fitsFields fs

end

def anything : Decoder (Option Value) := Decoder.inTurn fun _ v =>
  match v with
  | .null => some none
  | v => if fits v then some (some v) else none

def fields : List (Decoder.Field Metadata) :=
  [Decoder.field "id" (·.id) (fun m x => { m with id := x }) Decoder.text,
    Decoder.field "name" (·.name) (fun m x => { m with name := x }) Decoder.text,
    Decoder.field "description" (·.description) (fun m x => { m with description := x }) Decoder.text,
    Decoder.field "tags" (·.tags) (fun m x => { m with tags := x }) (Decoder.list "" Decoder.text),
    Decoder.field "script" (·.script) (fun m x => { m with script := x }) anything]

/-- Keys that differ only in case are read in the order of their letters. -/
def ofData? (data : Json.Fields) : Option Metadata := Decoder.fields fields {} (Json.Fields.sorted data)

end Metadata

structure Directory where
  files : Files
  dir : String

namespace Directory

def fileAt? (r : Directory) (path : String) : Option DocumentFile :=
  (r.files.textAt? (Files.parts (Files.join r.dir path))).map fun source => { file := path, source }

/-- The file that an ID leads to. Without an extension it is looked for with each of those that
documents have. -/
def file? (r : Directory) (id : String) : Option DocumentFile :=
  if (Files.extension id).isEmpty then
    DocumentFile.extensions.findSome? fun e => r.fileAt? (id ++ e)
  else r.fileAt? id

def document? (r : Directory) (id : String) : Option Document := (r.file? id).bind (·.read?)

/-- Directories that hold no documents. -/
def hidden : List String := [".git", ".loam"]

/-- The names of the documents, in the order of a walk. -/
def names (r : Directory) : List String :=
  (r.files.below r.dir).filterMap fun (parts, _) =>
    let path := "/".intercalate parts
    if (parts.dropLast.any hidden.contains) || !DocumentFile.extensions.contains (Files.extension path)
    then none else some (Files.withoutExtension path)

def stored? (name : String) (d : Document) : Option StoredDocument :=
  (d.data.bind Metadata.ofData?).map fun data => { id := name, data, content := d.content }

/-- Documents that cannot be read are passed over. -/
def documents (r : Directory) : Except String (List StoredDocument) :=
  (r.names.filterMap fun name => (r.document? name).map (stored? name)).mapM fun d =>
    d.elim (.error "wrong kind of data") .ok

def get (r : Directory) (id : String) : Except String StoredDocument :=
  ((r.document? id).bind (stored? id)).elim (.error "no readable document") .ok

end Directory

namespace Repository

/-- The repository in a directory. -/
def openAt (files : Files) (dir : String) : Except RepositoryError Repository :=
  match files.find (Files.clean dir) with
  | .directory =>
    let d : Directory := ⟨files, dir⟩
    .ok { documents := d.documents, get := d.get }
  | _ => .error .noDirectory

end Repository

end StackFlow
