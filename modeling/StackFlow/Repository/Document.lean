import StackFlow.Files
import StackFlow.Json.Decode
import StackFlow.Json.Display
import StackFlow.Json.Reader
import StackFlow.Yaml.Data

/-!
Documents: data with a text beside it. A document is a JSON or YAML file, or a Markdown file whose
data stand in front between two rows of dashes.
-/

namespace StackFlow

open Json (Value)

/-- A file that may be a document. -/
structure DocumentFile where
  /-- The path with its extension. -/
  file : String
  source : String

structure Document where
  /-- The data by their keys; none if they hold what JSON cannot say. -/
  data : Option Json.Fields := some []
  content : String := ""

namespace DocumentFile

/-- The extensions of documents, in the order in which they are looked for. -/
def extensions : List String := [".md", ".json", ".yaml", ".yml"]

/-! ## JSON -/

/-- The field `content` is the text beside the data. What follows the first value is ignored. -/
def readJson? (source : String) : Option Document :=
  match Json.readLeading? source with
  | some .null => some {}
  | some (.obj fields) =>
    match fields.lookup "content" with
    | some (.str s) => some { data := some (fields.filter (·.1 != "content")), content := s }
    | _ => some { data := some fields }
  | _ => none

/-! ## YAML -/

/-- The fields of a YAML text. -/
def yamlFields? (source : String) : Option (List (Yaml.Scalar × Yaml.Data)) :=
  match Yaml.Document.read? source with
  | none => none
  | some none => some []
  | some (some doc) =>
    match doc.data? with
    | some (.scalar .null) => some []
    | some (.map fields) => some fields
    | _ => none

def readYaml? (source : String) : Option Document :=
  (yamlFields? source).map fun fields =>
    match fields.lookup (.text "content") with
    | some (.scalar (.text s)) =>
      { data := Yaml.fieldsJson? (fields.filter (·.1 != .text "content")), content := s }
    | _ => { data := Yaml.fieldsJson? fields }

/-! ## Markdown -/

def fence : List Char := ['-', '-', '-']

/-- The text before the first row of dashes and the text behind it. -/
def cut? (front : List Char) : List Char → Option (List Char × List Char)
  | [] => none
  | c :: cs =>
    if fence.isPrefixOf (c :: cs) then some (front.reverse, cs.drop 2) else cut? (c :: front) cs

/-- What follows a first line of dashes. -/
def opened? : List Char → Option (List Char)
  | '-' :: '-' :: '-' :: '\n' :: cs | '-' :: '-' :: '-' :: '\r' :: '\n' :: cs => some cs
  | _ => none

def readMarkdown? (source : String) : Option Document :=
  match opened? source.toList with
  | none => some { content := source }
  | some cs => do
    let (front, body) ← cut? [] cs
    let fields ← yamlFields? (String.ofList front)
    pure { data := Yaml.fieldsJson? fields, content := String.ofList body }

/-- The document in a file, if it can be read. -/
def read? (f : DocumentFile) : Option Document :=
  match Files.extension f.file with
  | ".md" => readMarkdown? f.source
  | ".json" => readJson? f.source
  | ".yaml" | ".yml" => readYaml? f.source
  | _ => none

end DocumentFile

end StackFlow
