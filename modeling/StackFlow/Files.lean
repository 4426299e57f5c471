import StackFlow.Text.Blank

/-!
A tree of text files, by their paths from its root.
-/

namespace StackFlow

structure Files where
  entries : List (String × String) := []

/-- What a path leads to. -/
inductive Found where
  | text (content : String)
  | directory
  | missing
  /-- A part of the path is a file. -/
  | blocked

namespace Files

def isPart (c : Char) : Bool := c != '/'

/-- A path by its text alone: empty parts and single dots go, and two dots take the part before them
back. Two dots with nothing before them stay, unless the path is absolute. -/
def cleanParts (absolute : Bool) (path : String) : List String :=
  ((Text.split '/' path.toList).foldl (fun (done : List String) part =>
    match String.ofList part, done with
    | "", _ | ".", _ => done
    | "..", [] => if absolute then [] else [".."]
    | "..", ".." :: _ => ".." :: done
    | "..", _ :: rest => rest
    | p, _ => p :: done) []).reverse

def isAbsolute (path : String) : Bool := path.toList.head? == some '/'

/-- The parts of a path from the root of the tree. -/
def parts (path : String) : List String := cleanParts (isAbsolute path) path

def clean (path : String) : String :=
  match isAbsolute path, parts path with
  | true, ps => "/" ++ "/".intercalate ps
  | false, [] => "."
  | false, ps => "/".intercalate ps

def textAt? (f : Files) (ps : List String) : Option String :=
  (f.entries.find? fun e => parts e.1 == ps).map (·.2)

def isDirectory (f : Files) (ps : List String) : Bool :=
  ps.all (· == "..") || f.entries.any fun e => ps.isPrefixOf (parts e.1)

/-- Goes on from a directory part by part: every part before the last has to be a directory. Above
the root of the tree nothing but directories is known. -/
def follow (f : Files) : List String → List String → Found
  | dir, [] => if f.isDirectory dir then .directory else .missing
  | dir, "" :: rest | dir, "." :: rest => f.follow dir rest
  | dir, ".." :: rest =>
    f.follow (if dir.all (· == "..") then ".." :: dir else dir.take (dir.length - 1)) rest
  | dir, name :: rest =>
    let next := dir ++ [name]
    match f.textAt? next with
    | some content => if rest.isEmpty then .text content else .blocked
    | none => if f.isDirectory next then f.follow next rest else .missing

/-- What a path leads to. Of the absolute ones only the root is known. -/
def find (f : Files) (path : String) : Found :=
  if path.isEmpty then .missing
  else if isAbsolute path then (if (parts path).isEmpty then .directory else .missing)
  else f.follow [] ((Text.split '/' path.toList).map String.ofList)

/-- The files below a directory, by their path from it, in the order of a walk. -/
def below (f : Files) (dir : String) : List (List String × String) :=
  let ps := parts dir
  let mine := f.entries.filterMap fun e =>
    let qs := parts e.1
    if ps.isPrefixOf qs then some (qs.drop ps.length, e.2) else none
  mine.mergeSort fun a b => !(decide (b.1 < a.1))

/-- A path below a directory. -/
def join (dir name : String) : String := clean (dir ++ "/" ++ name)

/-- The part of a path behind its last slash. -/
def baseName (path : String) : String :=
  String.ofList ((path.toList.reverse.takeWhile isPart).reverse)

/-- The last dot of the last part and what follows it; empty if there is no dot. -/
def extension (path : String) : String :=
  let name := path.toList.reverse.takeWhile isPart
  if name.contains '.' then String.ofList ('.' :: (name.takeWhile (· != '.')).reverse) else ""

def withoutExtension (path : String) : String :=
  String.ofList (path.toList.take (path.length - (extension path).length))

end Files

end StackFlow
