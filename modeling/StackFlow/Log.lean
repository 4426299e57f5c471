import StackFlow.Json.Writer
import StackFlow.Text.Decimal

/-!
Structured log lines. A record has a level, a message and attributes; a sink keeps the records at
or above its level and writes them as plain text or as JSON.
-/

namespace StackFlow.Log

/-- The named levels lie four apart. -/
def debug : Int := -4
def info : Int := 0
def warn : Int := 4
def error : Int := 8

/-- A level by the next lower name and the distance from it. -/
def levelName (level : Int) : String :=
  let name (base : String) (offset : Int) : String :=
    if offset = 0 then base
    else base ++ (if 0 < offset then "+" else "") ++ Decimal.text offset
  if level < info then name "DEBUG" (level - debug)
  else if level < warn then name "INFO" level
  else if level < error then name "WARN" (level - warn)
  else name "ERROR" (level - error)

/-- Capital letters; the dotless i and the long s have ASCII capitals too. -/
def upperChar (c : Char) : Char :=
  if c.toNat = 0x131 then 'I' else if c.toNat = 0x17f then 'S' else c.toUpper

/-- Reads a name in any case with an optional signed offset. -/
def readLevel? (s : String) : Option Int := do
  let isSign (c : Char) : Bool := c = '+' || c = '-'
  let name := s.toList.takeWhile (!isSign ·)
  let tail := s.toList.dropWhile (!isSign ·)
  let offset ← if tail.isEmpty then some 0 else Decimal.readWord? (String.ofList tail)
  let base ← [("DEBUG", debug), ("INFO", info), ("WARN", warn), ("ERROR", error)].lookup
    (String.ofList (name.map upperChar))
  pure (wrap (base + offset))

inductive Format where
  | text | json
deriving DecidableEq

/-- An empty name stands for plain text. -/
def Format.ofName? : String → Option Format
  | "" | "text" => some .text
  | "json" => some .json
  | _ => none

def unknownFormat (name : String) : String := "unknown log format " ++ Text.quote name

inductive Attr where
  | text (s : String)
  | int (n : Int)
  | bool (b : Bool)
  | ints (ns : List Int)

structure Record where
  level : Int
  message : String
  attrs : List (String × Attr) := []

/-- Whether plain text has to be quoted: when it is empty or holds a blank, an equals sign, a quote,
or something that is not printable. -/
def needsQuotes (s : String) : Bool :=
  s.isEmpty || s.toList.any fun c =>
    if c.toNat < 0x80 then c = ' ' || c = '=' || c = '"' || c.toNat < 0x20
    else c.toNat = 0xfffd || !Text.isPrintable c

def plain (s : String) : String := if needsQuotes s then Text.quote s else s

def Attr.plainText : Attr → String
  | .text s => s
  | .int n => Decimal.text n
  | .bool b => if b then "true" else "false"
  | .ints ns => "[" ++ " ".intercalate (ns.map Decimal.text) ++ "]"

def Attr.toJson : Attr → Json.Value
  | .text s => .str s
  | .int n => .num (Decimal.text n)
  | .bool b => .bool b
  | .ints ns => .arr (ns.map fun n => .num (Decimal.text n))

/-- Both spellings of the key for errors end up in one column. -/
def columnName (key : String) : String := if key == "error" then "err" else key

/-- A line without the columns that tell how long something took, which differ from run to run. Such
a column reaches to the next blank. -/
def withoutDurations (inside : Bool) : List Char → List Char
  | [] => []
  | c :: cs =>
    if inside && c != ' ' then withoutDurations true cs
    else if " duration=".toList.isPrefixOf (c :: cs) then withoutDurations true cs
    else c :: withoutDurations false cs

def Record.line (r : Record) : String :=
  let line := " ".intercalate (("level=" ++ levelName r.level) :: ("msg=" ++ plain r.message)
    :: r.attrs.map fun (k, v) => plain (columnName k) ++ "=" ++ plain v.plainText)
  String.ofList (withoutDurations false line.toList)

/-- Of attributes with the same key the last one shows. Those that differ from run to run do not. -/
def Record.toJson (r : Record) : Json.Value :=
  .obj ((r.attrs.foldl (fun fields (k, v) => Json.Fields.insert fields (columnName k) v.toJson)
    [("level", .str (levelName r.level)), ("msg", .str r.message)]).filter fun f =>
      f.1 != "time" && f.1 != "duration")

/-- What a sink of the given level lets through. -/
def visible (level : Int) (rs : List Record) : List Record := rs.filter (level ≤ ·.level)

def Record.written (format : Format) (r : Record) : Json.Value :=
  match format with
  | .text => .str r.line
  | .json => r.toJson

end StackFlow.Log
