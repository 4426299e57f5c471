import StackFlow.Json.Value

/-!
JSON text without blanks. Besides quotes, backslashes and control characters the writer escapes the
characters that a web page or a script could misread.
-/

namespace StackFlow.Json

def escapeChar (c : Char) : List Char :=
  match c with
  | '"' => ['\\', '"']
  | '\\' => ['\\', '\\']
  | '\n' => ['\\', 'n']
  | '\r' => ['\\', 'r']
  | '\t' => ['\\', 't']
  | _ =>
    if c.toNat = 0x08 then ['\\', 'b']
    else if c.toNat = 0x0c then ['\\', 'f']
    else if c.toNat < 0x20 || c = '<' || c = '>' || c = '&' || c.toNat = 0x2028 || c.toNat = 0x2029 then
      '\\' :: 'u' :: Text.hexDigits 4 c.toNat
    else [c]

def quoteText (s : String) : List Char :=
  '"' :: s.toList.flatMap escapeChar ++ ['"']

mutual

/-- The text of a value in front of what follows it. -/
def Value.write : Value → List Char → List Char
  | .null, k => 'n' :: 'u' :: 'l' :: 'l' :: k
  | .bool true, k => 't' :: 'r' :: 'u' :: 'e' :: k
  | .bool false, k => 'f' :: 'a' :: 'l' :: 's' :: 'e' :: k
  | .num t, k => t.toList ++ k
  | .str s, k => quoteText s ++ k
  | .arr [], k => '[' :: ']' :: k
  | .arr (v :: vs), k => '[' :: v.write (writeItems vs (']' :: k))
  | .obj [], k => '\x7b' :: '\x7d' :: k
  | .obj ((key, v) :: fs), k =>
    '\x7b' :: (quoteText key ++ ':' :: v.write (writeFields fs ('\x7d' :: k)))

def writeItems : List Value → List Char → List Char
  | [], k => k
  | v :: vs, k => ',' :: v.write (writeItems vs k)

def writeFields : List (String × Value) → List Char → List Char
  | [], k => k
  | (key, v) :: fs, k => ',' :: (quoteText key ++ ':' :: v.write (writeFields fs k))

end

def Value.render (v : Value) : String := String.ofList (v.write [])

/-! ## Over several lines -/

def newLine (depth : Nat) (k : List Char) : List Char :=
  '\n' :: (List.replicate (2 * depth) ' ' ++ k)

mutual

def Value.writeIndented (depth : Nat) : Value → List Char → List Char
  | .arr (v :: vs), k =>
    '[' :: newLine (depth + 1) (v.writeIndented (depth + 1)
      (writeIndentedItems (depth + 1) vs (newLine depth (']' :: k))))
  | .obj ((key, v) :: fs), k =>
    '\x7b' :: newLine (depth + 1) (quoteText key ++ ':' :: ' ' :: v.writeIndented (depth + 1)
      (writeIndentedFields (depth + 1) fs (newLine depth ('\x7d' :: k))))
  | .null, k => Value.null.write k
  | .bool b, k => (Value.bool b).write k
  | .num t, k => (Value.num t).write k
  | .str s, k => (Value.str s).write k
  | .arr [], k => (Value.arr []).write k
  | .obj [], k => (Value.obj []).write k

def writeIndentedItems (depth : Nat) : List Value → List Char → List Char
  | [], k => k
  | v :: vs, k => ',' :: newLine depth (v.writeIndented depth (writeIndentedItems depth vs k))

def writeIndentedFields (depth : Nat) : List (String × Value) → List Char → List Char
  | [], k => k
  | (key, v) :: fs, k =>
    ',' :: newLine depth (quoteText key ++ ':' :: ' ' :: v.writeIndented depth
      (writeIndentedFields depth fs k))

end

/-- JSON text with a line for every element and two blanks for every level. -/
def Value.renderIndented (v : Value) : String := String.ofList (v.writeIndented 0 [])

end StackFlow.Json
