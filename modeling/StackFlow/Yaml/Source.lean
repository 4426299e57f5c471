/-!
The text of a YAML document: which characters it may hold, where its lines end, and places in it.
-/

namespace StackFlow.Yaml

/-- The characters that a document may hold at all. -/
def isAllowed (c : Char) : Bool :=
  let n := c.toNat
  n = 0x09 || n = 0x0a || n = 0x0d || (0x20 ≤ n && n ≤ 0x7e) || n = 0x85
    || (0xa0 ≤ n && n ≤ 0xfffd) || 0x10000 ≤ n

/-- Line ends as one character each. The two separators that only Unicode has stay what they are. -/
def plainLines : List Char → List Char
  | [] => []
  | '\r' :: '\n' :: cs => '\n' :: plainLines cs
  | c :: cs => (if c == '\r' || c == '\u0085' then '\n' else c) :: plainLines cs

/-- The characters of a text without a byte order mark in front; none if one is not allowed. -/
def source? (s : String) : Option (List Char) :=
  let cs := match s.toList with
    | '\ufeff' :: cs => cs
    | cs => cs
  if cs.all isAllowed then some (plainLines cs) else none

def isBreak (c : Char) : Bool := c == '\n' || c == '\u2028' || c == '\u2029'

def isBlank (c : Char) : Bool := c == ' ' || c == '\t'

/-- Whether a word ends here: at a blank, a line end or the end of the text. -/
def isGap : List Char → Bool
  | [] => true
  | c :: _ => isBlank c || isBreak c

/-- The characters of names. -/
def isWordChar (c : Char) : Bool := c.isAlphanum || c == '_' || c == '-'

/-- A place in a text. -/
structure Cursor where
  line : Nat := 0
  col : Nat := 0
  rest : List Char
deriving Inhabited

namespace Cursor

/-- Passes some characters of a line. -/
def advance (c : Cursor) (n : Nat) : Cursor := { c with col := c.col + n, rest := c.rest.drop n }

/-- Passes the characters of a kind. -/
def skip (c : Cursor) (kind : Char → Bool) : Cursor := c.advance (c.rest.takeWhile kind).length

/-- Passes the rest of the line, but not its end. -/
def toLineEnd (c : Cursor) : Cursor := c.skip fun x => !isBreak x

/-- Passes a line end, if there is one here. -/
def passBreak (c : Cursor) : Cursor :=
  match c.rest with
  | x :: cs => if isBreak x then ⟨c.line + 1, 0, cs⟩ else c
  | [] => c

/-- Whether a line of three such characters, and nothing directly behind them, starts here. -/
def isMark (c : Cursor) (x : Char) : Bool :=
  c.col = 0 && c.rest.take 3 == [x, x, x] && isGap (c.rest.drop 3)

/-- Whether a document ends here. -/
def isDocumentMark (c : Cursor) : Bool := c.isMark '-' || c.isMark '.'

end Cursor

end StackFlow.Yaml
