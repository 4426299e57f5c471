import StackFlow.Text.Decimal
import StackFlow.Yaml.Folding
import StackFlow.Yaml.Token

/-!
Cuts a YAML text into tokens. A token in front of a colon is a key, which is known only when the colon
comes: until then its place is remembered, and the token that announces the key is put in there.
-/

namespace StackFlow.Yaml

/-- A token that may turn out to be a key. -/
structure KeyPlace where
  /-- The number of tokens before it. -/
  index : Nat
  line : Nat
  col : Nat
  /-- Whether it has to be a key, because it stands where the keys of its mapping stand. -/
  required : Bool

structure TokenReader where
  cursor : Cursor
  /-- The tokens so far, the last one first. -/
  tokens : List Token := []
  count : Nat := 0
  /-- The indentation of the innermost block collection, and of those around it. -/
  indent : Int := -1
  outer : List Int := []
  /-- Whether a key may start at the next token. -/
  keyAllowed : Bool := true
  /-- The possible key of the block, and of each flow collection that is open, innermost first. -/
  possible : Option KeyPlace := none
  flows : List (Option KeyPlace) := []

/-- Collections may be nested this deep. -/
def maxDepth : Nat := 10000

/-- A key ends on its line, and not too far from its start. -/
def maxKeyLength : Nat := 1024

namespace TokenReader

def inFlow (r : TokenReader) : Bool := !r.flows.isEmpty

def push (r : TokenReader) (t : Token) : TokenReader :=
  { r with tokens := t :: r.tokens, count := r.count + 1 }

/-- Puts a token in where so many tokens come before it. -/
def insertAt (r : TokenReader) (index : Nat) (t : Token) : TokenReader :=
  let behind := r.count - index
  { r with tokens := r.tokens.take behind ++ t :: r.tokens.drop behind, count := r.count + 1 }

/-! ## Between tokens -/

/-- Whether only blanks and line ends come before a comment. -/
def leadsToComment (cs : List Char) : Bool :=
  (cs.dropWhile fun c => isBlank c || isBreak c).head? == some '#'

/-- Goes on to the next token, over blanks, comments and line ends, and tells whether a key may start
there. In a block a tab must not stand where a key may start, except between two comments. -/
def gap (flow : Bool) :
    (keyAllowed comment commented : Bool) → Nat → Nat → List Char → Bool × Cursor
  | keyAllowed, _, _, line, col, [] => (keyAllowed, ⟨line, col, []⟩)
  | keyAllowed, comment, commented, line, col, c :: cs =>
    if isBreak c then gap flow (keyAllowed || !flow) false commented (line + 1) 0 cs
    else if comment || c == ' ' then gap flow keyAllowed comment commented line (col + 1) cs
    else if c == '#' then gap flow keyAllowed true true line (col + 1) cs
    else if c == '\t' && (flow || !keyAllowed || (commented && leadsToComment cs)) then
      gap flow keyAllowed false commented line (col + 1) cs
    else (keyAllowed, ⟨line, col, c :: cs⟩)

def toToken (r : TokenReader) : TokenReader :=
  let c := r.cursor
  let (keyAllowed, cursor) := gap r.inFlow r.keyAllowed false false c.line c.col c.rest
  { r with keyAllowed, cursor }

/-- Passes a comment on the same line. -/
def passComment (r : TokenReader) : TokenReader :=
  let c := r.cursor.skip isBlank
  if c.rest.head? == some '#' then { r with cursor := c.toLineEnd } else r

/-! ## Indentation -/

/-- The indentations that are left when those deeper than a column are closed, and how many are. -/
def closing (col : Int) : Int → List Int → Nat → Int × List Int × Nat
  | indent, [], n => (indent, [], n)
  | indent, i :: is, n => if col < indent then closing col i is (n + 1) else (indent, i :: is, n)

/-- Ends the block collections that are indented more than a column. -/
def unroll (r : TokenReader) (col : Int) : TokenReader :=
  if r.inFlow then r
  else
    let (indent, outer, n) := closing col r.indent r.outer 0
    { r with
      indent, outer
      tokens := List.replicate n .blockEnd ++ r.tokens
      count := r.count + n }

/-- Starts a block collection where a token is indented more than the one around it. -/
def roll (r : TokenReader) (col index : Nat) (t : Token) : Option TokenReader :=
  if r.inFlow || (col : Int) ≤ r.indent then some r
  else if maxDepth ≤ r.outer.length then none
  else some ({ r with indent := col, outer := r.indent :: r.outer }.insertAt index t)

/-! ## Keys -/

def dropKey (r : TokenReader) : Option TokenReader :=
  if r.possible.any (·.required) then none else some { r with possible := none }

/-- Remembers that the next token may be a key. -/
def saveKey (r : TokenReader) : Option TokenReader :=
  if r.keyAllowed then do
    let required := !r.inFlow && r.indent == r.cursor.col
    let key : KeyPlace := ⟨r.count, r.cursor.line, r.cursor.col, required⟩
    pure { ← r.dropKey with possible := some key }
  else some r

/-- Whether the colon at the cursor is close enough to the possible key. -/
def isNear (r : TokenReader) (key : KeyPlace) : Bool :=
  key.line = r.cursor.line && r.cursor.col ≤ key.col + maxKeyLength

/-! ## Tokens of one character -/

def step (r : TokenReader) (t : Token) : TokenReader :=
  { r.push t with cursor := r.cursor.advance 1 }

def openFlow (r : TokenReader) (t : Token) : Option TokenReader := do
  let r ← r.saveKey
  if maxDepth ≤ r.flows.length then none
  pure { r.step t with flows := r.possible :: r.flows, possible := none, keyAllowed := true }

def closeFlow (r : TokenReader) (t : Token) : Option TokenReader := do
  let r ← r.dropKey
  let r := { r.step t with keyAllowed := false }
  match r.flows with
  | [] => pure r
  | k :: ks => pure { r with possible := k, flows := ks }

def comma (r : TokenReader) : Option TokenReader := do
  let r ← r.dropKey
  pure { r.step .comma with keyAllowed := true }

def dash (r : TokenReader) : Option TokenReader := do
  if !r.inFlow && !r.keyAllowed then none
  let r ← (← r.roll r.cursor.col r.count .blockSeq).dropKey
  pure { r.step .dash with keyAllowed := true }

def questionMark (r : TokenReader) : Option TokenReader := do
  if !r.inFlow && !r.keyAllowed then none
  let r ← (← r.roll r.cursor.col r.count .blockMap).dropKey
  pure { r.step .key with keyAllowed := !r.inFlow }

/-- The colon behind a key. -/
def colon (r : TokenReader) : Option TokenReader :=
  match r.possible.filter r.isNear with
  | some key => do
    let r ← ({ r with possible := none }.insertAt key.index .key).roll key.col key.index .blockMap
    pure { r.step .value with keyAllowed := false }
  | none => do
    let r ← r.dropKey
    if !r.inFlow && !r.keyAllowed then none
    let r ← r.roll r.cursor.col r.count .blockMap
    pure { r.step .value with keyAllowed := !r.inFlow }

/-! ## Anchors, aliases and tags -/

/-- What may follow the name of an anchor directly. -/
def endsName (cs : List Char) : Bool :=
  isGap cs || cs.head?.any fun c => "?:,]\x7d%@\x60".toList.contains c

def name? (c : Cursor) : Option (String × Cursor) :=
  let name := c.rest.takeWhile isWordChar
  let c := c.advance name.length
  if name.isEmpty || !endsName c.rest then none else some (String.ofList name, c)

def isUriChar (c : Char) : Bool := isWordChar c || ";/?:@&=+$,.!~*'()[]".toList.contains c

/-- A byte written with a percent sign and two digits. -/
def percentByte? : List Char → Option (Nat × List Char)
  | '%' :: a :: b :: cs => do
    let a ← Hex.digitValue? a
    let b ← Hex.digitValue? b
    pure (16 * a + b, cs)
  | _ => none

/-- How many further bytes a character has in UTF-8, and what its first byte adds to it. -/
def firstByte? (n : Nat) : Option (Nat × Nat) :=
  if n < 0x80 then some (0, n)
  else if n / 0x20 = 6 then some (1, n % 0x20)
  else if n / 0x10 = 14 then some (2, n % 0x10)
  else if n / 0x08 = 30 then some (3, n % 0x08)
  else none

def furtherBytes? : Nat → Nat → List Char → Option (Nat × List Char)
  | 0, n, cs => some (n, cs)
  | size + 1, n, cs => do
    let (b, cs) ← percentByte? cs
    if b / 0x40 = 2 then furtherBytes? size (0x40 * n + b % 0x40) cs else none

/-- A character written as its bytes. -/
def percentChar? (cs : List Char) : Option (Char × List Char) := do
  let (b, cs) ← percentByte? cs
  let (size, n) ← firstByte? b
  let (n, cs) ← furtherBytes? size n cs
  pure (Char.ofNat n, cs)

/-- The longest text of such characters, in reverse, and the rest of the line. -/
def uri? : Nat → List Char → List Char → Option (List Char × List Char)
  | 0, _, _ => none
  | fuel + 1, done, cs =>
    match cs with
    | '%' :: _ => do
      let (c, cs) ← percentChar? cs
      uri? fuel (c :: done) cs
    | c :: rest => if isUriChar c then uri? fuel (c :: done) rest else some (done, cs)
    | [] => some (done, [])

def readUri? (start : List Char) (c : Cursor) : Option (String × Cursor) := do
  let (uri, rest) ← uri? (c.rest.length + 1) start.reverse c.rest
  pure (String.ofList uri.reverse, c.advance (c.rest.length - rest.length))

/-- An exclamation mark and a word, with another mark behind it or not. -/
def handleAt (c : Cursor) : List Char × Bool × Cursor :=
  let word := (c.rest.drop 1).takeWhile isWordChar
  let c := c.advance (1 + word.length)
  match c.rest with
  | '!' :: _ => ('!' :: word ++ ['!'], true, c.advance 1)
  | _ => ('!' :: word, false, c)

/-- A tag in full, with a handle, or with nothing but an exclamation mark in front. -/
def tag? (c : Cursor) : Option (Token × Cursor) := do
  let (t, c) ← match c.rest with
    | '!' :: '<' :: _ => do
      let (uri, c) ← readUri? [] (c.advance 2)
      if uri.isEmpty || c.rest.head? != some '>' then none
      pure (Token.tag "" uri, c.advance 1)
    | _ =>
      match handleAt c with
      | (handle, true, c) => do
        let (suffix, c) ← readUri? [] c
        if suffix.isEmpty then none
        pure (Token.tag (String.ofList handle) suffix, c)
      | (word, false, c) => do
        let (suffix, c) ← readUri? (word.drop 1) c
        pure (if suffix.isEmpty then Token.tag "" "!" else Token.tag "!" suffix, c)
  if isGap c.rest then pure (t, c) else none

/-- A token that may start a key. -/
def keyed (r : TokenReader) (read : Cursor → Option (Token × Cursor)) : Option TokenReader := do
  let r ← r.saveKey
  let (t, cursor) ← read r.cursor
  pure { r.push t with cursor, keyAllowed := false }

/-! ## Scalars -/

def quoted (r : TokenReader) (double : Bool) : Option TokenReader :=
  r.keyed fun c => do
    let (text, c) ← quotedText double [] Gap.none c.line (c.col + 1) (c.rest.drop 1)
    pure (.scalar false (String.ofList text.reverse), c)

/-- Behind a plain scalar that was followed by a line end, a key may start. -/
def plain (r : TokenReader) : Option TokenReader := do
  let r ← r.saveKey
  let c := r.cursor
  let (text, crossed, cursor) ←
    plainText r.inFlow (r.indent + 1).toNat [] Gap.none c.line c.col c.rest
  pure { r.push (.scalar true (String.ofList text.reverse)) with cursor, keyAllowed := crossed }

def block (r : TokenReader) (literal : Bool) : Option TokenReader := do
  let r ← r.dropKey
  let (text, cursor) ← Yaml.block literal r.indent (r.cursor.advance 1)
  pure { r.push (.scalar false (String.ofList text.reverse)) with cursor, keyAllowed := true }

/-- Whether a plain scalar can start here. -/
def startsPlain (flow : Bool) : List Char → Bool
  | [] => false
  | c :: cs =>
    if c == '-' then !isGap cs
    else if c == '?' || c == ':' then !flow && !isGap cs
    else !(isBlank c || isBreak c || ",[]\x7b\x7d#&*!|>'\"%@\x60".toList.contains c)

/-! ## Directives and documents -/

/-- Ends everything that is open in a block. -/
def finish (r : TokenReader) : Option TokenReader := do
  let r ← (r.unroll (-1)).dropKey
  pure { r with keyAllowed := false }

/-- A number of at most two digits. -/
def versionPart? (c : Cursor) : Option (Nat × Cursor) :=
  let ds := c.rest.takeWhile Char.isDigit
  if ds.isEmpty || 2 < ds.length then none else some (Decimal.ofDigits ds, c.advance ds.length)

def version? (c : Cursor) : Option (Token × Cursor) := do
  let (major, c) ← versionPart? (c.skip isBlank)
  if c.rest.head? != some '.' then none
  let (minor, c) ← versionPart? (c.advance 1)
  pure (.version major minor, c)

def handleText? (c : Cursor) : Option (Token × Cursor) := do
  let c := c.skip isBlank
  if c.rest.head? != some '!' then none
  let (handle, closed, c) := handleAt c
  if !closed && 1 < handle.length then none
  if !(c.rest.head?.any isBlank) then none
  let (text, c) ← readUri? [] (c.skip isBlank)
  if text.isEmpty || !isGap c.rest then none
  pure (.handle (String.ofList handle) text, c)

/-- A line that starts with a percent sign. -/
def directive (r : TokenReader) : Option TokenReader := do
  let r ← r.finish
  let c := r.cursor.advance 1
  let word := c.rest.takeWhile isWordChar
  let c := c.advance word.length
  if !isGap c.rest then none
  let (t, c) ← match String.ofList word with
    | "YAML" => version? c
    | "TAG" => handleText? c
    | _ => none
  let c := c.skip isBlank
  let c := if c.rest.head? == some '#' then c.toLineEnd else c
  if c.rest.head?.all isBreak then pure { r.push t with cursor := c.passBreak } else none

def documentMark (r : TokenReader) (t : Token) : Option TokenReader := do
  let r ← r.finish
  pure { r.push t with cursor := r.cursor.advance 3 }

/-! ## All tokens -/

/-- The token that starts with a character of the text. -/
def tokenAt (r : TokenReader) (c : Char) (cs : List Char) : Option TokenReader :=
  let block := !r.inFlow
  match c with
  | '[' => r.openFlow .openSeq
  | ']' => r.closeFlow .closeSeq
  | '\x7b' => r.openFlow .openMap
  | '\x7d' => r.closeFlow .closeMap
  | ',' => r.comma
  | '*' => r.keyed fun c => (name? (c.advance 1)).map fun (s, c) => (.alias s, c)
  | '&' => r.keyed fun c => (name? (c.advance 1)).map fun (s, c) => (.anchor s, c)
  | '!' => r.keyed tag?
  | '\'' => r.quoted false
  | '"' => r.quoted true
  | _ =>
    if c == '-' && isGap cs then r.dash
    else if c == '?' && (r.inFlow || isGap cs) then r.questionMark
    else if c == ':' && (r.inFlow || isGap cs) then r.colon
    else if c == '|' && block then r.block true
    else if c == '>' && block then r.block false
    else if startsPlain r.inFlow (c :: cs) then r.plain
    else none

/-- Reads one more token; `none` if there cannot be one. -/
def next (r : TokenReader) : Option TokenReader :=
  let r := r.toToken
  let r := r.unroll r.cursor.col
  match r.cursor.rest with
  | [] => r.finish.map (·.push .streamEnd)
  | c :: cs =>
    if c == '%' && r.cursor.col = 0 then r.directive
    else if r.cursor.isMark '-' then r.documentMark .documentStart
    else if r.cursor.isMark '.' then r.documentMark .documentEnd
    else do
      let r ← r.tokenAt c cs
      pure (if r.tokens.head? == some .dash then r else r.passComment)

/-- Reads on to the end of the text, or to the first fault. Every token has a character, so the
length of the text is enough fuel. -/
def all : Nat → TokenReader → TokenReader × Bool
  | 0, r => (r, false)
  | fuel + 1, r =>
    match r.next with
    | none => (r, false)
    | some r => if r.tokens.head? == some .streamEnd then (r, true) else all fuel r

end TokenReader

/-- The tokens of a text, up to the first fault. -/
structure Tokens where
  list : List Token
  /-- Whether there is no fault. -/
  complete : Bool

/-- A fault in the text shows when the third token before it is reached. -/
def Tokens.reaches (ts : Tokens) (rest : List Token) : Bool := ts.complete || 3 ≤ rest.length

def Tokens.read? (s : String) : Option Tokens := do
  let cs ← source? s
  let (r, complete) := TokenReader.all (cs.length + 2) { cursor := { rest := cs } }
  pure ⟨r.tokens.reverse, complete⟩

end StackFlow.Yaml
