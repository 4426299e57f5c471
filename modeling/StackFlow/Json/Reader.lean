import StackFlow.Json.Value

/-!
Reading JSON text. The text is cut into tokens, and the tokens drive a machine with a stack of open
containers. A reader takes one value and leaves the rest of the text alone, or insists that only
blanks follow. A key may be repeated: `transcript?` keeps every field as it stands, and the other
readers settle for the last one.
-/

namespace StackFlow.Json

inductive Token where
  | openArr | closeArr | openObj | closeObj | comma | colon
  | scalar (v : Value)
  | bad
deriving Inhabited

def isBlank (c : Char) : Bool := c = ' ' || c = '\t' || c = '\n' || c = '\r'

def hexValue? (c : Char) : Option Nat :=
  if '0' ≤ c && c ≤ '9' then some (c.toNat - 48)
  else if 'a' ≤ c && c ≤ 'f' then some (c.toNat - 87)
  else if 'A' ≤ c && c ≤ 'F' then some (c.toNat - 55)
  else none

def hexUnit? (a b c d : Char) : Option Nat := do
  let a ← hexValue? a
  let b ← hexValue? b
  let c ← hexValue? c
  let d ← hexValue? d
  pure (((a * 16 + b) * 16 + c) * 16 + d)

def isHighSurrogate (n : Nat) : Bool := 0xd800 ≤ n && n < 0xdc00
def isLowSurrogate (n : Nat) : Bool := 0xdc00 ≤ n && n < 0xe000

/-- Joins surrogate pairs; a surrogate without its partner becomes the replacement character.
The characters come reversed, and so do the units. -/
def joinUnits : List Nat → List Char → List Char
  | [], acc => acc
  | [u], acc => (if isHighSurrogate u || isLowSurrogate u then Char.ofNat 0xfffd else Char.ofNat u) :: acc
  | u :: v :: rest, acc =>
    if isLowSurrogate u && isHighSurrogate v then
      joinUnits rest (Char.ofNat (0x10000 + (v - 0xd800) * 0x400 + (u - 0xdc00)) :: acc)
    else if isHighSurrogate u || isLowSurrogate u then joinUnits (v :: rest) (Char.ofNat 0xfffd :: acc)
    else joinUnits (v :: rest) (Char.ofNat u :: acc)

/-- Scans the inside of a string up to its closing quote. The units come reversed. -/
def scanString : List Char → List Nat → Option (List Nat × List Char)
  | [], _ => none
  | '"' :: rest, acc => some (acc, rest)
  | '\\' :: 'u' :: a :: b :: c :: d :: rest, acc =>
    match hexUnit? a b c d with
    | some u => scanString rest (u :: acc)
    | none => none
  | '\\' :: e :: rest, acc =>
    match e with
    | '"' => scanString rest (0x22 :: acc)
    | '\\' => scanString rest (0x5c :: acc)
    | '/' => scanString rest (0x2f :: acc)
    | 'b' => scanString rest (0x08 :: acc)
    | 'f' => scanString rest (0x0c :: acc)
    | 'n' => scanString rest (0x0a :: acc)
    | 'r' => scanString rest (0x0d :: acc)
    | 't' => scanString rest (0x09 :: acc)
    | _ => none
  | c :: rest, acc =>
    if c = '\\' || c.toNat < 0x20 then none else scanString rest (c.toNat :: acc)

/-- A non-empty run of digits in front of the rest. -/
def scanDigits? (cs : List Char) : Option (List Char × List Char) :=
  let ds := cs.takeWhile Char.isDigit
  if ds.isEmpty then none else some (ds, cs.dropWhile Char.isDigit)

def scanFraction : List Char → Option (List Char × List Char)
  | '.' :: cs => (scanDigits? cs).map fun (ds, rest) => ('.' :: ds, rest)
  | cs => some ([], cs)

def scanExponent : List Char → Option (List Char × List Char)
  | [] => some ([], [])
  | e :: cs =>
    if e = 'e' || e = 'E' then
      match cs with
      | '+' :: cs => (scanDigits? cs).map fun (ds, rest) => (e :: '+' :: ds, rest)
      | '-' :: cs => (scanDigits? cs).map fun (ds, rest) => (e :: '-' :: ds, rest)
      | cs => (scanDigits? cs).map fun (ds, rest) => (e :: ds, rest)
    else some ([], e :: cs)

/-- The digits in front of point and exponent: a lone zero, or a run that does not start with one. -/
def scanWhole : List Char → Option (List Char × List Char)
  | '0' :: cs => some (['0'], cs)
  | cs => scanDigits? cs

def scanUnsigned (cs : List Char) : Option (List Char × List Char) := do
  let (whole, cs) ← scanWhole cs
  let (fraction, cs) ← scanFraction cs
  let (exponent, cs) ← scanExponent cs
  pure (whole ++ fraction ++ exponent, cs)

def scanNumber : List Char → Option (List Char × List Char)
  | '-' :: cs => (scanUnsigned cs).map fun (ds, rest) => ('-' :: ds, rest)
  | cs => scanUnsigned cs

/-- The token that starts at a character that is no blank. -/
def scanToken : List Char → Token × List Char
  | [] => (.bad, [])
  | '[' :: cs => (.openArr, cs)
  | ']' :: cs => (.closeArr, cs)
  | '\x7b' :: cs => (.openObj, cs)
  | '\x7d' :: cs => (.closeObj, cs)
  | ',' :: cs => (.comma, cs)
  | ':' :: cs => (.colon, cs)
  | '"' :: cs =>
    match scanString cs [] with
    | some (units, rest) => (.scalar (.str (String.ofList (joinUnits units []))), rest)
    | none => (.bad, [])
  | 't' :: 'r' :: 'u' :: 'e' :: cs => (.scalar (.bool true), cs)
  | 'f' :: 'a' :: 'l' :: 's' :: 'e' :: cs => (.scalar (.bool false), cs)
  | 'n' :: 'u' :: 'l' :: 'l' :: cs => (.scalar .null, cs)
  | cs =>
    match scanNumber cs with
    | some (ds, rest) => (.scalar (.num (String.ofList ds)), rest)
    | none => (.bad, [])

/-- Containers may be nested this deep. -/
def maxDepth : Nat := 10000

/-- A container that is still open: the items of an array, or the fields of an object and the key
whose value comes next. Items and fields come reversed. -/
inductive Frame where
  | arr (items : List Value)
  | obj (fields : Fields) (key : String)

/-- What the next token may be. -/
inductive Expect where
  | value
  | valueOrClose
  | key
  | keyOrClose
  | colon (key : String)
  | separator

/-- The state of reading: open containers, innermost first. An object that waits for a key keeps its
fields in a frame with an empty key. -/
structure Machine where
  expect : Expect := .value
  frames : List Frame := []

inductive Progress where
  | more (m : Machine)
  | done (v : Value)
  | failed

/-- Hands a complete value to the innermost open container. -/
def complete (v : Value) : List Frame → Progress
  | [] => .done v
  | .arr items :: rest => .more ⟨.separator, .arr (v :: items) :: rest⟩
  | .obj fields key :: rest => .more ⟨.separator, .obj ((key, v) :: fields) "" :: rest⟩

def openFrame (e : Expect) (f : Frame) (frames : List Frame) : Progress :=
  if frames.length < maxDepth then .more ⟨e, f :: frames⟩ else .failed

def feed (m : Machine) : Token → Progress
  | .bad => .failed
  | .scalar v =>
    match m.expect, v, m.frames with
    | .value, v, frames => complete v frames
    | .valueOrClose, v, frames => complete v frames
    | .key, .str k, frames => .more ⟨.colon k, frames⟩
    | .keyOrClose, .str k, frames => .more ⟨.colon k, frames⟩
    | _, _, _ => .failed
  | .openArr =>
    match m.expect with
    | .value | .valueOrClose => openFrame .valueOrClose (.arr []) m.frames
    | _ => .failed
  | .openObj =>
    match m.expect with
    | .value | .valueOrClose => openFrame .keyOrClose (.obj [] "") m.frames
    | _ => .failed
  | .closeArr =>
    match m.expect, m.frames with
    | .valueOrClose, .arr items :: rest => complete (.arr items.reverse) rest
    | .separator, .arr items :: rest => complete (.arr items.reverse) rest
    | _, _ => .failed
  | .closeObj =>
    match m.expect, m.frames with
    | .keyOrClose, .obj fields _ :: rest => complete (.obj fields.reverse) rest
    | .separator, .obj fields _ :: rest => complete (.obj fields.reverse) rest
    | _, _ => .failed
  | .comma =>
    match m.expect, m.frames with
    | .separator, .arr _ :: _ => .more ⟨.value, m.frames⟩
    | .separator, .obj _ _ :: _ => .more ⟨.key, m.frames⟩
    | _, _ => .failed
  | .colon =>
    match m.expect, m.frames with
    | .colon k, .obj fields _ :: rest => .more ⟨.value, .obj fields k :: rest⟩
    | _, _ => .failed

/-- Reads one value. Every round takes at least one character, so the length of the text is enough
fuel. -/
def readLoop : (fuel : Nat) → Machine → List Char → Option (Value × List Char)
  | 0, _, _ => none
  | fuel + 1, m, cs =>
    let (t, rest) := scanToken (cs.dropWhile isBlank)
    match feed m t with
    | .more m => readLoop fuel m rest
    | .done v => some (v, rest)
    | .failed => none

/-- The first value of a text, with the text behind it. -/
def readFirst? (s : String) : Option (Value × List Char) :=
  let cs := s.toList
  readLoop (cs.length + 1) {} cs

/-- The value of a text that holds nothing else, with every field as it stands. -/
def transcript? (s : String) : Option Value :=
  match readFirst? s with
  | some (v, rest) => if rest.all isBlank then some v else none
  | none => none

/-- The first value of a text, whatever follows it. -/
def readLeading? (s : String) : Option Value := (readFirst? s).map (·.1.settled)

/-- The value of a text that holds nothing else. -/
def readAll? (s : String) : Option Value := (transcript? s).map Value.settled

end StackFlow.Json
