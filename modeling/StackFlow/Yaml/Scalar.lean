import StackFlow.Text.Base64
import StackFlow.Text.Binary64
import StackFlow.Text.IntLiteral
import StackFlow.Text.Moment
import StackFlow.Text.Utf8

/-!
What a scalar means: nothing, a truth value, a number, a moment or a text. A plain scalar is taken for
what it looks like, a quoted one is a text, and a tag may ask for a kind.
-/

namespace StackFlow.Yaml

inductive Scalar where
  | null
  | bool (b : Bool)
  | int (n : Int)
  | float (x : Binary64)
  /-- Infinities and what is not a number. -/
  | notFinite (negative : Bool)
  | moment (t : Moment)
  | text (s : String)
deriving DecidableEq

namespace Scalar

/-! ## Numbers -/

/-- A whole number in a base with a sign of its own. -/
def signed? (base : Nat) : List Char → Option Int
  | '-' :: cs => (IntLiteral.digits? base cs).map fun n => -(n : Int)
  | '+' :: cs => (IntLiteral.digits? base cs).map Int.ofNat
  | cs => (IntLiteral.digits? base cs).map Int.ofNat

/-- A sign may also stand behind the letter that names the base. -/
def integer? (cs : List Char) : Option Int :=
  (IntLiteral.integer? cs).or (match cs with
    | '0' :: 'b' :: cs => signed? 2 cs
    | '0' :: 'o' :: cs => signed? 8 cs
    | _ => none)

/-- A whole number that fits a word, signed or not. -/
def readInt? (cs : List Char) : Option Int :=
  (integer? cs).filter fun n => leastWord ≤ n && n < 18446744073709551616

def isExponentMark (c : Char) : Bool := c == 'e' || c == 'E'

/-- Whether an exponent with its mark, or nothing, stands here. -/
def isExponent : List Char → Bool
  | [] => true
  | e :: cs =>
    let ds := match cs with
      | '+' :: ds | '-' :: ds => ds
      | ds => ds
    isExponentMark e && !ds.isEmpty && ds.all Char.isDigit

/-- Digits with a point among or before them, and an exponent. -/
def isFloat (cs : List Char) : Bool :=
  let cs := match cs with
    | '+' :: ds | '-' :: ds => ds
    | ds => ds
  let whole := cs.takeWhile Char.isDigit
  match cs.drop whole.length with
  | '.' :: rest =>
    let places := rest.takeWhile Char.isDigit
    !(whole.isEmpty && places.isEmpty) && isExponent (rest.drop places.length)
  | rest => !whole.isEmpty && isExponent rest

def readFloat? (cs : List Char) : Option Binary64 :=
  if isFloat cs then Binary64.read? (String.ofList cs) else none

/-- Whether every underscore stands between two digits. -/
def underscoresOk : (afterDigit : Bool) → List Char → Bool
  | _, [] => true
  | afterDigit, '_' :: cs => afterDigit && cs.head?.any Char.isDigit && underscoresOk false cs
  | _, c :: cs => underscoresOk c.isDigit cs

/-- Something that starts with a sign or a digit. Underscores anywhere in a number are ignored. -/
def ofDigits (moments : Bool) (s : String) : Scalar :=
  let cs := s.toList.filter (· != '_')
  let number := ((readInt? cs).map int).or ((readFloat? cs).map float)
  ((if moments then (Moment.ofLoose? s).map moment else none).or number).getD (text s)

/-- Something that starts with a point. -/
def ofPoint (s : String) : Scalar :=
  let cs := s.toList
  let number := if underscoresOk false cs then readFloat? (cs.filter (· != '_')) else none
  (number.map float).getD (text s)

/-- What a text looks like; moments only where they are asked for. -/
def ofLooks (moments : Bool) (s : String) : Scalar :=
  match s with
  | "" | "~" | "null" | "Null" | "NULL" => null
  | "true" | "True" | "TRUE" => bool true
  | "false" | "False" | "FALSE" => bool false
  | ".inf" | ".Inf" | ".INF" | "+.inf" | "+.Inf" | "+.INF" | ".nan" | ".NaN" | ".NAN" => notFinite false
  | "-.inf" | "-.Inf" | "-.INF" => notFinite true
  | _ =>
    match s.toList.head? with
    | some '.' => ofPoint s
    | some c => if c.isDigit || c == '+' || c == '-' then ofDigits moments s else text s
    | none => text s

/-! ## Tags -/

/-- The value that a tag asks for, if the text looks like one; whole numbers that fit a signed word
also are numbers with a point. -/
def tagged? (tag : String) (s : String) : Option Scalar :=
  match tag, ofLooks (tag == "!!timestamp") s with
  | "!!null", .null => some .null
  | "!!bool", .bool b => some (.bool b)
  | "!!int", .int n => some (.int n)
  | "!!float", .float x => some (.float x)
  | "!!float", .notFinite b => some (.notFinite b)
  | "!!float", .int n =>
    if fitsWord n then (Binary64.read? (Decimal.text n)).map .float else none
  | "!!timestamp", .moment t => some (.moment t)
  | _, _ => none

def kinds : List String := ["!!null", "!!bool", "!!int", "!!float", "!!timestamp"]

/-- The value of a scalar; none if its tag asks for another kind. A tag that is not of the standard
makes it a text. -/
def of? (tag : String) (plain : Bool) (s : String) : Option Scalar :=
  if tag == "" then some (if plain then ofLooks true s else text s)
  else if tag == "!!binary" then (Base64.decode? s).map fun bytes => text (Utf8.decode bytes)
  else if kinds.contains tag then tagged? tag s
  else some (text s)

end Scalar

end StackFlow.Yaml
