import StackFlow.Text.Blank
import StackFlow.Text.Decimal
import StackFlow.Text.Quoted

/-!
Trails of nodes as people write them: numbers between commas. A strict reader takes whole numbers
only; a lenient one takes the digits that a part starts with.
-/

namespace StackFlow.Trail

structure Error where
  part : List Utf8.Piece

def Error.message (e : Error) : String := "invalid node id " ++ Text.quotePieces e.part ++ " in path"

/-- Reads every part of a trail without the blanks around it. -/
def parseWith (read? : List Char → Option Int) (raw : List Utf8.Piece) : Except Error (List Int) :=
  (Text.split (.char ',') raw).mapM fun part =>
    match read? (Text.trimmed (part.map Utf8.Piece.shown)) with
    | some n => .ok n
    | none => .error ⟨part⟩

/-- The number that digits after an optional sign start with. -/
def leadingWord? (cs : List Char) : Option Int :=
  let word? (digits : List Char) (sign : Int) : Option Int :=
    ((Decimal.readNat? (digits.takeWhile Char.isDigit)).map fun n => sign * n).filter fitsWord
  match cs with
  | '-' :: cs => word? cs (-1)
  | '+' :: cs => word? cs 1
  | cs => word? cs 1

/-- Reads a trail that may not be text. -/
def parsePieces (raw : List Utf8.Piece) : Except Error (List Int) :=
  parseWith (fun cs => Decimal.readWord? (String.ofList cs)) raw

def parse (raw : String) : Except Error (List Int) := parsePieces (Utf8.ofText raw)

def parseLenient (raw : String) : Except Error (List Int) :=
  parseWith leadingWord? (Utf8.ofText raw)

end StackFlow.Trail
