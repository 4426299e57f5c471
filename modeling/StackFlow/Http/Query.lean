import StackFlow.Text.Blank
import StackFlow.Text.Hex

/-!
The query of a request: pairs between ampersands, percent-encoded. A pair with a semicolon or a
broken escape is left out.
-/

namespace StackFlow.Http

/-- The bytes that a percent-encoded text stands for; a plus sign is a blank. -/
def unescape? : List Char → Option (List UInt8)
  | [] => some []
  | '+' :: cs => (unescape? cs).map (0x20 :: ·)
  | '%' :: a :: b :: cs => do
    let hi ← Hex.digitValue? a
    let lo ← Hex.digitValue? b
    let rest ← unescape? cs
    pure (UInt8.ofNat (16 * hi + lo) :: rest)
  | '%' :: _ => none
  | c :: cs => (unescape? cs).map ((String.singleton c).toUTF8.data.toList ++ ·)

/-- The key and the value of a pair; the value need not be text. -/
def readPair? (pair : List Char) : Option (String × List Utf8.Piece) :=
  if pair.contains ';' then none
  else do
    let key ← unescape? (pair.takeWhile (· != '='))
    let value ← unescape? ((pair.dropWhile (· != '=')).drop 1)
    pure (Utf8.decode key, Utf8.pieces value)

abbrev Query := List (String × List Utf8.Piece)

def readQuery (query : List Char) : Query :=
  (Text.split '&' query).filterMap readPair?

/-- The path and the query of a request's target. -/
def splitTarget (target : String) : String × Query :=
  let cs := target.toList
  (String.ofList (cs.takeWhile (· != '?')), readQuery ((cs.dropWhile (· != '?')).drop 1))

end StackFlow.Http
