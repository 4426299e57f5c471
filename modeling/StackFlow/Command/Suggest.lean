import StackFlow.Text.LetterCase

/-!
Names that a mistyped one may have meant.
-/

namespace StackFlow

/-- The bytes of a text in small letters. -/
def smallBytes (s : String) : List UInt8 :=
  (String.ofList (s.toList.map LetterCase.lower)).toUTF8.toList

/-- The next row of the table of edit distances. -/
def editRow (c : UInt8) (t : List UInt8) (row : List Nat) : List Nat :=
  let rec go : List UInt8 → List Nat → Nat → List Nat
    | d :: ds, diagonal :: above :: rest, left =>
      let n := min (min (left + 1) (above + 1)) (if c = d then diagonal else diagonal + 1)
      n :: go ds (above :: rest) n
    | _, _, _ => []
  let first := row.headD 0 + 1
  first :: go t row first

/-- How many bytes have to be added, dropped or changed, regardless of case. -/
def editDistance (s t : String) : Nat :=
  let a := smallBytes s
  let b := smallBytes t
  (a.foldl (fun row c => editRow c b row) (List.range (b.length + 1))).getLastD 0

/-- The names within two edits, and those that start alike. -/
def suggestions (names : List String) (typed : String) : List String :=
  names.filter fun n => editDistance typed n ≤ 2 || (smallBytes typed).isPrefixOf (smallBytes n)

end StackFlow
