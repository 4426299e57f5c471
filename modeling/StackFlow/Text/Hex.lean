import StackFlow.Text.Quoted

/-!
Bytes as lower-case hexadecimal text. Reading takes either case.
-/

namespace StackFlow.Hex

def encode (bytes : List UInt8) : String :=
  String.ofList (bytes.flatMap fun b => Text.hexDigits 2 b.toNat)

def digitValue? (c : Char) : Option Nat :=
  if '0' ≤ c && c ≤ '9' then some (c.toNat - 48)
  else if 'a' ≤ c && c ≤ 'f' then some (c.toNat - 87)
  else if 'A' ≤ c && c ≤ 'F' then some (c.toNat - 55)
  else none

def decodeChars? : List Char → Option (List UInt8)
  | [] => some []
  | [_] => none
  | a :: b :: rest => do
    let hi ← digitValue? a
    let lo ← digitValue? b
    let bytes ← decodeChars? rest
    pure (UInt8.ofNat (16 * hi + lo) :: bytes)

def decode? (s : String) : Option (List UInt8) := decodeChars? s.toList

end StackFlow.Hex
