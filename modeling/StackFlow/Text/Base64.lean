/-!
Bytes in the standard Base64 alphabet, padded with equals signs.
-/

namespace StackFlow.Base64

def alphabet : List Char :=
  "ABCDEFGHIJKLMNOPQRSTUVWXYZabcdefghijklmnopqrstuvwxyz0123456789+/".toList

def letter (n : Nat) : Char := alphabet.getD (n % 64) 'A'

def encodeChars : List UInt8 → List Char
  | [] => []
  | [a] => let n := a.toNat * 16; [letter (n / 64), letter n, '=', '=']
  | [a, b] =>
    let n := (a.toNat * 256 + b.toNat) * 4
    [letter (n / 4096), letter (n / 64), letter n, '=']
  | a :: b :: c :: rest =>
    let n := (a.toNat * 256 + b.toNat) * 256 + c.toNat
    letter (n / 262144) :: letter (n / 4096) :: letter (n / 64) :: letter n :: encodeChars rest

def encode (bytes : List UInt8) : String := String.ofList (encodeChars bytes)

def value? (c : Char) : Option Nat := alphabet.findIdx? (· == c)

/-- Reads groups of four letters; only the last group may be padded. -/
def decodeChars? : List Char → Option (List UInt8)
  | [] => some []
  | [a, b, '=', '='] => do
    let a ← value? a
    let b ← value? b
    pure [UInt8.ofNat ((a * 64 + b) / 16)]
  | [a, b, c, '='] => do
    let a ← value? a
    let b ← value? b
    let c ← value? c
    let n := ((a * 64 + b) * 64 + c) / 4
    pure [UInt8.ofNat (n / 256), UInt8.ofNat n]
  | a :: b :: c :: d :: rest => do
    let a ← value? a
    let b ← value? b
    let c ← value? c
    let d ← value? d
    let n := ((a * 64 + b) * 64 + c) * 64 + d
    let bytes ← decodeChars? rest
    pure (UInt8.ofNat (n / 65536) :: UInt8.ofNat (n / 256) :: UInt8.ofNat n :: bytes)
  | _ => none

/-- Line breaks inside the text are skipped. -/
def decode? (s : String) : Option (List UInt8) :=
  decodeChars? (s.toList.filter fun c => c != '\n' && c != '\r')

end StackFlow.Base64
