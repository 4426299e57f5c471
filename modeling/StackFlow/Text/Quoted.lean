import StackFlow.Text.Printable
import StackFlow.Text.Utf8

/-!
Quoted text. Everything printable stands for itself; quotes, backslashes and the rest are escaped, so
that the result is one line of visible characters.
-/

namespace StackFlow.Text

def hexDigit (n : Nat) : Char :=
  if n < 10 then Char.ofNat (48 + n) else Char.ofNat (87 + n)

/-- The low `width` hexadecimal digits of `n`, most significant first. -/
def hexDigits : (width : Nat) → (n : Nat) → List Char
  | 0, _ => []
  | w + 1, n => hexDigits w (n / 16) ++ [hexDigit (n % 16)]

/-- The named escapes, by code point. -/
def shortEscape? : Nat → Option Char
  | 0x07 => some 'a'
  | 0x08 => some 'b'
  | 0x0c => some 'f'
  | 0x0a => some 'n'
  | 0x0d => some 'r'
  | 0x09 => some 't'
  | 0x0b => some 'v'
  | 0x5c => some '\\'
  | _ => none

/-- A character between such quotes. -/
def quoteChar (mark c : Char) : List Char :=
  match shortEscape? c.toNat with
  | some e => ['\\', e]
  | none =>
    if c = mark then ['\\', c]
    else if isPrintable c then [c]
    else if c.toNat < 0x80 then '\\' :: 'x' :: hexDigits 2 c.toNat
    else if c.toNat < 0x10000 then '\\' :: 'u' :: hexDigits 4 c.toNat
    else '\\' :: 'U' :: hexDigits 8 c.toNat

def quotePiece : Utf8.Piece → List Char
  | .char c => quoteChar '"' c
  | .stray b => '\\' :: 'x' :: hexDigits 2 b

/-- Double-quoted text, which may hold strays. -/
def quotePieces (ps : List Utf8.Piece) : String :=
  String.ofList ('"' :: ps.flatMap quotePiece ++ ['"'])

def quote (s : String) : String := quotePieces (Utf8.ofText s)

/-- A character between single quotes. -/
def quoteSingle (c : Char) : String := String.ofList ('\'' :: quoteChar '\'' c ++ ['\''])

end StackFlow.Text
