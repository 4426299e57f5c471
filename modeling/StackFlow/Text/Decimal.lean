/-!
Integers as decimal text, and 64-bit words. `readInteger?` reads any magnitude; `readWord?` refuses
what does not fit a signed 64-bit word.
-/

namespace StackFlow

/-- The signed 64-bit word that an exact sum or difference wraps to. -/
def wrap (n : Int) : Int := n.bmod 18446744073709551616

def leastWord : Int := -9223372036854775808

def greatestWord : Int := 9223372036854775807

def fitsWord (n : Int) : Bool := leastWord ≤ n && n ≤ greatestWord

namespace Decimal

def digitValue (c : Char) : Nat := c.toNat - 48

def ofDigits (cs : List Char) : Nat := cs.foldl (fun n c => 10 * n + digitValue c) 0

/-- A non-empty run of ASCII digits. -/
def readNat? (cs : List Char) : Option Nat :=
  if !cs.isEmpty && cs.all Char.isDigit then some (ofDigits cs) else none

def readInteger? (s : String) : Option Int :=
  match s.toList with
  | '-' :: cs => (readNat? cs).map fun n => -(n : Int)
  | '+' :: cs => (readNat? cs).map Int.ofNat
  | cs => (readNat? cs).map Int.ofNat

def readWord? (s : String) : Option Int :=
  (readInteger? s).filter fitsWord

def natText (n : Nat) : String := String.ofList (Nat.toDigits 10 n)

def text (n : Int) : String :=
  if n < 0 then "-" ++ natText n.natAbs else natText n.natAbs

end Decimal

end StackFlow
