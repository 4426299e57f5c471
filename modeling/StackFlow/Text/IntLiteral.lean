/-!
Whole numbers in the bases that programmers write: `0x`, `0o` and `0b` in front name the base, and a
plain zero in front means octal.
-/

namespace StackFlow.IntLiteral

def digit? (base : Nat) (c : Char) : Option Nat :=
  let n := if c.isDigit then c.toNat - 48
    else if 'a' ≤ c && c ≤ 'f' then c.toNat - 87
    else if 'A' ≤ c && c ≤ 'F' then c.toNat - 55 else base
  if n < base then some n else none

/-- Digits in a base, at least one. -/
def digits? (base : Nat) (cs : List Char) : Option Nat :=
  if cs.isEmpty then none
  else cs.foldlM (fun n c => (digit? base c).map fun d => base * n + d) 0

/-- A number without its sign. -/
def magnitude? : List Char → Option Nat
  | '0' :: 'x' :: cs | '0' :: 'X' :: cs => digits? 16 cs
  | '0' :: 'o' :: cs | '0' :: 'O' :: cs => digits? 8 cs
  | '0' :: 'b' :: cs | '0' :: 'B' :: cs => digits? 2 cs
  | ['0'] => some 0
  | '0' :: cs => digits? 8 cs
  | cs => digits? 10 cs

def integer? : List Char → Option Int
  | '-' :: cs => (magnitude? cs).map fun n => -(n : Int)
  | '+' :: cs => (magnitude? cs).map Int.ofNat
  | cs => (magnitude? cs).map Int.ofNat

/-- Whether every underscore stands between digits; a base in front counts as a digit. -/
def underscoresOk (cs : List Char) : Bool :=
  let body := match cs with
    | '-' :: cs | '+' :: cs => cs
    | cs => cs
  let body := match body with
    | '0' :: c :: cs => if "xXoObB".toList.contains c then '0' :: cs else body
    | cs => cs
  let rec ok : Bool → List Char → Bool
    | afterDigit, [] => afterDigit
    | afterDigit, '_' :: cs => afterDigit && ok false cs
    | _, _ :: cs => ok true cs
  !cs.contains '_' || ok false body

/-- Why a text is no number. -/
inductive Fault where
  | malformed
  | tooLarge

/-- Digits up to the first fault; a number that needs more than 64 bits is one. Underscores are passed
over. -/
def scan (base : Nat) : Nat → List Char → Except Fault Nat
  | n, [] => .ok n
  | n, '_' :: cs => scan base n cs
  | n, c :: cs =>
    match digit? base c with
    | none => .error .malformed
    | some d =>
      if 18446744073709551616 ≤ base * n + d then .error .tooLarge else scan base (base * n + d) cs

/-- The base that the first characters name, and the digits. -/
def based : List Char → Nat × List Char
  | '0' :: p :: c :: cs =>
    if p == 'x' || p == 'X' then (16, c :: cs)
    else if p == 'o' || p == 'O' then (8, c :: cs)
    else if p == 'b' || p == 'B' then (2, c :: cs)
    else (8, p :: c :: cs)
  | '0' :: cs => (8, cs)
  | cs => (10, cs)

/-- A word that may have underscores between its digits. A number that is too large already is so
whatever follows. -/
def grouped (cs : List Char) : Except Fault Int :=
  let (negative, body) : Bool × List Char := match cs with
    | '-' :: cs => (true, cs)
    | '+' :: cs => (false, cs)
    | cs => (false, cs)
  if body.isEmpty then .error .malformed
  else do
    let (base, digits) := based body
    let n ← scan base 0 digits
    if !underscoresOk body then throw .malformed
    let i : Int := if negative then -(n : Int) else n
    if -9223372036854775808 ≤ i && i ≤ 9223372036854775807 then pure i else throw .tooLarge

end StackFlow.IntLiteral
