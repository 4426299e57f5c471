import StackFlow.Text.Decimal

/-!
Floating-point numbers of 64 bits, as exact values `±m · 2 ^ q`. A decimal is read to the nearest
one, of two equally near to the one with the even `m`; a number is written with the fewest digits
that read back.
-/

namespace StackFlow

/-- A finite number; `m < 2 ^ 53` and `-1074 ≤ q ≤ 971`. -/
structure Binary64 where
  negative : Bool := false
  m : Nat := 0
  q : Int := 0
deriving Repr, DecidableEq

/-- A decimal `±digits · 10 ^ exponent`. -/
structure DecimalForm where
  negative : Bool := false
  digits : Nat := 0
  exponent : Int := 0
deriving Repr

namespace DecimalForm

def isMark (c : Char) : Bool := c == 'e' || c == 'E'

/-- An optional sign and digits. -/
def readExponent? (cs : List Char) : Option Int := Decimal.readInteger? (String.ofList cs)

/-- Digits with an optional sign, point and exponent; at least one digit before the exponent. -/
def parse? (s : String) : Option DecimalForm :=
  let (negative, cs) : Bool × List Char := match s.toList with
    | '-' :: cs => (true, cs)
    | '+' :: cs => (false, cs)
    | cs => (false, cs)
  let front := cs.takeWhile fun c => !isMark c
  let whole := front.takeWhile (· != '.')
  let places := (front.dropWhile (· != '.')).drop 1
  let exponent? : Option Int := match cs.drop front.length with
    | [] => some 0
    | _ :: rest => readExponent? rest
  exponent?.bind fun exponent =>
    (Decimal.readNat? (whole ++ places)).map fun digits =>
      { negative, digits, exponent := exponent - places.length }

end DecimalForm

namespace Binary64

def twoTo (n : Nat) : Nat := Nat.pow 2 n

def tenTo (n : Nat) : Nat := Nat.pow 10 n

/-- The quotient rounded to the nearest, a half to the even neighbour. -/
def roundDiv (n d : Nat) : Nat :=
  let t := n / d
  let r := 2 * (n % d)
  if d < r || (r = d && t % 2 = 1) then t + 1 else t

/-- The fraction `n · 2 ^ (-e) / d`, rounded. -/
def roundAt (n d : Nat) (e : Int) : Nat :=
  if 0 ≤ e then roundDiv n (d * twoTo e.toNat) else roundDiv (n * twoTo (-e).toNat) d

/-- The nearest number to a positive fraction; `none` if it is too large. -/
def ofFraction? (n d : Nat) : Option (Nat × Int) :=
  -- `n / d` lies between `2 ^ (k - 1)` and `2 ^ (k + 1)`
  let k : Int := (Nat.log2 n : Int) - (Nat.log2 d : Int)
  let above : Bool := if 0 ≤ k then d * twoTo k.toNat ≤ n else d ≤ n * twoTo (-k).toNat
  let top : Int := if above then k else k - 1
  let q : Int := max (top - 52) (-1074)
  let m := roundAt n d q
  let (m, q) := if m = twoTo 53 then (twoTo 52, q + 1) else (m, q)
  if 971 < q then none else some (m, q)

/-- The number nearest to a decimal; `none` if it is too large. -/
def ofDecimal? (x : DecimalForm) : Option Binary64 :=
  let size : Int := (Nat.toDigits 10 x.digits).length + x.exponent
  if x.digits = 0 || size < -400 then some { negative := x.negative }
  else if 400 < size then none
  else
    let f := if 0 ≤ x.exponent then ofFraction? (x.digits * tenTo x.exponent.toNat) 1
      else ofFraction? x.digits (tenTo (-x.exponent).toNat)
    f.map fun (m, q) => { negative := x.negative, m, q }

def read? (s : String) : Option Binary64 := (DecimalForm.parse? s).bind ofDecimal?

/-- The whole part without the sign. -/
def whole (x : Binary64) : Nat :=
  if 0 ≤ x.q then x.m * twoTo x.q.toNat else x.m / twoTo (-x.q).toNat

/-- The whole number toward zero; one that does not fit a word becomes the least word. -/
def truncate (x : Binary64) : Int :=
  let i : Int := if x.negative then -(x.whole : Int) else x.whole
  if fitsWord i then i else leastWord

/-! ## Shortest text -/

/-- A positive fraction. -/
structure Ratio where
  num : Nat
  den : Nat

def Ratio.scaled (n : Nat) (e : Int) : Ratio :=
  if 0 ≤ e then ⟨n * twoTo e.toNat, 1⟩ else ⟨n, twoTo (-e).toNat⟩

def Ratio.lt (a b : Ratio) : Bool := a.num * b.den < b.num * a.den

/-- The numbers between these two read back as the number itself; the ends do so if `m` is even. -/
def bounds (x : Binary64) : Ratio × Ratio :=
  let low := if x.m = twoTo 52 && -1074 < x.q then Ratio.scaled (4 * x.m - 1) (x.q - 2)
    else Ratio.scaled (2 * x.m - 1) (x.q - 1)
  (low, Ratio.scaled (2 * x.m + 1) (x.q - 1))

def within (x : Binary64) (a : Ratio) : Bool :=
  let (low, high) := x.bounds
  if x.m % 2 = 0 then !a.lt low && !high.lt a else low.lt a && a.lt high

/-- The nearest number to a fraction; `none` if it is too large. -/
def nearest? (a : Ratio) : Option Binary64 :=
  if a.num = 0 then some {} else (ofFraction? a.num a.den).map fun (m, q) => { m, q }

/-- The size of a number, without its sign. -/
def ratio (x : Binary64) : Ratio := Ratio.scaled x.m x.q

/-- The multiple `n` of a power of ten. -/
def gridPoint (n : Nat) (e : Int) : Ratio :=
  if 0 ≤ e then ⟨n * tenTo e.toNat, 1⟩ else ⟨n, tenTo (-e).toNat⟩

/-- The exponent of the first digit: `10 ^ k ≤ v < 10 ^ (k + 1)`, looking downward from a start. -/
def firstPlace (v : Ratio) : Nat → Int → Int
  | 0, k => k
  | fuel + 1, k => if v.lt (gridPoint 1 k) then firstPlace v fuel (k - 1) else k

/-- The value's neighbours on a decimal grid; the nearer of those that read back. -/
def onGrid? (x : Binary64) (v : Ratio) (e : Int) : Option Nat :=
  let unit := gridPoint 1 e
  let n := (v.num * unit.den) / (v.den * unit.num)
  let downOk := x.within (gridPoint n e) && 0 < n
  let upOk := x.within (gridPoint (n + 1) e)
  if downOk && upOk then
    -- above the middle between the neighbours the upper one is nearer
    if (gridPoint (2 * n + 1) e).lt ⟨2 * v.num, v.den⟩ then some (n + 1) else some n
  else if downOk then some n
  else if upOk then some (n + 1)
  else none

def search (x : Binary64) (v : Ratio) (k : Int) : Nat → Nat → Nat × Int
  | 0, _ => (0, 0)
  | fuel + 1, places =>
    let e := k - places + 1
    match x.onGrid? v e with
    | some n => (n, e)
    | none => search x v k fuel (places + 1)

/-- The fewest digits that read back, and the exponent of the last one. -/
def shortest (x : Binary64) : Nat × Int :=
  let v := Ratio.scaled x.m x.q
  x.search v (firstPlace v 640 310) 17 1

def dropZeros : Nat → Nat → Int → Nat × Int
  | 0, n, e => (n, e)
  | fuel + 1, n, e => if n % 10 = 0 && n != 0 then dropZeros fuel (n / 10) (e + 1) else (n, e)

/-- How numbers are written: positional for decimal exponents from `least` to `most`, else with an
exponent of at least so many digits. -/
structure Style where
  least : Int
  most : Int
  exponentDigits : Nat

def textWith (style : Style) (x : Binary64) : String :=
  let sign := if x.negative then "-" else ""
  if x.m = 0 then sign ++ "0"
  else
    let (n, e) := x.shortest
    let (n, e) := dropZeros 400 n e
    let ds := Nat.toDigits 10 n
    let k : Int := e + ds.length - 1
    if k < style.least || style.most < k then
      let tail := ds.drop 1
      let size := Nat.toDigits 10 k.natAbs
      sign ++ String.ofList (ds.take 1 ++ (if tail.isEmpty then [] else '.' :: tail)
        ++ ['e', if k < 0 then '-' else '+'] ++ List.replicate (style.exponentDigits - size.length) '0' ++ size)
    else if 0 ≤ e then sign ++ String.ofList (ds ++ List.replicate e.toNat '0')
    else if 0 ≤ k then
      let whole := (k + 1).toNat
      sign ++ String.ofList (ds.take whole ++ '.' :: ds.drop whole)
    else sign ++ String.ofList ('0' :: '.' :: List.replicate (-k - 1).toNat '0' ++ ds)

end Binary64

end StackFlow
