import StackFlow.Text.Binary64

/-!
Durations as people write them, such as `1h30m` or `1.5s`, in nanoseconds.
-/

namespace StackFlow.Duration

/-- The longest unit name that a text starts with, and its length in nanoseconds. -/
def unit? : List Char → Option (Nat × List Char)
  | 'n' :: 's' :: cs => some (1, cs)
  | 'u' :: 's' :: cs | '\u00b5' :: 's' :: cs | '\u03bc' :: 's' :: cs => some (1000, cs)
  | 'm' :: 's' :: cs => some (1000000, cs)
  | 's' :: cs => some (1000000000, cs)
  | 'm' :: cs => some (60000000000, cs)
  | 'h' :: cs => some (3600000000000, cs)
  | _ => none

/-- A unit ends where the next number starts. -/
def isUnitEnd : List Char → Bool
  | [] => true
  | c :: _ => c == '.' || c.isDigit

/-- Ten times the last power of ten; `none` once it is too large for 64 bits. -/
def nextPower (scale : Option Binary64) : Option Binary64 :=
  scale.bind fun x => Binary64.nearest? ⟨x.ratio.num * 10, x.ratio.den⟩

/-- The places behind a point as a whole number that fits a word, and the power of ten to divide it
by. Places that do not fit any more are ignored. -/
def places (n : Nat) (scale : Option Binary64) : List Char → Nat × Option Binary64
  | [] => (n, scale)
  | c :: cs =>
    let next := 10 * n + Decimal.digitValue c
    if 922337203685477580 < n || 9223372036854775808 < next then (n, scale)
    else places next (nextPower scale) cs

/-- Some places of a unit in nanoseconds, cut off to a whole number: the unit is divided by the power
of ten first, and both steps round to 64 bits. -/
def partOf (size : Nat) (digits : List Char) : Nat :=
  let (n, scale) := places 0 (Binary64.nearest? ⟨1, 1⟩) digits
  let share : Option Nat := do
    let scale ← scale
    let n ← Binary64.nearest? ⟨n, 1⟩
    let each ← Binary64.nearest? ⟨size * scale.ratio.den, scale.ratio.num⟩
    let all ← Binary64.nearest? ⟨n.ratio.num * each.ratio.num, n.ratio.den * each.ratio.den⟩
    pure all.whole
  share.getD 0

/-- Numbers with units, added up; no more than a word can hold. -/
def parts? : Nat → Nat → List Char → Option Nat
  | _, total, [] => some total
  | 0, _, _ :: _ => none
  | fuel + 1, total, cs =>
    let whole := cs.takeWhile Char.isDigit
    let (digits, cs) : List Char × List Char := match cs.drop whole.length with
      | '.' :: rest => (rest.takeWhile Char.isDigit, rest.dropWhile Char.isDigit)
      | rest => ([], rest)
    if whole.isEmpty && digits.isEmpty then none
    else
      match unit? cs with
      | none => none
      | some (size, rest) =>
        let total := total + Decimal.ofDigits whole * size + partOf size digits
        if isUnitEnd rest && total ≤ 9223372036854775808 then parts? fuel total rest else none

def parse? (s : String) : Option Int :=
  let (negative, cs) : Bool × List Char := match s.toList with
    | '-' :: cs => (true, cs)
    | '+' :: cs => (false, cs)
    | cs => (false, cs)
  if cs = ['0'] then some 0
  else if cs.isEmpty then none
  else
    (parts? cs.length 0 cs).bind fun n =>
      let i : Int := if negative then -(n : Int) else n
      if fitsWord i then some i else none

end StackFlow.Duration
