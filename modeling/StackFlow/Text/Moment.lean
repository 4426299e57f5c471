import StackFlow.Text.Decimal

/-!
Moments of the calendar with their offset from UTC, such as `2024-05-06T07:08:09.5+02:00`. They are
written as RFC 3339 says; the readers also take some shorter spellings.
-/

namespace StackFlow

/-- A date and a time of day, some minutes ahead of UTC. -/
structure Moment where
  year : Nat
  month : Nat
  day : Nat
  hour : Nat := 0
  minute : Nat := 0
  second : Nat := 0
  nanos : Nat := 0
  offset : Int := 0
deriving DecidableEq, Repr

namespace Moment

def isLeap (year : Nat) : Bool := year % 4 = 0 && (year % 100 != 0 || year % 400 = 0)

def daysIn (year month : Nat) : Nat :=
  if month = 2 then (if isLeap year then 29 else 28)
  else if month = 4 || month = 6 || month = 9 || month = 11 then 30 else 31

/-- Whether there is such a day and such a time of day. -/
def isReal (t : Moment) : Bool :=
  1 ≤ t.month && t.month ≤ 12 && 1 ≤ t.day && t.day ≤ daysIn t.year t.month && t.hour < 24
    && t.minute < 60 && t.second < 60

/-! ## Writing -/

def padded (width n : Nat) : List Char :=
  let ds := (Decimal.natText n).toList
  List.replicate (width - ds.length) '0' ++ ds

/-- Nine places without the zeros at the end. -/
def fraction (nanos : Nat) : List Char :=
  match ((padded 9 nanos).reverse.dropWhile (· == '0')).reverse with
  | [] => []
  | ds => '.' :: ds

def zone (offset : Int) : List Char :=
  if offset = 0 then ['Z']
  else
    let n := offset.natAbs
    (if offset < 0 then '-' else '+') :: padded 2 (n / 60) ++ ':' :: padded 2 (n % 60)

/-- An offset of a whole day or more cannot be written. -/
def text? (t : Moment) : Option String :=
  if 1440 ≤ t.offset.natAbs then none
  else some (String.ofList (padded 4 t.year ++ '-' :: padded 2 t.month ++ '-' :: padded 2 t.day
    ++ 'T' :: padded 2 t.hour ++ ':' :: padded 2 t.minute ++ ':' :: padded 2 t.second
    ++ fraction t.nanos ++ zone t.offset))

/-! ## Reading -/

/-- A number in front of the rest: two digits, or also one if `short` is set. -/
def number? (short : Bool) : List Char → Option (Nat × List Char)
  | a :: b :: cs =>
    if a.isDigit && b.isDigit then some (Decimal.ofDigits [a, b], cs)
    else if a.isDigit && short then some (Decimal.ofDigits [a], b :: cs)
    else none
  | [a] => if a.isDigit && short then some (Decimal.ofDigits [a], []) else none
  | [] => none

def char? (c : Char) : List Char → Option (List Char)
  | d :: cs => if d = c then some cs else none
  | [] => none

def year? : List Char → Option (Nat × List Char)
  | a :: b :: c :: d :: cs => (Decimal.readNat? [a, b, c, d]).map fun n => (n, cs)
  | _ => none

def date? (short : Bool) (cs : List Char) : Option (Moment × List Char) := do
  let (year, cs) ← year? cs
  let cs ← char? '-' cs
  let (month, cs) ← number? short cs
  let cs ← char? '-' cs
  let (day, cs) ← number? short cs
  pure ({ year, month, day }, cs)

/-- The places of a second behind a point or a comma; those after the ninth are ignored. -/
def places : List Char → Nat × List Char
  | p :: d :: cs =>
    if (p == '.' || p == ',') && d.isDigit then
      let ds := (d :: cs).takeWhile Char.isDigit
      (Decimal.ofDigits ((ds ++ List.replicate 9 '0').take 9), (d :: cs).dropWhile Char.isDigit)
    else (0, p :: d :: cs)
  | cs => (0, cs)

/-- The time of day; the hour may be short in any case. -/
def timeOfDay? (short : Bool) (t : Moment) (cs : List Char) : Option (Moment × List Char) := do
  let (hour, cs) ← number? true cs
  let cs ← char? ':' cs
  let (minute, cs) ← number? short cs
  let cs ← char? ':' cs
  let (second, cs) ← number? short cs
  let (nanos, cs) := places cs
  pure ({ t with hour, minute, second, nanos }, cs)

/-- The letter `Z`, or hours and minutes ahead of or behind UTC. -/
def offset? : List Char → Option Int
  | ['Z'] => some 0
  | [sign, a, b, ':', c, d] => do
    let hours ← Decimal.readNat? [a, b]
    let minutes ← Decimal.readNat? [c, d]
    let n : Int := 60 * hours + minutes
    if 24 < hours || 60 < minutes then none
    else if sign == '+' then pure n
    else if sign == '-' then pure (-n)
    else none
  | _ => none

/-- Day and time with a letter between them, and the offset. -/
def withZone? (short : Bool) (mark : Char) (cs : List Char) : Option Moment := do
  let (t, cs) ← date? short cs
  let cs ← char? mark cs
  let (t, cs) ← timeOfDay? short t cs
  let offset ← offset? cs
  if t.isReal then pure { t with offset } else none

/-- Month, day, minute and second have two digits. -/
def ofRfc3339? (s : String) : Option Moment := withZone? false 'T' s.toList

/-- Day and time with blanks between them, in UTC. -/
def spaced? (cs : List Char) : Option Moment := do
  let (t, cs) ← date? true cs
  let cs ← char? ' ' cs
  let (t, cs) ← timeOfDay? true t (cs.dropWhile (· == ' '))
  if cs.isEmpty && t.isReal then pure t else none

/-- The start of a day in UTC. -/
def dateOnly? (cs : List Char) : Option Moment := do
  let (t, cs) ← date? true cs
  if cs.isEmpty && t.isReal then pure t else none

/-- A date, or a date and a time; every number but the year may have one digit only. -/
def ofLoose? (s : String) : Option Moment :=
  let cs := s.toList
  (withZone? true 'T' cs).or ((withZone? true 't' cs).or ((spaced? cs).or (dateOnly? cs)))

/-! ## From a count of seconds -/

/-- The year, month and day that lie some days behind the first of March of the year 0. A year of
this count starts in March, so that the leap day is its last. -/
def civil (days : Nat) : Nat × Nat × Nat :=
  let era := days / 146097
  let inEra := days % 146097
  let yearOfEra := (inEra - inEra / 1460 + inEra / 36524 - inEra / 146096) / 365
  let inYear := inEra - (365 * yearOfEra + yearOfEra / 4 - yearOfEra / 100)
  let month := (5 * inYear + 2) / 153
  let day := inYear - (153 * month + 2) / 5 + 1
  let year := 400 * era + yearOfEra
  if month < 10 then (year, month + 3, day) else (year + 1, month - 9, day)

/-- The moment that lies so many seconds and nanoseconds behind the start of 1970. -/
def ofUnix (seconds nanos : Nat) : Moment :=
  let (year, month, day) := civil (seconds / 86400 + 719468)
  let inDay := seconds % 86400
  { year, month, day, hour := inDay / 3600, minute := inDay / 60 % 60, second := inDay % 60, nanos }

end Moment

end StackFlow
