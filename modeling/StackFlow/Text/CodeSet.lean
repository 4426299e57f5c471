/-!
Sets of code points, as increasing ranges that do not touch each other. Tables of such sets are
written as words: `41-5a` for a range, `aa` for a single point, and `100-12e/2` for every second
point of a range, all in hexadecimal.
-/

namespace StackFlow

/-- The ranges are inclusive. -/
structure CodeSet where
  ranges : Array (Nat × Nat) := #[]
deriving Inhabited, Repr

namespace CodeSet

def lastPoint : Nat := 0x10ffff

/-- Puts a range behind ranges that start no later, the last one first. -/
def attach (done : List (Nat × Nat)) (r : Nat × Nat) : List (Nat × Nat) :=
  match done with
  | [] => [r]
  | (lo, hi) :: rest =>
    if r.1 ≤ hi + 1 then (lo, max hi r.2) :: rest else r :: (lo, hi) :: rest

/-- The points of ranges in any order. -/
def ofRanges (rs : List (Nat × Nat)) : CodeSet :=
  ⟨(((rs.mergeSort fun a b => a.1 ≤ b.1).foldl attach []).reverse).toArray⟩

def toList (s : CodeSet) : List (Nat × Nat) := s.ranges.toList

def union (a b : CodeSet) : CodeSet := ofRanges (a.toList ++ b.toList)

def all : CodeSet := ⟨#[(0, lastPoint)]⟩

def gaps (next : Nat) : List (Nat × Nat) → List (Nat × Nat)
  | [] => if next ≤ lastPoint then [(next, lastPoint)] else []
  | (lo, hi) :: rest =>
    if next < lo then (next, lo - 1) :: gaps (hi + 1) rest else gaps (hi + 1) rest

/-- All other points. -/
def complement (s : CodeSet) : CodeSet := ⟨(gaps 0 s.toList).toArray⟩

/-- Looks for a point in the ranges from `lo` to before `hi` by halving. -/
def search (rs : Array (Nat × Nat)) (n : Nat) : Nat → Nat → Nat → Bool
  | 0, _, _ => false
  | fuel + 1, lo, hi =>
    if hi ≤ lo then false
    else
      let mid := (lo + hi) / 2
      match rs[mid]? with
      | none => false
      | some (a, b) =>
        if n < a then search rs n fuel lo mid
        else if b < n then search rs n fuel (mid + 1) hi
        else true

def contains (s : CodeSet) (n : Nat) : Bool := search s.ranges n (s.ranges.size + 1) 0 s.ranges.size

/-! ## Tables -/

def hexDigit (c : Char) : Nat := if c.isDigit then c.toNat - 48 else c.toNat - 87

def hexNumber (cs : List Char) : Nat := cs.foldl (fun n c => 16 * n + hexDigit c) 0

/-- A run of points: from the first to the last by a step. -/
structure Run where
  first : Nat
  last : Nat
  step : Nat := 1

def Run.ofWord (word : List Char) : Run :=
  let range := word.takeWhile (· != '/')
  let first := range.takeWhile (· != '-')
  let last := (range.drop first.length).drop 1
  { first := hexNumber first
    last := hexNumber (if last.isEmpty then first else last)
    step := max 1 (hexNumber ((word.drop range.length).drop 1)) }

def Run.ranges (r : Run) : List (Nat × Nat) :=
  if r.step = 1 then [(r.first, r.last)]
  else
    (List.range ((r.last - r.first) / r.step + 1)).map fun k =>
      (r.first + k * r.step, r.first + k * r.step)

/-- The words between blanks and line ends. -/
def words : List Char → List Char → List (List Char)
  | done, [] => if done.isEmpty then [] else [done.reverse]
  | done, c :: cs =>
    if c = ' ' || c = '\n' then
      if done.isEmpty then words [] cs else done.reverse :: words [] cs
    else words (c :: done) cs

/-- The set that a table lists. -/
def ofTable (s : String) : CodeSet :=
  ofRanges ((words [] s.toList).flatMap fun w => (Run.ofWord w).ranges)

end CodeSet

end StackFlow
