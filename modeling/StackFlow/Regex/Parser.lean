import StackFlow.Regex.Automaton
import StackFlow.Regex.Property
import StackFlow.Text.Hex
import StackFlow.Text.LetterCase

/-!
The notation of regular expressions: literals, `.`, classes, properties, groups, alternatives,
repetitions (bounded ones count at most to a thousand, also where they are nested), anchors and the
flags `i`, `m`, `s` and `U`.
-/

namespace StackFlow.Regex

structure Flags where
  /-- Letters match in either case. -/
  fold : Bool := false
  /-- The anchors of a line hold only at the ends of the text. -/
  oneLine : Bool := true
  dotNewline : Bool := false
  greedy : Bool := true

/-! ## Parts of an expression -/

inductive Form where
  | literal | seq | alt | other
deriving DecidableEq

/-- A part of an expression with its measures. -/
structure Piece where
  regex : Regex
  form : Form := .other
  /-- The product of the counts of its nested repetitions. -/
  weight : Nat := 1
  /-- How deep its parts are nested. -/
  height : Nat := 1
  /-- How many states its machine needs, at most. -/
  size : Nat := 1

/-- The most that nested repetitions may count to. -/
def maxCount : Nat := 1000

def maxHeight : Nat := 1000

def maxSize : Nat := 3355443

def Piece.fits (p : Piece) : Bool := p.height ≤ maxHeight && p.size ≤ maxSize

def Piece.empty : Piece := { regex := .empty }

/-- The height under a node of a form, which takes the parts of its own form as its own. -/
def Piece.heightUnder (form : Form) (p : Piece) : Nat :=
  if p.form = form then p.height - 1 else p.height

def tallest (form : Form) (ps : List Piece) : Nat :=
  ps.foldl (fun h p => max h (p.heightUnder form)) 0

/-- Parts in a row, the last one first. -/
def joined : List Piece → Piece
  | [] => .empty
  | [p] => p
  | p :: ps =>
    let parts := p :: ps
    let text := parts.all (·.form = .literal)
    { regex := ps.foldl (fun r q => .seq q.regex r) p.regex
      form := if text then .literal else .seq
      weight := parts.foldl (fun w q => max w q.weight) 1
      height := if text then 1 else tallest .seq parts + 1
      size := parts.foldl (fun n q => n + q.size) 0 }

/-- Alternatives, the last one first. -/
def chosen : List Piece → Piece
  | [] => .empty
  | [p] => p
  | p :: ps =>
    let parts := p :: ps
    let single := parts.all fun q => match q.regex with
      | .chars _ => true
      | _ => false
    { regex := ps.foldl (fun r q => .alt q.regex r) p.regex
      form := if single then .other else .alt
      weight := parts.foldl (fun w q => max w q.weight) 1
      height := if single then 1 else tallest .alt parts + 1
      size := parts.foldl (fun n q => n + q.size) 0 + ps.length }

def Piece.captured (p : Piece) : Piece :=
  { p with form := .other, height := p.height + 1, size := p.size + 2 }

/-! ## Classes of characters -/

def charSet (ranges : List (Char × Char)) : CodeSet :=
  .ofRanges (ranges.map fun (lo, hi) => (lo.toNat, hi.toNat))

def Flags.widen (f : Flags) (set : CodeSet) : CodeSet := if f.fold then LetterCase.close set else set

def digits : CodeSet := charSet [('0', '9')]
def spaces : CodeSet := charSet [('\t', '\n'), ('\x0c', '\r'), (' ', ' ')]
def words : CodeSet := charSet [('0', '9'), ('A', 'Z'), ('_', '_'), ('a', 'z')]

/-- The classes that an escape names; a capital letter means all other characters. -/
def escapedClass? (f : Flags) : Char → Option CodeSet
  | 'd' => some (f.widen digits)
  | 's' => some (f.widen spaces)
  | 'w' => some (f.widen words)
  | 'D' => some (f.widen digits).complement
  | 'S' => some (f.widen spaces).complement
  | 'W' => some (f.widen words).complement
  | _ => none

def namedClasses : List (String × CodeSet) :=
  [("alnum", charSet [('0', '9'), ('A', 'Z'), ('a', 'z')]), ("alpha", charSet [('A', 'Z'), ('a', 'z')]),
    ("ascii", charSet [('\x00', '\x7f')]), ("blank", charSet [('\t', '\t'), (' ', ' ')]),
    ("cntrl", charSet [('\x00', '\x1f'), ('\x7f', '\x7f')]), ("digit", digits),
    ("graph", charSet [('!', '~')]), ("lower", charSet [('a', 'z')]), ("print", charSet [(' ', '~')]),
    ("punct", charSet [('!', '/'), (':', '@'), ('[', '\x60'), ('\x7b', '~')]),
    ("space", charSet [('\t', '\r'), (' ', ' ')]), ("upper", charSet [('A', 'Z')]), ("word", words),
    ("xdigit", charSet [('0', '9'), ('A', 'F'), ('a', 'f')])]

/-- A property behind `\p`, or behind `\P` if it is denied: a letter, or a name in braces, which may
deny it once more. -/
def readProperty (f : Flags) (denied : Bool) (cs : List Char) : Option (CodeSet × List Char) :=
  let (name, rest) : Option (List Char) × List Char := match cs with
    | [] => (none, [])
    | '\x7b' :: cs =>
      let name := cs.takeWhile (· != '\x7d')
      (if name.length < cs.length then some name else none, cs.drop (name.length + 1))
    | c :: cs => (some [c], cs)
  name.bind fun name =>
    let (denied, name) : Bool × List Char := match name with
      | '^' :: name => (!denied, name)
      | name => (denied, name)
    (property? name).map fun set =>
      (if denied then (f.widen set).complement else f.widen set, rest)

/-! ## Escapes -/

def octal? (c : Char) : Option Nat := if '0' ≤ c && c ≤ '7' then some (c.toNat - 48) else none

/-- Up to `n` more octal digits. -/
def readOctal : Nat → Nat → List Char → Nat × List Char
  | 0, value, cs => (value, cs)
  | n + 1, value, c :: cs =>
    match octal? c with
    | some d => readOctal n (8 * value + d) cs
    | none => (value, c :: cs)
  | _ + 1, value, [] => (value, [])

/-- Hexadecimal digits up to a closing brace. -/
def readBraced (value : Nat) (some? : Bool) : List Char → Option (Nat × List Char)
  | [] => none
  | '\x7d' :: cs => if some? then some (value, cs) else none
  | c :: cs => do
    let d ← Hex.digitValue? c
    let value := 16 * value + d
    if value ≤ 0x10ffff then readBraced value true cs else none

/-- The code point behind a backslash. -/
def readEscape : List Char → Option (Nat × List Char)
  | [] => none
  | '0' :: cs => some (readOctal 2 0 cs)
  | 'x' :: '\x7b' :: cs => readBraced 0 false cs
  | 'x' :: a :: b :: cs => do
    let hi ← Hex.digitValue? a
    let lo ← Hex.digitValue? b
    pure (16 * hi + lo, cs)
  | 'a' :: cs => some (7, cs)
  | 'f' :: cs => some (12, cs)
  | 'n' :: cs => some (10, cs)
  | 'r' :: cs => some (13, cs)
  | 't' :: cs => some (9, cs)
  | 'v' :: cs => some (11, cs)
  | c :: cs =>
    if (octal? c).isSome && (cs.head?.bind octal?).isSome then some (readOctal 3 0 (c :: cs))
    else if c.toNat < 128 && !c.isAlphanum then some (c.toNat, cs)
    else none

/-! ## Bracketed classes -/

def classPoint : List Char → Option (Nat × List Char)
  | [] => none
  | '\\' :: cs => readEscape cs
  | c :: cs => some (c.toNat, cs)

/-- A class in its own brackets and colons: none if it is no such class at all. -/
def readNamed (f : Flags) (cs : List Char) : Option (Option CodeSet × List Char) :=
  let rec name : List Char → List Char → Option (List Char × List Char)
    | _, [] => none
    | done, ':' :: ']' :: rest => some (done.reverse, rest)
    | done, c :: rest => name (c :: done) rest
  (name [] cs).map fun (word, rest) =>
    let set : Option CodeSet := match word with
      | '^' :: word => (namedClasses.lookup (String.ofList word)).map fun r => (f.widen r).complement
      | word => (namedClasses.lookup (String.ofList word)).map f.widen
    (set, rest)

/-- One member of a class: a point, or a range of points. -/
def readMember (f : Flags) (cs : List Char) : Option (CodeSet × List Char) := do
  let (lo, cs) ← classPoint cs
  match cs with
  | '-' :: c :: rest =>
    if c = ']' then pure (f.widen (.ofRanges [(lo, lo)]), cs)
    else
      let (hi, rest) ← classPoint (c :: rest)
      if hi < lo then none else pure (f.widen (.ofRanges [(lo, hi)]), rest)
  | _ => pure (f.widen (.ofRanges [(lo, lo)]), cs)

/-- The members of a class up to its closing bracket, which may also come first as a member. -/
def readMembers (f : Flags) (isFirst : Bool) (found : List (Nat × Nat)) :
    Nat → List Char → Option (CodeSet × List Char)
  | 0, _ => none
  | fuel + 1, cs =>
    let next (step : Option (CodeSet × List Char)) : Option (CodeSet × List Char) := do
      let (set, cs) ← step
      readMembers f false (set.toList ++ found) fuel cs
    match cs with
    | ']' :: rest => if isFirst then next (readMember f cs) else some (.ofRanges found, rest)
    | '[' :: ':' :: rest =>
      match readNamed f rest with
      | none => next (readMember f cs)
      | some (set, rest) => next (set.map fun r => (r, rest))
    | '\\' :: 'p' :: rest => next (readProperty f false rest)
    | '\\' :: 'P' :: rest => next (readProperty f true rest)
    | '\\' :: c :: rest =>
      match escapedClass? f c with
      | some set => next (some (set, rest))
      | none => next (readMember f cs)
    | _ => next (readMember f cs)

def readClass (f : Flags) : List Char → Option (CodeSet × List Char)
  | '^' :: rest =>
    (readMembers f true [] (rest.length + 1) rest).map fun (set, cs) => (set.complement, cs)
  | rest => readMembers f true [] (rest.length + 1) rest

/-! ## Repetitions -/

inductive Quantifier where
  | bad
  | times (least : Nat) (most : Option Nat) (counted : Bool)

/-- A decimal without leading zeros. -/
def readCount (cs : List Char) : Option (Nat × List Char) :=
  let ds := cs.takeWhile Char.isDigit
  if ds.isEmpty || (1 < ds.length && ds.head? == some '0') then none
  else some (ds.foldl (fun n c => 10 * n + (c.toNat - 48)) 0, cs.drop ds.length)

def counted (least : Nat) (most : Option Nat) : Quantifier :=
  if maxCount < least || (most.any fun m => maxCount < m || m < least) then .bad
  else .times least most true

/-- A repetition in braces; braces with anything else inside are plain characters. -/
def readBraces (cs : List Char) : Option (Quantifier × List Char) := do
  let (least, cs) ← readCount cs
  match cs with
  | '\x7d' :: cs => pure (counted least (some least), cs)
  | ',' :: '\x7d' :: cs => pure (counted least none, cs)
  | ',' :: cs =>
    let (most, cs) ← readCount cs
    match cs with
    | '\x7d' :: cs => pure (counted least (some most), cs)
    | _ => none
  | _ => none

def readQuantifier : List Char → Option (Quantifier × List Char)
  | '*' :: cs => some (.times 0 none false, cs)
  | '+' :: cs => some (.times 1 none false, cs)
  | '?' :: cs => some (.times 0 (some 1) false, cs)
  | '\x7b' :: cs => readBraces cs
  | _ => none

def power (r : Regex) : Nat → Regex → Regex
  | 0, last => last
  | n + 1, last => .seq r (power r n last)

/-- At most `n` times. -/
def upTo (greedy : Bool) (r : Regex) : Nat → Regex
  | 0 => .empty
  | 1 => option greedy r
  | n + 2 => option greedy (.seq r (upTo greedy r (n + 1)))

def repeated (greedy : Bool) (r : Regex) (least : Nat) : Option Nat → Regex
  | none => if least = 0 then .star greedy r else power r (least - 1) (.plus greedy r)
  | some most =>
    if most ≤ least then (if least = 0 then .empty else power r (least - 1) r)
    else power r least (upTo greedy r (most - least))

def repeatedSize (n least : Nat) : Option Nat → Nat
  | none => if least = 0 then n + 2 else least * n + 1
  | some most => max 1 (most * n + (most - least))

def Piece.times (p : Piece) (greedy : Bool) (least : Nat) (most : Option Nat) : Piece :=
  { regex := repeated greedy p.regex least most
    weight := if most = some 0 then 1 else max 1 (most.getD least) * p.weight
    height := p.height + 1
    size := repeatedSize p.size least most }

/-! ## Groups -/

inductive Opening where
  /-- A group with its own flags; it may be captured, perhaps under a name. -/
  | nest (flags : Flags) (captures : Bool) (name : Option String)
  /-- Flags for the rest of the group around it. -/
  | switch (flags : Flags)

/-- Flags up to a colon or a closing parenthesis; behind a hyphen they are taken back. -/
def readFlags (on seen : Bool) (f : Flags) : List Char → Option (Opening × List Char)
  | 'i' :: cs => readFlags on true { f with fold := on } cs
  | 'm' :: cs => readFlags on true { f with oneLine := !on } cs
  | 's' :: cs => readFlags on true { f with dotNewline := on } cs
  | 'U' :: cs => readFlags on true { f with greedy := !on } cs
  | '-' :: cs => if on then readFlags false false f cs else none
  | ':' :: cs => if on || seen then some (.nest f false none, cs) else none
  | ')' :: cs => if on || seen then some (.switch f, cs) else none
  | _ => none

def readName (f : Flags) (cs : List Char) : Option (Opening × List Char) :=
  let name := cs.takeWhile isWordChar
  match cs.drop name.length with
  | '>' :: rest => if name.isEmpty then none else some (.nest f true (some (String.ofList name)), rest)
  | _ => none

/-- What follows an opening parenthesis. -/
def readOpening (f : Flags) : List Char → Option (Opening × List Char)
  | '?' :: 'P' :: '<' :: cs => readName f cs
  | '?' :: '<' :: cs => readName f cs
  | '?' :: cs => readFlags true false f cs
  | cs => some (.nest f true none, cs)

/-! ## Expressions -/

def one (f : Flags) (n : Nat) : Piece :=
  { regex := .chars (f.widen (.ofRanges [(n, n)])), form := .literal }

def anyChar (f : Flags) : CodeSet :=
  if f.dotNewline then .all else (charSet [('\n', '\n')]).complement

/-- The characters up to the end of a quotation. -/
def readQuotation : List Char → List Char × List Char
  | [] => ([], [])
  | '\\' :: 'E' :: cs => ([], cs)
  | c :: cs => let (quoted, rest) := readQuotation cs; (c :: quoted, rest)

/-- One atom, or the characters of a quotation, the last one first. -/
def readAtoms (f : Flags) : List Char → Option (List Piece × List Char)
  | [] => none
  | '^' :: cs => some ([{ regex := .anchor (if f.oneLine then .textStart else .lineStart) }], cs)
  | '$' :: cs => some ([{ regex := .anchor (if f.oneLine then .textEnd else .lineEnd) }], cs)
  | '.' :: cs => some ([{ regex := .chars (anyChar f) }], cs)
  | '[' :: cs => (readClass f cs).map fun (set, cs) => ([{ regex := .chars set }], cs)
  | '\\' :: 'A' :: cs => some ([{ regex := .anchor .textStart }], cs)
  | '\\' :: 'z' :: cs => some ([{ regex := .anchor .textEnd }], cs)
  | '\\' :: 'b' :: cs => some ([{ regex := .anchor .wordEdge }], cs)
  | '\\' :: 'B' :: cs => some ([{ regex := .anchor .notWordEdge }], cs)
  | '\\' :: 'Q' :: cs =>
    let (quoted, cs) := readQuotation cs
    some ((quoted.map fun c => one f c.toNat).reverse, cs)
  | '\\' :: 'p' :: cs => (readProperty f false cs).map fun (set, cs) => ([{ regex := .chars set }], cs)
  | '\\' :: 'P' :: cs => (readProperty f true cs).map fun (set, cs) => ([{ regex := .chars set }], cs)
  | '\\' :: cs =>
    match cs.head?.bind (escapedClass? f) with
    | some set => some ([{ regex := .chars set }], cs.drop 1)
    | none => (readEscape cs).map fun (n, cs) => ([one f n], cs)
  | c :: cs => some ([one f c.toNat], cs)

/-- The alternatives of a group; the branches and the atoms are given the last one first. -/
def closed (branches : List Piece) (atoms : List Piece) : Option Piece :=
  let p := chosen (joined atoms :: branches)
  if p.fits then some p else none

/-- Reads up to the end of a group. `again` tells that the last atom has just been repeated, which
must not happen twice. -/
def readGroup : Nat → Flags → List String → List Piece → List Piece → Bool → List Char →
    Option (Piece × List String × List Char)
  | 0, _, _, _, _, _, _ => none
  | _ + 1, _, names, branches, atoms, _, [] => (closed branches atoms).map fun p => (p, names, [])
  | fuel + 1, f, names, branches, atoms, again, c :: cs =>
    if c = ')' then (closed branches atoms).map fun p => (p, names, c :: cs)
    else if c = '|' then readGroup fuel f names (joined atoms :: branches) [] false cs
    else if c = '(' then
      match readOpening f cs with
      | none => none
      | some (.switch f', cs) => readGroup fuel f' names branches atoms false cs
      | some (.nest f' captures name, cs) =>
        if name.any names.contains then none
        else
          match readGroup fuel f' (name.toList ++ names) [] [] false cs with
          | some (p, names, ')' :: cs) =>
            let p := if captures then p.captured else p
            if p.fits then readGroup fuel f names branches (p :: atoms) false cs else none
          | _ => none
    else
      match readQuantifier (c :: cs) with
      | some (.times least most counted, rest) =>
        match atoms with
        | [] => none
        | p :: atoms =>
          let (greedy, rest) : Bool × List Char := match rest with
            | '?' :: rest => (!f.greedy, rest)
            | _ => (f.greedy, rest)
          let p := p.times greedy least most
          if again || !p.fits || (counted && maxCount < p.weight) then none
          else readGroup fuel f names branches (p :: atoms) true rest
      | some (.bad, _) => none
      | none =>
        match readAtoms f (c :: cs) with
        | none => none
        | some (ps, rest) => readGroup fuel f names branches (ps ++ atoms) false rest

/-- Reads an expression, if it is one. -/
def parse? (s : String) : Option Regex :=
  let cs := s.toList
  match readGroup (cs.length + 1) {} [] [] [] false cs with
  | some (p, _, []) => some p.regex
  | _ => none

end StackFlow.Regex
