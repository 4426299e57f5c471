import StackFlow.Text.Hex
import StackFlow.Yaml.Source

/-!
Scalars that run over several lines: plain ones, quoted ones, and the literal and folded blocks. Texts
are collected in reverse.
-/

namespace StackFlow.Yaml

/-- What stands between two words of a scalar: blanks, or a line end with those of empty lines behind
it. An escaped line end has no first one. -/
inductive Gap where
  | blanks (reversed : List Char)
  | lines (first : Option Char) (reversed : List Char)

namespace Gap

def none : Gap := .blanks []

def isNone : Gap → Bool
  | .blanks bs => bs.isEmpty
  | .lines _ _ => false

def isLines : Gap → Bool
  | .blanks _ => false
  | .lines _ _ => true

/-- Blanks before a line end and at the start of a line do not count. -/
def add (c : Char) : Gap → Gap
  | .blanks bs => if isBreak c then .lines (some c) [] else .blanks (c :: bs)
  | .lines first more => if isBreak c then .lines first (c :: more) else .lines first more

/-- A single line end is a blank, and of several the first is left out. -/
def folded : Gap → List Char
  | .blanks bs => bs
  | .lines (some '\n') [] => [' ']
  | .lines (some '\n') more => more
  | .lines (some c) more => more ++ [c]
  | .lines Option.none more => more

end Gap

/-! ## Plain scalars -/

def isFlowMark (c : Char) : Bool :=
  c == ',' || c == '?' || c == '[' || c == ']' || c == '\x7b' || c == '\x7d'

/-- A plain scalar, and whether a line ended behind its last word. It ends before a colon with a gap
behind it, a comment, a mark of a flow collection, and a line that is not indented enough. A tab must
not stand in the indentation. -/
def plainText (flow : Bool) (indent : Nat) :
    List Char → Gap → Nat → Nat → List Char → Option (List Char × Bool × Cursor)
  | done, gap, line, col, [] => some (done, gap.isLines, ⟨line, col, []⟩)
  | done, gap, line, col, c :: cs =>
    let here : Cursor := ⟨line, col, c :: cs⟩
    if isBreak c then plainText flow indent done (gap.add c) (line + 1) 0 cs
    else if isBlank c then
      if gap.isLines && col < indent && c == '\t' then none
      else plainText flow indent done (gap.add c) line (col + 1) cs
    else if !gap.isNone && (c == '#' || here.isDocumentMark || (!flow && col < indent)) then
      some (done, gap.isLines, here)
    else if (c == ':' && isGap cs) || (flow && isFlowMark c) then some (done, gap.isLines, here)
    else plainText flow indent (c :: (gap.folded ++ done)) Gap.none line (col + 1) cs

/-! ## Quoted scalars -/

/-- What an escape stands for; the letters that take digits are handled apart. -/
def escapes : List (Char × Nat) :=
  [('0', 0), ('a', 7), ('b', 8), ('t', 9), ('\t', 9), ('n', 10), ('v', 11), ('f', 12), ('r', 13),
    ('e', 27), (' ', 32), ('"', 34), ('\'', 39), ('/', 47), ('\\', 92), ('N', 0x85), ('_', 0xa0),
    ('L', 0x2028), ('P', 0x2029)]

def hexSize? : Char → Option Nat
  | 'x' => some 2
  | 'u' => some 4
  | 'U' => some 8
  | _ => none

/-- The character with a number in hexadecimal. -/
def readHex? (size : Nat) (cs : List Char) : Option Char := do
  if cs.length < size then none
  let n ← (cs.take size).foldlM (fun n c => (Hex.digitValue? c).map fun d => 16 * n + d) 0
  if (0xd800 ≤ n && n ≤ 0xdfff) || 0x10ffff < n then none else pure (Char.ofNat n)

/-- The character that an escape stands for, and the rest of the text. -/
def escape? (e : Char) (cs : List Char) : Option (Char × Nat) :=
  match escapes.lookup e with
  | some n => some (Char.ofNat n, 0)
  | none => do
    let size ← hexSize? e
    pure (← readHex? size cs, size)

/-- Reads up to the closing quote and passes it. No document mark may stand inside. -/
def quotedText (double : Bool) (done : List Char) (gap : Gap) (line col : Nat) (cs : List Char) :
    Option (List Char × Cursor) :=
  match cs with
  | [] => none
  | c :: cs =>
    let quote := if double then '"' else '\''
    if isBreak c then quotedText double done (gap.add c) (line + 1) 0 cs
    else if isBlank c then quotedText double done (gap.add c) line (col + 1) cs
    else if (⟨line, col, c :: cs⟩ : Cursor).isDocumentMark then none
    else
      let done := gap.folded ++ done
      if c == quote then
        match cs with
        | '\'' :: rest =>
          if double then some (done, ⟨line, col + 1, cs⟩)
          else quotedText double ('\'' :: done) Gap.none line (col + 2) rest
        | _ => some (done, ⟨line, col + 1, cs⟩)
      else if double && c == '\\' then
        match cs with
        | [] => none
        | e :: rest =>
          if isBreak e then quotedText double done (.lines none []) (line + 1) 0 rest
          else
            match escape? e rest with
            | some (x, size) =>
              quotedText double (x :: done) Gap.none line (col + 2 + size) (rest.drop size)
            | none => none
      else quotedText double (c :: done) Gap.none line (col + 1) cs
termination_by cs.length
decreasing_by
  all_goals
    simp only [List.length_cons, List.length_drop]
    omega

/-! ## Literal and folded blocks -/

/-- How a block ends: without line end, with one, or with all there are. -/
inductive Chomp where
  | strip | clip | keep
deriving DecidableEq

structure BlockHeader where
  indent : Option Nat := none
  chomp : Chomp := .clip

def chomp? : Char → Option Chomp
  | '+' => some .keep
  | '-' => some .strip
  | _ => none

/-- The sign and the digit of a header, in either order; the digit is not zero. -/
def blockHeader? : List Char → Option (BlockHeader × Nat)
  | c :: d :: _ =>
    match chomp? c, chomp? d with
    | some chomp, _ =>
      if !d.isDigit then some ({ chomp }, 1)
      else if d == '0' then none
      else some ({ chomp, indent := some (d.toNat - 48) }, 2)
    | none, sign =>
      if !c.isDigit then some ({}, 0)
      else if c == '0' then none
      else some ({ indent := some (c.toNat - 48), chomp := sign.getD .clip }, if sign.isSome then 2 else 1)
  | [c] =>
    match chomp? c with
    | some chomp => some ({ chomp }, 1)
    | none =>
      if !c.isDigit then some ({}, 0)
      else if c == '0' then none
      else some ({ indent := some (c.toNat - 48) }, 1)
  | [] => some ({}, 0)

/-- The deepest indentation up to the first line that holds something; a tab must not stand in it. -/
def deepest (most col : Nat) : List Char → Option Nat
  | [] => some (max most col)
  | c :: cs =>
    if c == ' ' then deepest most (col + 1) cs
    else if c == '\t' then none
    else if isBreak c then deepest (max most col) 0 cs
    else some (max most col)

/-- A block as far as it is read. -/
structure BlockText where
  text : List Char := []
  /-- The end of the last line. -/
  ending : List Char := []
  /-- The ends of the empty lines behind it. -/
  empty : List Char := []
  /-- Whether the last line starts with a blank. -/
  spaced : Bool := false

/-- Starts a line that holds something. In a folded block a line end between two lines is a blank,
and with empty lines between them it is left out; next to a line that starts with a blank it stays. -/
def BlockText.startLine (b : BlockText) (literal : Bool) (c : Char) : BlockText :=
  let join := if !literal && !b.spaced && !isBlank c && b.ending == ['\n'] then
      (if b.empty.isEmpty then [' '] else [])
    else b.ending
  { text := c :: (b.empty ++ (join ++ b.text)), spaced := isBlank c }

def blockText (literal : Bool) (indent : Nat) :
    BlockText → (inside : Bool) → Nat → Nat → List Char → Option (BlockText × Cursor)
  | b, _, line, col, [] => some (b, ⟨line, col, []⟩)
  | b, true, line, col, c :: cs =>
    if isBreak c then blockText literal indent { b with ending := [c] } false (line + 1) 0 cs
    else blockText literal indent { b with text := c :: b.text } true line (col + 1) cs
  | b, false, line, col, c :: cs =>
    if isBreak c then blockText literal indent { b with empty := c :: b.empty } false (line + 1) 0 cs
    else if indent ≤ col then
      blockText literal indent (b.startLine literal c) true line (col + 1) cs
    else if c == ' ' then blockText literal indent b false line (col + 1) cs
    else if c == '\t' then none
    else some (b, ⟨line, col, c :: cs⟩)

def BlockText.chomped (b : BlockText) : Chomp → List Char
  | .strip => b.text
  | .clip => b.ending ++ b.text
  | .keep => b.empty ++ (b.ending ++ b.text)

/-- A block behind its mark, where the collection around it has an indentation. -/
def block (literal : Bool) (parent : Int) (c : Cursor) : Option (List Char × Cursor) := do
  let (h, size) ← blockHeader? c.rest
  let c := (c.advance size).skip isBlank
  let c := if c.rest.head? == some '#' then c.toLineEnd else c
  if !(c.rest.head?.all isBreak) then none
  let c := c.passBreak
  let indent ← match h.indent with
    | some n => some ((max parent 0).toNat + n)
    | none => (deepest 0 c.col c.rest).map fun n => max n (max (parent + 1).toNat 1)
  let (b, c) ← blockText literal indent {} false c.line c.col c.rest
  pure (b.chomped h.chomp, c)

end StackFlow.Yaml
