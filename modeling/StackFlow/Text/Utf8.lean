/-!
Bytes as text in UTF-8. Bytes that spell no character stay strays; in a text each of them becomes the
replacement character.
-/

namespace StackFlow.Utf8

inductive Piece where
  | char (c : Char)
  | stray (b : Nat)
deriving DecidableEq

/-- The number of bytes of a character, and the least and the greatest second byte, by the first
byte. The bounds shut out surrogates, longer spellings than need be, and what lies beyond Unicode. -/
def shape? (first : Nat) : Option (Nat × Nat × Nat) :=
  if 0xc2 ≤ first && first ≤ 0xdf then some (2, 0x80, 0xbf)
  else if first = 0xe0 then some (3, 0xa0, 0xbf)
  else if first = 0xed then some (3, 0x80, 0x9f)
  else if 0xe1 ≤ first && first ≤ 0xef then some (3, 0x80, 0xbf)
  else if first = 0xf0 then some (4, 0x90, 0xbf)
  else if first = 0xf4 then some (4, 0x80, 0x8f)
  else if 0xf1 ≤ first && first ≤ 0xf3 then some (4, 0x80, 0xbf)
  else none

def isFurther (n : Nat) : Bool := 0x80 ≤ n && n ≤ 0xbf

/-- A character of several bytes, if they spell one, and how many of them follow the first. -/
def several? (first : Nat) (rest : List Nat) : Option (Nat × Nat) :=
  match shape? first, rest with
  | some (2, low, high), b :: _ =>
    if low ≤ b && b ≤ high then some ((first % 0x20) * 0x40 + b % 0x40, 1) else none
  | some (3, low, high), b :: c :: _ =>
    if low ≤ b && b ≤ high && isFurther c then
      some (((first % 0x10) * 0x40 + b % 0x40) * 0x40 + c % 0x40, 2)
    else none
  | some (4, low, high), b :: c :: d :: _ =>
    if low ≤ b && b ≤ high && isFurther c && isFurther d then
      some ((((first % 0x08) * 0x40 + b % 0x40) * 0x40 + c % 0x40) * 0x40 + d % 0x40, 3)
    else none
  | _, _ => none

/-- The pieces of a list of bytes, in reverse behind those that are done. -/
def piecesOnto (done : List Piece) (bytes : List Nat) : List Piece :=
  match bytes with
  | [] => done
  | b :: rest =>
    if b < 0x80 then piecesOnto (.char (Char.ofNat b) :: done) rest
    else
      match several? b rest with
      | some (n, further) => piecesOnto (.char (Char.ofNat n) :: done) (rest.drop further)
      | none => piecesOnto (.stray b :: done) rest
termination_by bytes.length
decreasing_by
  all_goals
    simp only [List.length_cons, List.length_drop]
    omega

def pieces (bytes : List UInt8) : List Piece := (piecesOnto [] (bytes.map UInt8.toNat)).reverse

def ofText (s : String) : List Piece := s.toList.map .char

/-- What a piece becomes in a text. -/
def Piece.shown : Piece → Char
  | .char c => c
  | .stray _ => Char.ofNat 0xfffd

def decode (bytes : List UInt8) : String := String.ofList ((pieces bytes).map Piece.shown)

end StackFlow.Utf8
