/-!
SHA3-256: the Keccak permutation on twenty-five 64-bit lanes, with a rate of 136 bytes.
-/

namespace StackFlow.Sha3

/-- Lane `(x, y)` has index `x + 5 * y`. -/
abbrev Lanes := Array UInt64

def lane (a : Lanes) (x y : Nat) : UInt64 := a.getD (x + 5 * y) 0

def rotateLeft (w : UInt64) (n : Nat) : UInt64 :=
  if n = 0 then w else (w <<< UInt64.ofNat n) ||| (w >>> UInt64.ofNat (64 - n))

def ofLanes (f : Nat → Nat → UInt64) : Lanes :=
  Array.ofFn fun i : Fin 25 => f (i.val % 5) (i.val / 5)

/-- Adds to every lane the parities of two neighbouring columns. -/
def theta (a : Lanes) : Lanes :=
  let parity : Lanes := Array.ofFn fun x : Fin 5 =>
    lane a x 0 ^^^ lane a x 1 ^^^ lane a x 2 ^^^ lane a x 3 ^^^ lane a x 4
  ofLanes fun x y =>
    lane a x y ^^^ parity.getD ((x + 4) % 5) 0 ^^^ rotateLeft (parity.getD ((x + 1) % 5) 0) 1

def offsets : Array Nat := #[
  0, 1, 62, 28, 27, 36, 44, 6, 55, 20, 3, 10, 43, 25, 39, 41, 45, 15, 21, 8, 18, 2, 61, 56, 14]

/-- Rotates every lane by its offset and moves it to its new place. -/
def rhoPi (a : Lanes) : Lanes :=
  ofLanes fun x y =>
    let sx := (x + 3 * y) % 5
    rotateLeft (lane a sx x) (offsets.getD (sx + 5 * x) 0)

def chi (a : Lanes) : Lanes :=
  ofLanes fun x y => lane a x y ^^^ (~~~ lane a ((x + 1) % 5) y &&& lane a ((x + 2) % 5) y)

def roundConstants : List UInt64 := [
  0x0000000000000001, 0x0000000000008082, 0x800000000000808a, 0x8000000080008000,
  0x000000000000808b, 0x0000000080000001, 0x8000000080008081, 0x8000000000008009,
  0x000000000000008a, 0x0000000000000088, 0x0000000080008009, 0x000000008000000a,
  0x000000008000808b, 0x800000000000008b, 0x8000000000008089, 0x8000000000008003,
  0x8000000000008002, 0x8000000000000080, 0x000000000000800a, 0x800000008000000a,
  0x8000000080008081, 0x8000000000008080, 0x0000000080000001, 0x8000000080008008]

def round (a : Lanes) (c : UInt64) : Lanes :=
  (chi (rhoPi (theta a))).modify 0 (· ^^^ c)

def permute (a : Lanes) : Lanes := roundConstants.foldl round a

/-- The number of bytes taken in between two permutations. -/
def rate : Nat := 136

/-- The domain mark, zeros up to a full block, and the closing bit. -/
def pad (message : List UInt8) : List UInt8 :=
  let room := rate - message.length % rate
  if room = 1 then message ++ [0x86]
  else message ++ 0x06 :: List.replicate (room - 2) 0 ++ [0x80]

def word (bytes : List UInt8) : UInt64 :=
  bytes.foldr (fun b w => (w <<< 8) ||| b.toUInt64) 0

/-- The first `n` words of a byte list, eight bytes each. -/
def words : (n : Nat) → List UInt8 → List UInt64
  | 0, _ => []
  | n + 1, bytes => word (bytes.take 8) :: words n (bytes.drop 8)

def absorb (a : Lanes) (block : List UInt8) : Lanes :=
  let ws := (words 17 block).toArray
  permute (a.mapIdx fun i w => w ^^^ ws.getD i 0)

/-- Cuts a padded message into `n` blocks and takes them in. -/
def absorbAll : (n : Nat) → Lanes → List UInt8 → Lanes
  | 0, a, _ => a
  | n + 1, a, bytes => absorbAll n (absorb a (bytes.take rate)) (bytes.drop rate)

def wordBytes (w : UInt64) : List UInt8 :=
  (List.range 8).map fun i => (w >>> UInt64.ofNat (8 * i)).toUInt8

def sum256 (message : List UInt8) : List UInt8 :=
  let padded := pad message
  let a := absorbAll (padded.length / rate) (Array.replicate 25 0) padded
  (a.toList.take 4).flatMap wordBytes

end StackFlow.Sha3
