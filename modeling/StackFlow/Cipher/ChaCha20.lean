/-!
The ChaCha20 block function on sixteen 32-bit words, its key stream, and the derivation of a subkey
from the first half of a long nonce.
-/

namespace StackFlow.ChaCha20

abbrev Bytes := List UInt8

def rotateLeft (w : UInt32) (n : UInt32) : UInt32 := (w <<< n) ||| (w >>> (32 - n))

def wordOf (bytes : Bytes) : UInt32 := bytes.foldr (fun b w => (w <<< 8) ||| b.toUInt32) 0

/-- The first `n` little-endian words of a byte list. -/
def words : (n : Nat) → Bytes → List UInt32
  | 0, _ => []
  | n + 1, bytes => wordOf (bytes.take 4) :: words n (bytes.drop 4)

def bytesOf (w : UInt32) : Bytes :=
  [w.toUInt8, (w >>> 8).toUInt8, (w >>> 16).toUInt8, (w >>> 24).toUInt8]

abbrev State := Array UInt32

def quarter (a b c d : Nat) (s : State) : State :=
  let word (s : State) (i : Nat) : UInt32 := s.getD i 0
  let mix (x y z : Nat) (n : UInt32) (s : State) : State :=
    let sum := word s x + word s y
    (s.setIfInBounds x sum).setIfInBounds z (rotateLeft (word s z ^^^ sum) n)
  mix c d b 7 (mix a b d 8 (mix c d b 12 (mix a b d 16 s)))

/-- Four columns, then four diagonals. -/
def doubleRound (s : State) : State :=
  let s := quarter 3 7 11 15 (quarter 2 6 10 14 (quarter 1 5 9 13 (quarter 0 4 8 12 s)))
  quarter 3 4 9 14 (quarter 2 7 8 13 (quarter 1 6 11 12 (quarter 0 5 10 15 s)))

def rounds : (n : Nat) → State → State
  | 0, s => s
  | n + 1, s => rounds n (doubleRound s)

/-- "expand 32-byte k" -/
def constants : List UInt32 := [0x61707865, 0x3320646e, 0x79622d32, 0x6b206574]

/-- One block of the key stream. -/
def block (key nonce : Bytes) (counter : UInt32) : Bytes :=
  let start := (constants ++ words 8 key ++ counter :: words 3 nonce).toArray
  let mixed := rounds 10 start
  (mixed.zipWith (· + ·) start).toList.flatMap bytesOf

/-- Adds the key stream from block `counter` on; `n` bounds the number of blocks. -/
def xorStream (key nonce : Bytes) : (n : Nat) → (counter : UInt32) → Bytes → Bytes
  | 0, _, _ => []
  | n + 1, counter, text =>
    (text.take 64).zipWith (· ^^^ ·) (block key nonce counter)
      ++ xorStream key nonce n (counter + 1) (text.drop 64)

def apply (key nonce : Bytes) (counter : UInt32) (text : Bytes) : Bytes :=
  xorStream key nonce (text.length / 64 + 1) counter text

/-- The subkey for a sixteen-byte nonce. -/
def subkey (key nonce : Bytes) : Bytes :=
  let mixed := rounds 10 (constants ++ words 8 key ++ words 4 nonce).toArray
  (mixed.toList.take 4 ++ mixed.toList.drop 12).flatMap bytesOf

end StackFlow.ChaCha20
