/-!
The Poly1305 authenticator: a polynomial in a secret point modulo 2^130 - 5, masked by a secret.
-/

namespace StackFlow.Poly1305

abbrev Bytes := List UInt8

def prime : Nat := Nat.pow 2 130 - 5

def littleEndian (bytes : Bytes) : Nat := bytes.foldr (fun b n => n * 256 + b.toNat) 0

/-- The first `n` little-endian bytes of a number. -/
def bytesOf : (n : Nat) → Nat → Bytes
  | 0, _ => []
  | n + 1, v => UInt8.ofNat v :: bytesOf n (v / 256)

/-- Only some bits of the secret point are used. -/
def clamp (r : Nat) : Nat := r &&& 0x0ffffffc0ffffffc0ffffffc0fffffff

/-- The polynomial over blocks of sixteen bytes, each closed by a one; `n` bounds their number. -/
def evaluate (r : Nat) : (n : Nat) → (acc : Nat) → Bytes → Nat
  | 0, acc, _ => acc
  | _ + 1, acc, [] => acc
  | n + 1, acc, b :: bs =>
    let block := (b :: bs).take 16
    evaluate r n ((acc + littleEndian (block ++ [1])) * r % prime) ((b :: bs).drop 16)

def tag (key message : Bytes) : Bytes :=
  let r := clamp (littleEndian (key.take 16))
  let s := littleEndian ((key.drop 16).take 16)
  bytesOf 16 (evaluate r (message.length / 16 + 1) 0 message + s)

end StackFlow.Poly1305
