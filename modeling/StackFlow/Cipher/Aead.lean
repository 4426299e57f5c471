import StackFlow.Cipher.ChaCha20
import StackFlow.Cipher.Poly1305

/-!
Authenticated encryption with a key, a nonce and no associated data.
-/

namespace StackFlow

abbrev Bytes := List UInt8

/-- A way to seal texts. A sealed text starts with its nonce. -/
structure Aead where
  keySize : Nat
  nonceSize : Nat
  encrypt : (key nonce plain : Bytes) → Bytes
  /-- The plain text, if the sealed text was made with the key and has not been changed. -/
  decrypt? : (key sealed : Bytes) → Option Bytes

namespace XChaCha

/-- The key, the short nonce and the key of the authenticator for a long nonce. -/
def derive (key nonce : Bytes) : Bytes × Bytes × Bytes :=
  let sub := ChaCha20.subkey key (nonce.take 16)
  let short := [0, 0, 0, 0] ++ nonce.drop 16
  (sub, short, (ChaCha20.block sub short 0).take 32)

/-- The tag of a ciphertext: the text up to a full block, and the two lengths. -/
def tagOf (macKey body : Bytes) : Bytes :=
  let filled := body ++ List.replicate ((16 - body.length % 16) % 16) 0
  Poly1305.tag macKey (filled ++ Poly1305.bytesOf 8 0 ++ Poly1305.bytesOf 8 body.length)

def encrypt (key nonce plain : Bytes) : Bytes :=
  let (sub, short, macKey) := derive key nonce
  let body := ChaCha20.apply sub short 1 plain
  nonce ++ body ++ tagOf macKey body

def decrypt? (key sealed : Bytes) : Option Bytes :=
  if sealed.length < 24 + 16 then none
  else
    let nonce := sealed.take 24
    let rest := sealed.drop 24
    let body := rest.take (rest.length - 16)
    let (sub, short, macKey) := derive key nonce
    if tagOf macKey body == rest.drop (rest.length - 16) then some (ChaCha20.apply sub short 1 body)
    else none

end XChaCha

/-- XChaCha20-Poly1305. -/
def Aead.xchacha : Aead :=
  { keySize := 32, nonceSize := 24, encrypt := XChaCha.encrypt, decrypt? := XChaCha.decrypt? }

end StackFlow
