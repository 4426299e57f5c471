import StackFlow.Cipher.Aead
import StackFlow.Report.Decode
import StackFlow.Store.Error
import StackFlow.Text.Base64
import StackFlow.Text.Utf8

/-!
Sealed reports. An envelope shows the ID and the time of a report, and holds all of it as
ciphertext. New envelopes are made with the active key; old ones open with any key of the ring.
-/

namespace StackFlow

structure Keyring where
  aead : Aead := Aead.xchacha
  active : Bytes
  fallbacks : List Bytes := []

structure KeySizeError where
  wanted : Nat
  got : Nat

def KeySizeError.message (e : KeySizeError) : String :=
  "encryption key must be " ++ Decimal.natText e.wanted ++ " bytes, got " ++ Decimal.natText e.got

def bytesOfText (s : String) : Bytes := s.toUTF8.data.toList

namespace Keyring

/-- The keys in the order in which they are tried. -/
def keys (k : Keyring) : List Bytes := k.active :: k.fallbacks

def make (active : Bytes) (fallbacks : List Bytes) : Except KeySizeError Keyring :=
  match (active :: fallbacks).find? (·.length != Aead.xchacha.keySize) with
  | some key => .error ⟨Aead.xchacha.keySize, key.length⟩
  | none => .ok { active, fallbacks }

/-- The nonce with a number. -/
def nonce (k : Keyring) (n : Nat) : Bytes := Poly1305.bytesOf k.aead.nonceSize n

def envelope (k : Keyring) (n : Nat) (r : Report) : Report :=
  { id := r.id
    createdAt := r.createdAt
    sealed := Base64.encode (k.aead.encrypt k.active (k.nonce n) (bytesOfText r.render)) }

/-- The report in an envelope that was found under an ID. -/
def unwrap (k : Keyring) (id : String) (e : Report) : Except StoreError Report :=
  if e.sealed.isEmpty then .error (.notSealed id)
  else
    match Base64.decode? e.sealed with
    | none => .error .badCiphertext
    | some bytes =>
      match k.keys.findSome? fun key => k.aead.decrypt? key bytes with
      | none => .error (.noKeyFits id)
      | some plain =>
        match Report.parse? (Utf8.decode plain) with
        | none => .error .badPlaintext
        | some r => .ok r

end Keyring

end StackFlow
