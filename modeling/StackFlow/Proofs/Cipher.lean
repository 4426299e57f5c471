import StackFlow.Cipher.Aead

/-!
A text that XChaCha20-Poly1305 has sealed opens with the same key. The key stream is added a second
time, block by block, and the tag is that of the same bytes.
-/

namespace StackFlow

/-! ## The key stream -/

namespace ChaCha20

variable {key nonce text stream : Bytes} {n : Nat}

theorem size_quarter (a b c d : Nat) (s : State) : (quarter a b c d s).size = s.size := by
  simp [quarter]

theorem size_doubleRound (s : State) : (doubleRound s).size = s.size := by
  simp only [doubleRound, size_quarter]

theorem size_rounds (n : Nat) (s : State) : (rounds n s).size = s.size := by
  induction n generalizing s with
  | zero => rfl
  | succ n ih => rw [rounds, ih, size_doubleRound]

theorem length_words (n : Nat) (bytes : Bytes) : (words n bytes).length = n := by
  induction n generalizing bytes with
  | zero => rfl
  | succ n ih => rw [words, List.length_cons, ih]

theorem length_flatMap_bytesOf (ws : List UInt32) : (ws.flatMap bytesOf).length = 4 * ws.length := by
  induction ws with
  | nil => rfl
  | cons w ws ih =>
    rw [List.flatMap_cons, List.length_append, ih, List.length_cons, Nat.mul_succ, Nat.add_comm]
    rfl

theorem length_block (key nonce : Bytes) (counter : UInt32) : (block key nonce counter).length = 64 := by
  rw [block, length_flatMap_bytesOf]
  simp [size_rounds, constants, length_words]

theorem xor_cancel (long : text.length ≤ stream.length) :
    (text.zipWith (· ^^^ ·) stream).zipWith (· ^^^ ·) stream = text := by
  induction text generalizing stream with
  | nil => rfl
  | cons b text ih =>
    cases stream with
    | nil => simp at long
    | cons w stream =>
      rw [List.zipWith_cons_cons, List.zipWith_cons_cons, ih (by simpa using long), UInt8.xor_assoc,
        UInt8.xor_self, UInt8.xor_zero]

theorem xorStream_nil (key nonce : Bytes) (n : Nat) (counter : UInt32) :
    xorStream key nonce n counter [] = [] := by
  induction n generalizing counter with
  | zero => rfl
  | succ n ih => rw [xorStream, List.drop_nil, ih]; rfl

theorem length_xorStream (counter : UInt32) (enough : text.length ≤ 64 * n) :
    (xorStream key nonce n counter text).length = text.length := by
  induction n generalizing counter text with
  | zero => exact (Nat.le_zero.mp enough).symm
  | succ n ih =>
    have behind : (text.drop 64).length ≤ 64 * n := by rw [List.length_drop]; omega
    rw [xorStream, List.length_append, ih _ behind, List.length_zipWith, length_block,
      List.length_take, List.length_drop]
    omega

theorem xorStream_cancel (counter : UInt32) (enough : text.length ≤ 64 * n) :
    xorStream key nonce n counter (xorStream key nonce n counter text) = text := by
  induction n generalizing counter text with
  | zero =>
    rw [List.length_eq_zero_iff.mp (Nat.le_zero.mp enough)]
    rfl
  | succ n ih =>
    have behind : (text.drop 64).length ≤ 64 * n := by rw [List.length_drop]; omega
    have first : (text.take 64).length ≤ (block key nonce counter).length := by
      rw [List.length_take, length_block]; omega
    have done := xor_cancel first
    rw [xorStream, xorStream]
    generalize split : (text.take 64).zipWith (· ^^^ ·) (block key nonce counter) = mixed at done
    have same : mixed.length = (text.take 64).length := by
      rw [← split, List.length_zipWith, Nat.min_eq_left first]
    by_cases full : 64 ≤ text.length
    · have whole : mixed.length = 64 := by rw [same, List.length_take, Nat.min_eq_left full]
      rw [List.take_left' whole, List.drop_left' whole, done, ih _ behind, List.take_append_drop]
    · -- a last block that is not full has nothing behind it
      have last : text.drop 64 = [] := List.drop_eq_nil_of_le (by omega)
      have short : mixed.length ≤ 64 := by rw [same, List.length_take]; omega
      rw [last, xorStream_nil, List.append_nil, List.take_of_length_le short,
        List.drop_eq_nil_of_le short, xorStream_nil, List.append_nil, done,
        List.take_of_length_le (by omega)]

theorem enough_blocks (text : Bytes) : text.length ≤ 64 * (text.length / 64 + 1) := by omega

theorem length_apply (key nonce : Bytes) (counter : UInt32) (text : Bytes) :
    (apply key nonce counter text).length = text.length :=
  length_xorStream counter (enough_blocks text)

theorem apply_apply (key nonce : Bytes) (counter : UInt32) (text : Bytes) :
    apply key nonce counter (apply key nonce counter text) = text := by
  rw [apply, length_apply]
  exact xorStream_cancel counter (enough_blocks text)

end ChaCha20

theorem Poly1305.length_bytesOf (n v : Nat) : (Poly1305.bytesOf n v).length = n := by
  induction n generalizing v with
  | zero => rfl
  | succ n ih => rw [Poly1305.bytesOf, List.length_cons, ih]

/-! ## Sealed texts -/

namespace XChaCha

theorem length_tagOf (macKey body : Bytes) : (tagOf macKey body).length = 16 :=
  Poly1305.length_bytesOf 16 _

/-- What the key stream leaves of a text. -/
def covered (key nonce plain : Bytes) : Bytes :=
  ChaCha20.apply (derive key nonce).1 (derive key nonce).2.1 1 plain

def tagUnder (key nonce body : Bytes) : Bytes := tagOf (derive key nonce).2.2 body

variable {nonce : Bytes}

theorem encrypt_eq (key nonce plain : Bytes) : encrypt key nonce plain =
    nonce ++ (covered key nonce plain ++ tagUnder key nonce (covered key nonce plain)) := by
  simp only [encrypt, covered, tagUnder, List.append_assoc]

/-- A key opens a sealed text exactly if it gives the same tag. -/
theorem decrypt?_sealed (long : nonce.length = 24) (other key plain : Bytes) :
    decrypt? other (encrypt key nonce plain) =
      if tagUnder other nonce (covered key nonce plain) = tagUnder key nonce (covered key nonce plain)
      then some (covered other nonce (covered key nonce plain)) else none := by
  rw [encrypt_eq]
  generalize covered key nonce plain = body
  have tag : (tagUnder key nonce body).length = 16 := length_tagOf _ body
  have whole : ¬ nonce.length + (body.length + 16) < 24 + 16 := by omega
  simp only [decrypt?, List.length_append, tag, if_neg whole, List.take_left' long,
    List.drop_left' long, Nat.add_sub_cancel, List.take_left, List.drop_left, beq_iff_eq]
  rfl

theorem decrypt?_encrypt (long : nonce.length = 24) (key plain : Bytes) :
    decrypt? key (encrypt key nonce plain) = some plain := by
  rw [decrypt?_sealed long, if_pos rfl, covered, covered, ChaCha20.apply_apply]

end XChaCha

end StackFlow
