import StackFlow.Store.Sealing

/-!
Bytes and texts. The Base64 text of bytes is read back as the bytes, and the bytes of a text in UTF-8
as the text.
-/

namespace StackFlow

/-! ## Base64 -/

namespace Base64

theorem value?_letter (n : Nat) : value? (letter n) = some (n % 64) := by
  have all : ∀ n < 64, value? (letter n) = some n := by decide +kernel
  have same : letter n = letter (n % 64) := by rw [letter, letter, Nat.mod_mod]
  rw [same]
  exact all (n % 64) (Nat.mod_lt n (by decide))

theorem letter_apart {c : Char} (other : value? c = none) (n : Nat) : letter n ≠ c := by
  intro same
  rw [← same, value?_letter] at other
  cases other

theorem letter_plain (n : Nat) : letter n ≠ '=' ∧ letter n ≠ '\n' ∧ letter n ≠ '\r' :=
  have others : value? '=' = none ∧ value? '\n' = none ∧ value? '\r' = none := by decide +kernel
  ⟨letter_apart others.1 n, letter_apart others.2.1 n, letter_apart others.2.2 n⟩

theorem encodeChars_lines (bytes : List UInt8) : ∀ c ∈ encodeChars bytes, c ≠ '\n' ∧ c ≠ '\r' := by
  induction bytes using encodeChars.induct with
  | case1 => simp [encodeChars]
  | case2 a => simp [encodeChars, letter_plain]
  | case3 a b => simp [encodeChars, letter_plain]
  | case4 a b c rest ih =>
    simp only [encodeChars, List.forall_mem_cons]
    exact ⟨(letter_plain _).2, (letter_plain _).2, (letter_plain _).2, (letter_plain _).2, ih⟩

theorem byte_eq {n : Nat} {b : UInt8} (same : n % 256 = b.toNat) : UInt8.ofNat n = b := by
  rw [← UInt8.toNat_inj, UInt8.toNat_ofNat', same]

theorem decodeChars?_group {a b c d : Char} {w x y z : Nat} {rest : List Char} {bytes : List UInt8}
    (plain : d ≠ '=') (first : value? a = some w) (second : value? b = some x)
    (third : value? c = some y) (fourth : value? d = some z)
    (behind : decodeChars? rest = some bytes) :
    decodeChars? (a :: b :: c :: d :: rest) =
      some (UInt8.ofNat ((((w * 64 + x) * 64 + y) * 64 + z) / 65536) ::
        UInt8.ofNat ((((w * 64 + x) * 64 + y) * 64 + z) / 256) ::
        UInt8.ofNat (((w * 64 + x) * 64 + y) * 64 + z) :: bytes) := by
  rw [decodeChars?.eq_def]
  split
  · rename_i empty
    exact absurd empty (List.cons_ne_nil _ _)
  · rename_i same
    simp only [List.cons.injEq] at same
    exact absurd same.2.2.2.1 plain
  · rename_i same
    simp only [List.cons.injEq] at same
    exact absurd same.2.2.2.1 plain
  · rename_i same
    simp only [List.cons.injEq] at same
    obtain ⟨rfl, rfl, rfl, rfl, rfl⟩ := same
    simp [first, second, third, fourth, behind]
  · rename_i other
    exact absurd rfl (other a b c d rest)

theorem decodeChars?_short {a b : Char} {w x : Nat} (first : value? a = some w)
    (second : value? b = some x) :
    decodeChars? [a, b, '=', '='] = some [UInt8.ofNat ((w * 64 + x) / 16)] := by
  change (do
    let a ← value? a
    let b ← value? b
    pure [UInt8.ofNat ((a * 64 + b) / 16)]) = _
  simp only [first, second, Option.bind_eq_bind, Option.bind_some, Option.pure_def]

theorem decodeChars?_padded {a b c : Char} {w x y : Nat} (plain : c ≠ '=')
    (first : value? a = some w) (second : value? b = some x) (third : value? c = some y) :
    decodeChars? [a, b, c, '='] = some [UInt8.ofNat (((w * 64 + x) * 64 + y) / 4 / 256),
      UInt8.ofNat (((w * 64 + x) * 64 + y) / 4)] := by
  rw [decodeChars?.eq_def]
  split
  · rename_i empty
    exact absurd empty (List.cons_ne_nil _ _)
  · rename_i same
    simp only [List.cons.injEq] at same
    exact absurd same.2.2.1 plain
  · rename_i same
    simp only [List.cons.injEq] at same
    obtain ⟨rfl, rfl, rfl, -⟩ := same
    simp [first, second, third]
  · rename_i _ unpadded same
    simp only [List.cons.injEq] at same
    obtain ⟨rfl, rfl, rfl, rfl, rfl⟩ := same
    exact (unpadded rfl rfl).elim
  · rename_i other
    exact absurd rfl (other a b c '=' [])

theorem decodeChars?_encodeChars (bytes : List UInt8) :
    decodeChars? (encodeChars bytes) = some bytes := by
  induction bytes using encodeChars.induct with
  | case1 => rfl
  | case2 a =>
    have small := a.toNat_lt
    simp only [encodeChars]
    rw [decodeChars?_short (value?_letter _) (value?_letter _), byte_eq (b := a)]
    omega
  | case3 a b =>
    have small := a.toNat_lt
    have small' := b.toNat_lt
    simp only [encodeChars]
    rw [decodeChars?_padded (letter_plain _).1 (value?_letter _) (value?_letter _) (value?_letter _)]
    rw [byte_eq (b := a), byte_eq (b := b)]
    all_goals omega
  | case4 a b c rest ih =>
    have small := a.toNat_lt
    have small' := b.toNat_lt
    have small'' := c.toNat_lt
    simp only [encodeChars]
    rw [decodeChars?_group (letter_plain _).1 (value?_letter _) (value?_letter _) (value?_letter _)
      (value?_letter _) ih]
    rw [byte_eq (b := a), byte_eq (b := b), byte_eq (b := c)]
    all_goals omega

/-- The bytes of a Base64 text are those that it was written for. -/
theorem decode?_encode (bytes : List UInt8) : decode? (encode bytes) = some bytes := by
  have lines : (encodeChars bytes).filter (fun c => c != '\n' && c != '\r') = encodeChars bytes :=
    List.filter_eq_self.mpr fun c member => by simpa using encodeChars_lines bytes c member
  rw [decode?, encode, String.toList_ofList, lines, decodeChars?_encodeChars]

theorem isEmpty_encode {bytes : List UInt8} (full : bytes ≠ []) : (encode bytes).isEmpty = false := by
  refine Bool.eq_false_iff.mpr fun empty => full ?_
  have read := decode?_encode bytes
  rw [String.isEmpty_iff.mp empty] at read
  exact (Option.some.inj read).symm

end Base64

/-! ## UTF-8 -/

namespace Utf8

theorem bytesOfText_eq (s : String) :
    bytesOfText s = s.toList.flatMap String.utf8EncodeChar := by
  have encoded := String.toByteArray_ofList (l := s.toList)
  rw [String.ofList_toList] at encoded
  rw [bytesOfText, String.toUTF8_eq_toByteArray, encoded, List.utf8Encode,
    List.toList_data_toByteArray]

section Characters

variable {b d e f n : Nat} {rest : List Nat} {c : Char} {done : List Piece}

theorem several?_two (lead : 0xc2 ≤ b ∧ b ≤ 0xdf) (second : isFurther d = true) :
    several? b (d :: rest) = some ((b % 0x20) * 0x40 + d % 0x40, 1) := by
  have shape : shape? b = some (2, 0x80, 0xbf) := by simp [shape?, lead]
  simp only [isFurther, Bool.and_eq_true, decide_eq_true_eq] at second
  simp [several?, shape, second]

/-- Of three bytes, the second one is bounded so that the spelling is as short as can be and no
surrogate. -/
theorem several?_three (lead : 0xe0 ≤ b ∧ b ≤ 0xef) (second : isFurther d = true)
    (short : b = 0xe0 → 0xa0 ≤ d) (whole : b = 0xed → d ≤ 0x9f) (third : isFurther e = true) :
    several? b (d :: e :: rest) =
      some (((b % 0x10) * 0x40 + d % 0x40) * 0x40 + e % 0x40, 2) := by
  have shape : ∃ low high, shape? b = some (3, low, high) ∧ low ≤ d ∧ d ≤ high := by
    simp only [isFurther, Bool.and_eq_true, decide_eq_true_eq] at second
    by_cases least : b = 0xe0
    · exact ⟨0xa0, 0xbf, by simp [shape?, least], short least, second.2⟩
    by_cases before : b = 0xed
    · exact ⟨0x80, 0x9f, by simp [shape?, before], second.1, whole before⟩
    refine ⟨0x80, 0xbf, ?_, second⟩
    rw [shape?, if_neg (by simp; omega), if_neg least, if_neg before, if_pos (by simp; omega)]
  obtain ⟨low, high, shape, least, most⟩ := shape
  simp [several?, shape, least, most, third]

/-- Of four bytes, the second one is bounded so that the spelling is as short as can be and within
Unicode. -/
theorem several?_four (lead : 0xf0 ≤ b ∧ b ≤ 0xf4) (second : isFurther d = true)
    (short : b = 0xf0 → 0x90 ≤ d) (inside : b = 0xf4 → d ≤ 0x8f) (third : isFurther e = true)
    (fourth : isFurther f = true) :
    several? b (d :: e :: f :: rest) =
      some ((((b % 0x08) * 0x40 + d % 0x40) * 0x40 + e % 0x40) * 0x40 + f % 0x40, 3) := by
  have shape : ∃ low high, shape? b = some (4, low, high) ∧ low ≤ d ∧ d ≤ high := by
    simp only [isFurther, Bool.and_eq_true, decide_eq_true_eq] at second
    by_cases least : b = 0xf0
    · exact ⟨0x90, 0xbf, by simp [shape?, least], short least, second.2⟩
    by_cases last : b = 0xf4
    · exact ⟨0x80, 0x8f, by simp [shape?, last], second.1, inside last⟩
    refine ⟨0x80, 0xbf, ?_, second⟩
    rw [shape?, if_neg (by simp; omega), if_neg (by omega), if_neg (by omega),
      if_neg (by simp; omega), if_neg least, if_neg last, if_pos (by simp; omega)]
  obtain ⟨low, high, shape, least, most⟩ := shape
  simp [several?, shape, least, most, third, fourth]

theorem piecesOnto_several (further : Nat) (big : 0x80 ≤ b)
    (spelt : several? b rest = some (c.toNat, further)) :
    piecesOnto done (b :: rest) = piecesOnto (.char c :: done) (rest.drop further) := by
  rw [piecesOnto.eq_def]
  simp [Nat.not_lt.mpr big, spelt]

theorem isFurther_low (n : Nat) : isFurther ((n % 0x40 + 0x80) % 256) = true := by
  simp [isFurther]
  omega

/-- The bytes of a character are taken as the character, whatever follows. -/
theorem piecesOnto_char (c : Char) (done : List Piece) (rest : List Nat) :
    piecesOnto done ((String.utf8EncodeChar c).map UInt8.toNat ++ rest) =
      piecesOnto (.char c :: done) rest := by
  have valid : c.toNat < 0xd800 ∨ 0xdfff < c.toNat ∧ c.toNat < 0x110000 := c.valid
  have code : c.val.toNat = c.toNat := rfl
  simp only [String.utf8EncodeChar, code]
  split
  · rename_i ascii
    have low : c.toNat % 256 = c.toNat := by omega
    simp only [List.map_cons, List.map_nil, List.cons_append, List.nil_append, UInt8.toNat_ofNat', low]
    rw [piecesOnto.eq_def]
    simp [show c.toNat < 0x80 by omega]
  split
  · rename_i two
    simp only [List.map_cons, List.map_nil, List.cons_append, List.nil_append, UInt8.toNat_ofNat']
    refine piecesOnto_several 1 ?_ ?_
    · omega
    rw [several?_two (by omega) (isFurther_low _)]
    congr 2
    omega
  split
  · rename_i three
    simp only [List.map_cons, List.map_nil, List.cons_append, List.nil_append, UInt8.toNat_ofNat']
    refine piecesOnto_several 2 ?_ ?_
    · omega
    rw [several?_three (by omega) (isFurther_low _) (by omega) (by omega) (isFurther_low _)]
    congr 2
    omega
  · simp only [List.map_cons, List.map_nil, List.cons_append, List.nil_append, UInt8.toNat_ofNat']
    refine piecesOnto_several 3 ?_ ?_
    · omega
    rw [several?_four (by omega) (isFurther_low _) (by omega) (by omega) (isFurther_low _)
      (isFurther_low _)]
    congr 2
    omega

end Characters

theorem piecesOnto_chars (cs : List Char) (done : List Piece) :
    piecesOnto done ((cs.flatMap String.utf8EncodeChar).map UInt8.toNat) =
      cs.reverse.map .char ++ done := by
  induction cs generalizing done with
  | nil => rw [List.flatMap_nil, List.map_nil, piecesOnto.eq_def]; rfl
  | cons c cs ih =>
    rw [List.flatMap_cons, List.map_append, piecesOnto_char, ih]
    simp

/-- The bytes of a text spell the text. -/
theorem decode_bytesOfText (s : String) : decode (bytesOfText s) = s := by
  have shown : Piece.shown ∘ Piece.char = fun c => c := rfl
  rw [decode, pieces, bytesOfText_eq, piecesOnto_chars]
  simp [shown, ← List.map_reverse]

end Utf8

end StackFlow
