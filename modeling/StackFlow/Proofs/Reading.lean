import Mathlib.Tactic.ByContra
import StackFlow.Proofs.Words
import StackFlow.Proofs.Writing

/-!
JSON text is read back as the value that it was written from. The reader takes one token after the
other; a value in the text takes it to where the value is complete, whatever containers are open around
it, as long as they are not nested too deep. Main statement: `transcript?_render`.
-/

namespace StackFlow.Json

/-! ## Tokens -/

theorem isSurrogate_char (c : Char) :
    isHighSurrogate c.toNat = false ∧ isLowSurrogate c.toNat = false := by
  have valid := c.valid
  simp only [UInt32.isValidChar, Nat.isValidChar] at valid
  have code : c.toNat = c.val.toNat := rfl
  simp only [isHighSurrogate, isLowSurrogate, Bool.and_eq_false_iff, decide_eq_false_iff_not]
  omega

/-- No character is half of a pair, so each of them stays what it is. -/
theorem joinUnits_chars (cs done : List Char) :
    joinUnits (cs.map Char.toNat) done = cs.reverse ++ done := by
  induction cs generalizing done with
  | nil => rfl
  | cons c cs ih =>
    obtain ⟨high, low⟩ := isSurrogate_char c
    cases cs with
    | nil => simp [joinUnits, high, low]
    | cons d cs =>
      have rest := ih (c :: done)
      rw [List.map_cons] at rest
      rw [List.map_cons, List.map_cons, joinUnits]
      simp only [high, low, Bool.false_and, Bool.or_false, Bool.false_eq_true, if_false,
        Char.ofNat_toNat, rest]
      simp

theorem scanToken_text (s : String) (k : List Char) :
    scanToken (quoteText s ++ k) = (.scalar (.str s), k) := by
  have scanned := scanString_escapes s.toList k []
  simp only [quoteText, List.cons_append, List.append_assoc, List.nil_append, scanToken, scanned,
    List.append_nil, ← List.map_reverse, joinUnits_chars, List.reverse_reverse, String.ofList_toList]

/-- A text that is scanned as a number up to where no number goes on. -/
structure IsNumber (t : String) : Prop where
  nonempty : t ≠ ""
  numeric : t.toList.all isNumeric = true
  scanned : ∀ k, Stops isNumeric k → scanNumber (t.toList ++ k) = some (t.toList, k)

theorem isNumeric_lead {c : Char} (numeric : isNumeric c = true) :
    isBlank c = false ∧ c ≠ '[' ∧ c ≠ ']' ∧ c ≠ '\x7b' ∧ c ≠ '\x7d' ∧ c ≠ ',' ∧ c ≠ ':' ∧ c ≠ '"' ∧
      c ≠ 't' ∧ c ≠ 'f' ∧ c ≠ 'n' := by
  refine ⟨?_, ?_⟩
  · rw [← Bool.not_eq_true]
    intro blank
    simp only [isBlank, Bool.or_eq_true, decide_eq_true_eq] at blank
    rcases blank with ((rfl | rfl) | rfl) | rfl <;> contradiction
  · refine ⟨?_, ?_, ?_, ?_, ?_, ?_, ?_, ?_, ?_, ?_⟩ <;> (rintro rfl; contradiction)

theorem scanToken_number {t : String} {k : List Char} (number : IsNumber t)
    (stops : Stops isNumeric k) : scanToken (t.toList ++ k) = (.scalar (.num t), k) := by
  have scanned := number.scanned k stops
  cases chars : t.toList with
  | nil => exact absurd (String.toList_eq_nil_iff.mp chars) number.nonempty
  | cons c cs =>
    have numeric := number.numeric
    rw [chars, List.all_cons, Bool.and_eq_true] at numeric
    have lead := (isNumeric_lead numeric.1).2
    rw [chars, List.cons_append] at scanned
    rw [List.cons_append, scanToken.eq_def]
    -- no other token starts like a number
    split
    · contradiction
    all_goals try (rename_i same; have first := (List.cons.inj same).1; simp [first] at lead)
    rw [scanned]
    simp only
    rw [← chars, String.ofList_toList]

/-! ## Whole numbers -/

theorem head_digits {n : Nat} (positive : 0 < n) : (Nat.toDigits 10 n).head? ≠ some '0' := by
  induction n using Nat.strongRecOn with
  | _ n ih =>
    by_cases small : n < 10
    · have all : ∀ n < 10, 0 < n → (Nat.toDigits 10 n).head? ≠ some '0' := by decide
      exact all n small positive
    · rw [Nat.toDigits_of_base_le (by decide) (by omega), List.head?_append]
      have front := ih (n / 10) (by omega) (by omega)
      cases head : (Nat.toDigits 10 (n / 10)).head? with
      | none => exact absurd (List.head?_eq_none_iff.mp head) Nat.toDigits_ne_nil
      | some c =>
        rw [head] at front
        simpa using front

section Numbers

variable {k : List Char}

theorem takeWhile_stopped {p : Char → Bool} {ds : List Char} (inside : ∀ c ∈ ds, p c = true)
    (stops : Stops p k) : (ds ++ k).takeWhile p = ds ∧ (ds ++ k).dropWhile p = k := by
  rw [List.takeWhile_append_of_pos inside, List.dropWhile_append_of_pos inside]
  cases k with
  | nil => simp
  | cons c k => simp [stops c rfl]

theorem stops_digits (stops : Stops isNumeric k) : Stops Char.isDigit k := by
  intro c first
  have other := stops c first
  simp only [isNumeric, Bool.or_eq_false_iff] at other
  exact other.1.1.1.1.1

theorem scanWhole_natText (n : Nat) (stops : Stops isNumeric k) :
    scanWhole ((Decimal.natText n).toList ++ k) = some ((Decimal.natText n).toList, k) := by
  have digits := fun c (member : c ∈ (Decimal.natText n).toList) => Decimal.natText_digits member
  obtain ⟨taken, left⟩ := takeWhile_stopped digits (stops_digits stops)
  have nonempty : (Decimal.natText n).toList ≠ [] := by simp [Decimal.natText, Nat.toDigits_ne_nil]
  unfold scanWhole
  split
  · rename_i cs zero
    -- a number that starts with a zero is zero
    have value : n = 0 := by
      by_contra positive
      apply head_digits (Nat.pos_of_ne_zero positive)
      cases chars : (Decimal.natText n).toList with
      | nil => exact absurd chars nonempty
      | cons c ds =>
        rw [chars] at zero
        rw [Decimal.natText, String.toList_ofList] at chars
        rw [chars, List.head?_cons, (List.cons.inj zero).1]
    subst value
    cases zero
    rfl
  · rw [scanDigits?, taken, left]
    simp [nonempty]

theorem scanFraction_stopped (stops : Stops isNumeric k) : scanFraction k = some ([], k) := by
  unfold scanFraction
  split
  · exact absurd (stops '.' rfl) (by decide)
  · rfl

theorem scanExponent_stopped (stops : Stops isNumeric k) : scanExponent k = some ([], k) := by
  cases k with
  | nil => rfl
  | cons c k =>
    have other := stops c rfl
    simp only [isNumeric, Bool.or_eq_false_iff, decide_eq_false_iff_not] at other
    simp [scanExponent, other]

theorem scanUnsigned_natText (n : Nat) (stops : Stops isNumeric k) :
    scanUnsigned ((Decimal.natText n).toList ++ k) = some ((Decimal.natText n).toList, k) := by
  simp [scanUnsigned, scanWhole_natText n stops, scanFraction_stopped stops,
    scanExponent_stopped stops]

theorem isNumber_text (n : Int) : IsNumber (Decimal.text n) where
  nonempty := by
    intro empty
    have read := Decimal.readInteger?_text n
    rw [empty] at read
    cases read
  numeric := by
    have digits : ∀ c ∈ (Decimal.natText n.natAbs).toList, isNumeric c = true := by
      intro c member
      simp [isNumeric, Decimal.natText_digits member]
    unfold Decimal.text
    split
    · rw [String.toList_append, List.all_append, Bool.and_eq_true]
      exact ⟨rfl, List.all_eq_true.mpr digits⟩
    · exact List.all_eq_true.mpr digits
  scanned := by
    intro k stops
    have scanned := scanUnsigned_natText n.natAbs stops
    unfold Decimal.text
    split
    · simp only [String.toList_append, String.reduceToList, List.cons_append, List.nil_append,
        scanNumber, scanned, Option.map_some]
    · unfold scanNumber
      split
      · rename_i cs sign
        rw [sign] at scanned
        cases scanned
      · exact scanned

end Numbers

/-! ## Values -/

mutual

/-- Whether every number in a value is the text of one, and containers are nested up to a depth. -/
def Value.Readable : Nat → Value → Prop
  | _, .num t => IsNumber t
  | depth + 1, .arr items => readableItems depth items
  | depth + 1, .obj fields => readableFields depth fields
  | 0, .arr _ => False
  | 0, .obj _ => False
  | _, _ => True

def readableItems : Nat → List Value → Prop
  | _, [] => True
  | depth, v :: vs => v.Readable depth ∧ readableItems depth vs

def readableFields : Nat → List (String × Value) → Prop
  | _, [] => True
  | depth, (_, v) :: fs => v.Readable depth ∧ readableFields depth fs

end

theorem readableItems_iff {depth : Nat} {vs : List Value} :
    readableItems depth vs ↔ ∀ v ∈ vs, v.Readable depth := by
  induction vs with
  | nil => simp [readableItems]
  | cons v vs ih => simp [readableItems, ih]

theorem readableFields_iff {depth : Nat} {fs : Fields} :
    readableFields depth fs ↔ ∀ f ∈ fs, f.2.Readable depth := by
  induction fs with
  | nil => simp [readableFields]
  | cons f fs ih => simp [readableFields, ih]

/-! ## Runs of the reader -/

/-- What is read where a token has been fed and `k` is left of the text. -/
def resume (fuel : Nat) (p : Progress) (k : List Char) : Option (Value × List Char) :=
  match p with
  | .more m => readLoop fuel m k
  | .done v => some (v, k)
  | .failed => none

/-- The reader gets to a point behind a part of the text, in no more rounds than the part has
characters. -/
def Reads (m : Machine) (cs : List Char) (p : Progress) (k : List Char) : Prop :=
  ∃ rounds, rounds + k.length ≤ cs.length ∧
    ∀ fuel, readLoop (rounds + fuel) m cs = resume fuel p k

theorem reads_token {m : Machine} {cs k : List Char} {t : Token}
    (scanned : scanToken (cs.dropWhile isBlank) = (t, k)) (shorter : k.length < cs.length) :
    Reads m cs (feed m t) k := by
  refine ⟨1, by omega, fun fuel => ?_⟩
  rw [Nat.add_comm, readLoop, scanned]
  simp only
  cases feed m t <;> rfl

theorem reads_trans {m m' : Machine} {cs cs' k : List Char} {p : Progress}
    (first : Reads m cs (.more m') cs') (second : Reads m' cs' p k) : Reads m cs p k := by
  obtain ⟨n, short, runs⟩ := first
  obtain ⟨n', short', runs'⟩ := second
  refine ⟨n + n', by omega, fun fuel => ?_⟩
  rw [Nat.add_assoc, runs, resume, runs']

theorem reads_key {e : Expect} {frames : List Frame} {key : String} {k : List Char}
    (wanted : e = .key ∨ e = .keyOrClose) :
    Reads ⟨e, frames⟩ (quoteText key ++ k) (.more ⟨.colon key, frames⟩) k := by
  have scanned : scanToken ((quoteText key ++ k).dropWhile isBlank) = (.scalar (.str key), k) :=
    scanToken_text key k
  have run := reads_token (m := ⟨e, frames⟩) scanned (by simp [quoteText]; omega)
  rcases wanted with rfl | rfl <;> exact run

theorem reads_scalar {v : Value} {e : Expect} {frames : List Frame} {cs k : List Char}
    (scanned : scanToken (cs.dropWhile isBlank) = (.scalar v, k)) (shorter : k.length < cs.length)
    (wanted : e = .value ∨ e = .valueOrClose) : Reads ⟨e, frames⟩ cs (complete v frames) k := by
  have run := reads_token (m := ⟨e, frames⟩) scanned shorter
  rcases wanted with rfl | rfl <;> exact run

theorem feed_open {e : Expect} {frames : List Frame} (room : frames.length < maxDepth)
    (wanted : e = .value ∨ e = .valueOrClose) :
    feed ⟨e, frames⟩ .openArr = .more ⟨.valueOrClose, .arr [] :: frames⟩ ∧
      feed ⟨e, frames⟩ .openObj = .more ⟨.keyOrClose, .obj [] "" :: frames⟩ := by
  rcases wanted with rfl | rfl <;> simp [feed, openFrame, room]

mutual

/-- A value takes the reader to where the value is complete. -/
theorem reads_value : ∀ (v : Value) (depth : Nat) (e : Expect) (frames : List Frame) (k : List Char),
    v.Readable depth → frames.length + depth ≤ maxDepth → e = .value ∨ e = .valueOrClose →
    Stops isNumeric k → Reads ⟨e, frames⟩ (v.write k) (complete v frames) k
  | .null, _, _, _, k, _, _, wanted, _ =>
    reads_scalar (k := k) rfl (by simp [Value.write]; omega) wanted
  | .bool true, _, _, _, k, _, _, wanted, _ =>
    reads_scalar (k := k) rfl (by simp [Value.write]; omega) wanted
  | .bool false, _, _, _, k, _, _, wanted, _ =>
    reads_scalar (k := k) rfl (by simp [Value.write]; omega) wanted
  | .num t, _, _, _, k, number, _, wanted, stops => by
    cases chars : t.toList with
    | nil => exact absurd (String.toList_eq_nil_iff.mp chars) number.nonempty
    | cons c cs =>
      have numeric := number.numeric
      rw [chars, List.all_cons, Bool.and_eq_true] at numeric
      have scanned := scanToken_number number stops
      have shorter : k.length < ((Value.num t).write k).length := by
        rw [Value.write, chars, List.length_append, List.length_cons]; omega
      refine reads_scalar ?_ shorter wanted
      rw [Value.write, chars, List.cons_append, List.dropWhile_cons_of_neg
        (by simp [(isNumeric_lead numeric.1).1]), ← List.cons_append, ← chars]
      exact scanned
  | .str s, _, _, _, k, _, _, wanted, _ =>
    reads_scalar (scanToken_text s k) (by simp [Value.write, quoteText]; omega) wanted
  | .arr [], depth + 1, e, frames, k, _, room, wanted, _ => by
    have opened : Reads ⟨e, frames⟩ ((Value.arr []).write k) (feed ⟨e, frames⟩ .openArr) (']' :: k) :=
      reads_token rfl (by simp [Value.write])
    rw [(feed_open (by omega) wanted).1] at opened
    exact reads_trans opened (reads_token (t := .closeArr) rfl (by simp))
  | .arr (v :: vs), depth + 1, e, frames, k, readable, room, wanted, _ => by
    have opened : Reads ⟨e, frames⟩ ((Value.arr (v :: vs)).write k) (feed ⟨e, frames⟩ .openArr)
        (v.write (writeItems vs (']' :: k))) :=
      reads_token rfl (by simp [Value.write])
    rw [(feed_open (by omega) wanted).1] at opened
    have inside : (Frame.arr [] :: frames).length + depth ≤ maxDepth := by
      rw [List.length_cons]
      omega
    have first := reads_value v depth .valueOrClose (.arr [] :: frames) (writeItems vs (']' :: k))
      readable.1 inside (.inr rfl) (stops_items rfl)
    exact reads_trans (reads_trans opened first) (reads_items vs depth [v] frames k readable.2 inside)
  | .obj [], depth + 1, e, frames, k, _, room, wanted, _ => by
    have opened : Reads ⟨e, frames⟩ ((Value.obj []).write k) (feed ⟨e, frames⟩ .openObj)
        ('\x7d' :: k) :=
      reads_token rfl (by simp [Value.write])
    rw [(feed_open (by omega) wanted).2] at opened
    exact reads_trans opened (reads_token (t := .closeObj) rfl (by simp))
  | .obj ((key, v) :: fs), depth + 1, e, frames, k, readable, room, wanted, _ => by
    have opened : Reads ⟨e, frames⟩ ((Value.obj ((key, v) :: fs)).write k)
        (feed ⟨e, frames⟩ .openObj)
        (quoteText key ++ ':' :: v.write (writeFields fs ('\x7d' :: k))) :=
      reads_token rfl (by simp [Value.write])
    rw [(feed_open (by omega) wanted).2] at opened
    have inside : (Frame.obj [] key :: frames).length + depth ≤ maxDepth := by
      rw [List.length_cons]
      omega
    have named := reads_trans opened (reads_key (.inr rfl))
    have colon : Reads ⟨.colon key, .obj [] "" :: frames⟩
        (':' :: v.write (writeFields fs ('\x7d' :: k))) (.more ⟨.value, .obj [] key :: frames⟩)
        (v.write (writeFields fs ('\x7d' :: k))) :=
      reads_token (t := .colon) rfl (by simp)
    have first := reads_value v depth .value (.obj [] key :: frames) (writeFields fs ('\x7d' :: k))
      readable.1 inside (.inl rfl) (stops_fields rfl)
    exact reads_trans (reads_trans (reads_trans named colon) first)
      (reads_fields fs depth [(key, v)] frames k readable.2 inside)

theorem reads_items : ∀ (vs : List Value) (depth : Nat) (done : List Value) (frames : List Frame)
    (k : List Char), readableItems depth vs → frames.length + 1 + depth ≤ maxDepth →
    Reads ⟨.separator, .arr done :: frames⟩ (writeItems vs (']' :: k))
      (complete (.arr (done.reverse ++ vs)) frames) k
  | [], _, done, frames, k, _, _ => by
    rw [List.append_nil]
    exact reads_token (t := .closeArr) rfl (by simp [writeItems])
  | v :: vs, depth, done, frames, k, readable, room => by
    have comma : Reads ⟨.separator, .arr done :: frames⟩ (writeItems (v :: vs) (']' :: k))
        (.more ⟨.value, .arr done :: frames⟩) (v.write (writeItems vs (']' :: k))) :=
      reads_token (t := .comma) rfl (by simp [writeItems])
    have first := reads_value v depth .value (.arr done :: frames) (writeItems vs (']' :: k))
      readable.1 (by rw [List.length_cons]; omega) (.inl rfl) (stops_items rfl)
    have rest := reads_items vs depth (v :: done) frames k readable.2 room
    rw [List.reverse_cons, List.append_assoc] at rest
    exact reads_trans (reads_trans comma first) rest

theorem reads_fields : ∀ (fs : Fields) (depth : Nat) (done : Fields) (frames : List Frame)
    (k : List Char), readableFields depth fs → frames.length + 1 + depth ≤ maxDepth →
    Reads ⟨.separator, .obj done "" :: frames⟩ (writeFields fs ('\x7d' :: k))
      (complete (.obj (done.reverse ++ fs)) frames) k
  | [], _, done, frames, k, _, _ => by
    rw [List.append_nil]
    exact reads_token (t := .closeObj) rfl (by simp [writeFields])
  | (key, v) :: fs, depth, done, frames, k, readable, room => by
    have comma : Reads ⟨.separator, .obj done "" :: frames⟩ (writeFields ((key, v) :: fs) ('\x7d' :: k))
        (.more ⟨.key, .obj done "" :: frames⟩)
        (quoteText key ++ ':' :: v.write (writeFields fs ('\x7d' :: k))) :=
      reads_token (t := .comma) rfl (by simp [writeFields])
    have named := reads_trans comma (reads_key (.inl rfl))
    have colon : Reads ⟨.colon key, .obj done "" :: frames⟩
        (':' :: v.write (writeFields fs ('\x7d' :: k))) (.more ⟨.value, .obj done key :: frames⟩)
        (v.write (writeFields fs ('\x7d' :: k))) :=
      reads_token (t := .colon) rfl (by simp)
    have first := reads_value v depth .value (.obj done key :: frames) (writeFields fs ('\x7d' :: k))
      readable.1 (by rw [List.length_cons]; omega) (.inl rfl) (stops_fields rfl)
    have rest := reads_fields fs depth ((key, v) :: done) frames k readable.2 room
    rw [List.reverse_cons, List.append_assoc] at rest
    exact reads_trans (reads_trans (reads_trans named colon) first) rest

end

/-- The text of a value is read back as the value. -/
theorem transcript?_render {v : Value} {depth : Nat} (readable : v.Readable depth)
    (shallow : depth ≤ maxDepth) : transcript? v.render = some v := by
  obtain ⟨rounds, short, runs⟩ := reads_value v depth .value [] [] readable (by simpa using shallow)
    (.inl rfl) (by simp [Stops])
  have enough : (v.write []).length + 1 = rounds + ((v.write []).length + 1 - rounds) := by
    simp only [List.length_nil] at short
    omega
  have read : readFirst? v.render = some (v, []) := by
    rw [readFirst?, Value.render, String.toList_ofList, enough]
    exact runs _
  rw [transcript?, read]
  rfl

end StackFlow.Json
