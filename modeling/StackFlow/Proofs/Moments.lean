import Mathlib.Algebra.Ring.Nat
import Mathlib.Data.List.TakeWhile
import StackFlow.Proofs.Words
import StackFlow.Text.Moment

/-!
A moment is read back from the text that it is written as. Every number in the text has a fixed number
of digits, and only the zeros at the end of the fraction are left out. Main statement:
`ofRfc3339?_text`.
-/

namespace StackFlow.Moment

/-! ## Numbers of a fixed width -/

section Padded

variable {width n : Nat}

theorem ofDigits_zeros (zeros : Nat) (ds : List Char) :
    Decimal.ofDigits (List.replicate zeros '0' ++ ds) = Decimal.ofDigits ds := by
  induction zeros with
  | zero => rfl
  | succ zeros ih => exact ih

theorem ofDigits_padded (width n : Nat) : Decimal.ofDigits (padded width n) = n := by
  unfold padded
  rw [ofDigits_zeros, Decimal.natText, String.toList_ofList, Decimal.ofDigits_eq,
    Nat.ofDigitChars_ten_toDigits]

theorem padded_digits {c : Char} (member : c ∈ padded width n) : c.isDigit = true := by
  rcases List.mem_append.mp member with zero | digit
  · rw [List.eq_of_mem_replicate zero]
    rfl
  · exact Decimal.natText_digits digit

theorem length_padded (positive : 0 < width) (bound : n < 10 ^ width) :
    (padded width n).length = width := by
  have short : (Nat.toDigits 10 n).length ≤ width :=
    (Nat.length_toDigits_le_iff (by decide) positive).mpr bound
  simp only [padded, Decimal.natText, String.toList_ofList, List.length_append,
    List.length_replicate]
  omega

theorem readNat?_padded (positive : 0 < width) (bound : n < 10 ^ width) :
    Decimal.readNat? (padded width n) = some n := by
  have length := length_padded positive bound
  have nonempty : padded width n ≠ [] := by
    intro empty
    rw [empty] at length
    exact absurd length (Nat.ne_of_lt positive)
  have digits : (padded width n).all Char.isDigit = true :=
    List.all_eq_true.mpr fun _ member => padded_digits member
  rw [Decimal.readNat?, if_pos (by simp [nonempty, digits]), ofDigits_padded]

theorem padded_two (bound : n < 100) : ∃ a b, padded 2 n = [a, b] ∧ a.isDigit = true ∧
    b.isDigit = true ∧ Decimal.ofDigits [a, b] = n := by
  have length := length_padded (n := n) (show 0 < 2 by decide) bound
  have value := ofDigits_padded 2 n
  have digits := fun c => @padded_digits 2 n c
  match chars : padded 2 n, length with
  | [a, b], _ =>
    rw [chars] at value digits
    exact ⟨a, b, rfl, digits a (by simp), digits b (by simp), value⟩

theorem number?_padded (short : Bool) (k : List Char) (bound : n < 100) :
    number? short (padded 2 n ++ k) = some (n, k) := by
  obtain ⟨a, b, chars, first, second, value⟩ := padded_two bound
  simp [chars, number?, first, second, value]

theorem year?_padded (k : List Char) (bound : n < 10000) :
    year? (padded 4 n ++ k) = some (n, k) := by
  have length := length_padded (n := n) (show 0 < 4 by decide) bound
  have read := readNat?_padded (n := n) (show 0 < 4 by decide) bound
  match chars : padded 4 n, length with
  | [a, b, c, d], _ =>
    rw [chars] at read
    simp [year?, read]

end Padded

/-! ## The zone -/

theorem zone_lead (offset : Int) : ∃ c rest, zone offset = c :: rest ∧ c.isDigit = false ∧ c ≠ '.' ∧
    c ≠ ',' := by
  unfold zone
  split
  · exact ⟨'Z', [], rfl, rfl, by decide, by decide⟩
  · refine ⟨_, _, rfl, ?_⟩
    split <;> decide

theorem offset?_zone {offset : Int} (short : offset.natAbs < 1440) :
    offset? (zone offset) = some offset := by
  unfold zone
  split
  · rename_i zero
    subst zero
    rfl
  · rename_i nonzero
    obtain ⟨a, b, hours, _⟩ := padded_two (n := offset.natAbs / 60) (by omega)
    obtain ⟨c, d, minutes, _⟩ := padded_two (n := offset.natAbs % 60) (by omega)
    have readHours := readNat?_padded (n := offset.natAbs / 60) (show 0 < 2 by decide) (by omega)
    have readMinutes := readNat?_padded (n := offset.natAbs % 60) (show 0 < 2 by decide) (by omega)
    rw [hours] at readHours
    rw [minutes] at readMinutes
    have inside : ¬(24 < offset.natAbs / 60 ∨ 60 < offset.natAbs % 60) := by omega
    simp only [hours, minutes, List.cons_append, List.nil_append, offset?, readHours, readMinutes,
      Option.bind_eq_bind, Option.bind_some, Bool.or_eq_true, decide_eq_true_eq, inside, if_false,
      Option.pure_def]
    by_cases negative : offset < 0
    · have value : -(60 * ((offset.natAbs / 60 : Nat) : Int) + (offset.natAbs % 60 : Nat)) = offset := by
        omega
      rw [if_pos negative, if_neg (by decide), if_pos (beq_self_eq_true _), value]
    · have value : 60 * ((offset.natAbs / 60 : Nat) : Int) + (offset.natAbs % 60 : Nat) = offset := by
        omega
      rw [if_neg negative, if_pos (beq_self_eq_true _), value]

/-! ## The fraction -/

theorem trailing_zeros (cs : List Char) :
    ∃ zeros, cs = (cs.reverse.dropWhile (· == '0')).reverse ++ List.replicate zeros '0' := by
  refine ⟨(cs.reverse.takeWhile (· == '0')).length, ?_⟩
  have run : cs.reverse.takeWhile (· == '0') =
      List.replicate (cs.reverse.takeWhile (· == '0')).length '0' := by
    refine List.eq_replicate_iff.mpr ⟨rfl, fun c member => ?_⟩
    simpa using List.mem_takeWhile_imp member
  have split := List.takeWhile_append_dropWhile (p := (· == '0')) (l := cs.reverse)
  rw [run] at split
  have whole := congrArg List.reverse split
  rw [List.reverse_append, List.reverse_replicate, List.reverse_reverse] at whole
  exact whole.symm

theorem digits_end {ds : List Char} {c : Char} (rest : List Char)
    (digits : ∀ d ∈ ds, d.isDigit = true) (other : c.isDigit = false) :
    (ds ++ c :: rest).takeWhile Char.isDigit = ds ∧
      (ds ++ c :: rest).dropWhile Char.isDigit = c :: rest := by
  constructor
  · rw [List.takeWhile_append_of_pos digits, List.takeWhile_cons_of_neg (by simp [other]),
      List.append_nil]
  · rw [List.dropWhile_append_of_pos digits, List.dropWhile_cons_of_neg (by simp [other])]

theorem places_zone (offset : Int) : places (zone offset) = (0, zone offset) := by
  obtain ⟨c, rest, lead, _, point, comma⟩ := zone_lead offset
  rw [lead]
  cases rest with
  | nil => rfl
  | cons d rest => simp [places, point, comma]

theorem places_fraction {nanos : Nat} (offset : Int) (bound : nanos < 1000000000) :
    places (fraction nanos ++ zone offset) = (nanos, zone offset) := by
  obtain ⟨zeros, whole⟩ := trailing_zeros (padded 9 nanos)
  have length := length_padded (n := nanos) (show 0 < 9 by decide) bound
  have value := ofDigits_padded 9 nanos
  unfold fraction
  generalize ((padded 9 nanos).reverse.dropWhile (· == '0')).reverse = ds at whole
  cases ds with
  | nil =>
    have none : nanos = 0 := by
      rw [whole, List.nil_append, ← List.append_nil (List.replicate _ _), ofDigits_zeros] at value
      exact value.symm
    subst none
    exact places_zone offset
  | cons d ds =>
    obtain ⟨c, rest, lead, other, _, _⟩ := zone_lead offset
    have digits : ∀ e ∈ d :: ds, e.isDigit = true := fun e member =>
      @padded_digits 9 nanos _ (whole ▸ List.mem_append_left _ member)
    obtain ⟨run, behind⟩ := digits_end rest digits other
    have nine : (d :: ds ++ List.replicate 9 '0').take 9 = padded 9 nanos := by
      rw [whole, List.length_append, List.length_replicate] at length
      rw [whole, List.take_append, List.take_of_length_le (by omega), List.take_replicate,
        show min (9 - (d :: ds).length) 9 = zeros by omega]
    have shown : places ('.' :: d :: (ds ++ c :: rest)) =
        (Decimal.ofDigits (((d :: ds ++ c :: rest).takeWhile Char.isDigit
          ++ List.replicate 9 '0').take 9), (d :: ds ++ c :: rest).dropWhile Char.isDigit) := by
      simp [places, digits d List.mem_cons_self]
    rw [lead]
    refine shown.trans ?_
    rw [run, behind, nine, value]

/-! ## The whole text -/

/-- A moment that exists and whose numbers fit their places. -/
structure Ordinary (t : Moment) : Prop where
  real : t.isReal = true
  year : t.year < 10000
  nanos : t.nanos < 1000000000

/-- A month has no more days than two digits can count. -/
theorem daysIn_le (year month : Nat) : daysIn year month ≤ 31 := by
  unfold daysIn
  split
  · split <;> decide
  · split <;> decide

theorem ofRfc3339?_text {t : Moment} {s : String} (ordinary : t.Ordinary) (text : t.text? = some s) :
    ofRfc3339? s = some t := by
  have real := ordinary.real
  have days := daysIn_le t.year t.month
  simp only [isReal, Bool.and_eq_true, decide_eq_true_eq] at real
  obtain ⟨⟨⟨⟨⟨⟨month, lastMonth⟩, day⟩, lastDay⟩, hour⟩, minute⟩, second⟩ := real
  unfold text? at text
  split at text
  · cases text
  rename_i short
  have read : withZone? false 'T' (padded 4 t.year ++ '-' :: padded 2 t.month ++ '-' :: padded 2 t.day
      ++ 'T' :: padded 2 t.hour ++ ':' :: padded 2 t.minute ++ ':' :: padded 2 t.second
      ++ fraction t.nanos ++ zone t.offset) = some t := by
    simp only [List.append_assoc, List.cons_append, withZone?, date?, timeOfDay?, char?,
      year?_padded _ ordinary.year, number?_padded _ _ (show t.month < 100 by omega),
      number?_padded _ _ (show t.day < 100 by omega), number?_padded _ _ (show t.hour < 100 by omega),
      number?_padded _ _ (show t.minute < 100 by omega),
      number?_padded _ _ (show t.second < 100 by omega), places_fraction t.offset ordinary.nanos,
      offset?_zone (show t.offset.natAbs < 1440 by omega), Option.bind_eq_bind, Option.bind_some,
      Option.pure_def, if_true]
    exact if_pos ordinary.real
  rw [← Option.some.inj text, ofRfc3339?, String.toList_ofList]
  exact read

end StackFlow.Moment
