import StackFlow.Text.Decimal

/-!
Words: an integer that fits a word is read back from its decimal text, and wrapping changes only
what does not fit.
-/

namespace StackFlow

theorem fitsWord_iff {n : Int} : fitsWord n = true ↔ leastWord ≤ n ∧ n ≤ greatestWord := by
  simp [fitsWord]

theorem wrap_bounds (n : Int) : leastWord ≤ wrap n ∧ wrap n ≤ greatestWord := by
  have lower := Int.le_bmod (x := n) (m := 18446744073709551616) (by decide)
  have upper := Int.bmod_lt (x := n) (m := 18446744073709551616) (by decide)
  unfold wrap leastWord greatestWord
  omega

theorem wrap_eq {n : Int} (lower : leastWord ≤ n) (upper : n ≤ greatestWord) : wrap n = n := by
  unfold leastWord at lower
  unfold greatestWord at upper
  exact Int.bmod_eq_of_le (by omega) (by omega)

/-- A sum of two words that does not fit comes out negative. -/
theorem wrap_above {n : Int} (lower : greatestWord < n) (upper : n ≤ 2 * greatestWord) :
    wrap n < 0 := by
  unfold greatestWord at lower upper
  have same : wrap n = wrap (n - 18446744073709551616) := by
    simp only [wrap, Int.bmod_def]
    omega
  rw [same, wrap_eq (by unfold leastWord; omega) (by unfold greatestWord; omega)]
  omega

namespace Decimal

theorem ofDigits_eq (cs : List Char) : ofDigits cs = Nat.ofDigitChars 10 cs 0 := rfl

theorem natText_digits {n : Nat} {c : Char} (member : c ∈ (natText n).toList) :
    c.isDigit = true := by
  rw [natText, String.toList_ofList] at member
  exact Nat.isDigit_of_mem_toDigits (by decide) (by decide) member

theorem readNat?_natText (n : Nat) : readNat? (natText n).toList = some n := by
  have digits : (natText n).toList.all Char.isDigit := by
    simpa using fun c member => natText_digits (n := n) member
  have some_digit : (natText n).toList.isEmpty = false := by
    simp [natText, Nat.toDigits_ne_nil]
  rw [readNat?, if_pos (by simp [some_digit, digits])]
  rw [natText, String.toList_ofList, ofDigits_eq, Nat.ofDigitChars_ten_toDigits]

theorem readInteger?_text (n : Int) : readInteger? (text n) = some n := by
  unfold text
  split
  · simp only [readInteger?, String.toList_append, String.reduceToList, List.cons_append,
      List.nil_append]
    rw [readNat?_natText]
    show some (-(n.natAbs : Int)) = some n
    rw [Option.some.injEq]
    omega
  · unfold readInteger?
    split
    · rename_i cs sign
      have digit : '-'.isDigit = true := natText_digits (n := n.natAbs) (by simp [sign])
      contradiction
    · rename_i cs sign
      have digit : '+'.isDigit = true := natText_digits (n := n.natAbs) (by simp [sign])
      contradiction
    · rw [readNat?_natText]
      simp
      omega

theorem readWord?_text {n : Int} (lower : leastWord ≤ n) (upper : n ≤ greatestWord) :
    readWord? (text n) = some n := by
  rw [readWord?, readInteger?_text, Option.filter_some, if_pos (fitsWord_iff.mpr ⟨lower, upper⟩)]

end Decimal

end StackFlow
