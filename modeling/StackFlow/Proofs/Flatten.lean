import StackFlow.Graph.Flatten
import StackFlow.Proofs.Words

/-!
Flattening as a recursion over the code. The worklist holds what the recursion would still splice
in, so the two agree; and a marker moves the boundary by the distance that it was made for.
-/

namespace StackFlow

open Micheline (Instruction Code)

/-- Flat code, by recursion over nested code. -/
def spliced : Code → Code
  | [] => []
  | i :: rest =>
    if i.isGroup then spliced i.body ++ spliced rest
    else if i.name == "DIP" then
      marker (dipLevel i) ::
        (spliced (dipBody i) ++ marker (wrap (-dipLevel i)) :: spliced rest)
    else i :: spliced rest
termination_by code => sizeOf code
decreasing_by
  · have := sizeOf_body i
    simp only [List.cons.sizeOf_spec]
    omega
  · simp only [List.cons.sizeOf_spec]
    omega
  · have := sizeOf_dipBody i
    simp only [List.cons.sizeOf_spec]
    omega
  · simp only [List.cons.sizeOf_spec]
    omega
  · simp only [List.cons.sizeOf_spec]
    omega

/-- What the frames of a worklist still stand for. -/
def Frame.spliced : List Frame → Code
  | [] => []
  | f :: fs => StackFlow.spliced f.pending ++ f.trailer.toList ++ Frame.spliced fs

theorem flattenLoop_eq (frames : List Frame) (out : Array Instruction) :
    (flattenLoop frames out).toList = out.toList ++ Frame.spliced frames := by
  fun_induction flattenLoop frames out with
  | case1 out => simp [Frame.spliced]
  | case2 out fs ih => simp [ih, Frame.spliced, StackFlow.spliced]
  | case3 out t fs ih => simp [ih, Frame.spliced, StackFlow.spliced]
  | case4 out i rest t fs group ih =>
    rw [ih]
    simp [Frame.spliced, StackFlow.spliced.eq_2, group]
  | case5 out i rest t fs group dip ih =>
    rw [ih]
    simp [Frame.spliced, StackFlow.spliced.eq_2, group, dip]
  | case6 out i rest t fs group dip ih =>
    rw [ih]
    simp [Frame.spliced, StackFlow.spliced.eq_2, group, dip]

theorem flatten_eq (code : Code) : flatten code = spliced code := by
  rw [flatten, flattenLoop_eq]
  simp [Frame.spliced]

section Equations

variable {i : Instruction} {rest : Code}

@[simp] theorem flatten_nil : flatten [] = [] := by
  rw [flatten_eq, spliced]

theorem flatten_group (group : i.isGroup = true) :
    flatten (i :: rest) = flatten i.body ++ flatten rest := by
  simp only [flatten_eq]
  rw [spliced, if_pos group]

theorem flatten_dip (group : i.isGroup = false) (dip : i.name = "DIP") :
    flatten (i :: rest) = marker (dipLevel i) ::
      (flatten (dipBody i) ++ marker (wrap (-dipLevel i)) :: flatten rest) := by
  simp only [flatten_eq]
  rw [spliced, if_neg (by simp [group]), if_pos (by simp [dip])]

theorem flatten_other (group : i.isGroup = false) (dip : i.name ≠ "DIP") :
    flatten (i :: rest) = i :: flatten rest := by
  simp only [flatten_eq]
  rw [spliced, if_neg (by simp [group]), if_neg (by simp [dip])]

end Equations

theorem intArg_marker {n : Int} (lower : leastWord ≤ n) (upper : n ≤ greatestWord) :
    (marker n).intArg 0 0 = n := by
  simp [marker, Instruction.intArg, Instruction.intArg?, Instruction.args,
    Decimal.readWord?_text lower upper]

/-- The level of a `DIP` is a word, whatever stands in its place. -/
theorem dipLevel_bounds (i : Instruction) : leastWord ≤ dipLevel i ∧ dipLevel i ≤ greatestWord := by
  unfold dipLevel Instruction.intArg Instruction.intArg?
  split
  · rename_i t _
    cases read : Decimal.readWord? t with
    | none => decide
    | some n =>
      have fits := (Option.filter_eq_some_iff.mp read).2
      exact fitsWord_iff.mp fits
  · decide

end StackFlow
