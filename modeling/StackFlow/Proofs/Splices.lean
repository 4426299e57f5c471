import Mathlib
import StackFlow.Proofs.Blocks
import StackFlow.Proofs.Compilation
import StackFlow.Proofs.Verdicts

/-!
Flat code as a whole. Flattening meets the instructions of a list one by one, those in its groups and
in the bodies of its blocks included, and leaves the code of all other arguments alone; so the two
markers of a block cancel out, whatever stands between them. Main statement: flattening is the
recursion over nested code, what it makes is flat, and without markers of the list's own the sum of
all markers is zero and that of the first ones is never negative.
-/

namespace StackFlow

open Micheline (Instruction Code)
open StackFlow.Graph (depthBehind depthBehind_cons StaysAbove staysAbove_cons)

/-! ## Flat code -/

/-- Nothing is left to splice in. -/
def IsFlat (code : Code) : Prop := ∀ i ∈ code, i.isGroup = false ∧ i.name ≠ "DIP"

section Flat

variable {i : Instruction} {code after : Code}

theorem flatten_append (code after : Code) :
    flatten (code ++ after) = flatten code ++ flatten after := by
  induction code with
  | nil => simp
  | cons i is ih => rw [List.cons_append, flatten_cons, ih, flatten_cons i is, List.append_assoc]

theorem isFlat_cons : IsFlat (i :: code) ↔ (i.isGroup = false ∧ i.name ≠ "DIP") ∧ IsFlat code :=
  List.forall_mem_cons

theorem isFlat_append : IsFlat (code ++ after) ↔ IsFlat code ∧ IsFlat after :=
  List.forall_mem_append

theorem marker_apart (n : Int) : (marker n).isGroup = false ∧ (marker n).name ≠ "DIP" :=
  ⟨rfl, by simp [marker, Instruction.name]⟩

theorem spliced_isFlat (code : Code) : IsFlat (spliced code) := by
  fun_induction spliced code with
  | case1 => simp [IsFlat]
  | case2 i rest group body rest_flat => exact isFlat_append.mpr ⟨body, rest_flat⟩
  | case3 i rest group dip body rest_flat =>
    rw [isFlat_cons, isFlat_append, isFlat_cons]
    exact ⟨marker_apart _, body, marker_apart _, rest_flat⟩
  | case4 i rest group dip rest_flat =>
    exact isFlat_cons.mpr ⟨⟨by simpa using group, by simpa using dip⟩, rest_flat⟩

theorem flatten_of_isFlat (flat : IsFlat code) : flatten code = code := by
  induction code with
  | nil => exact flatten_nil
  | cons i is ih =>
    obtain ⟨⟨group, dip⟩, rest⟩ := isFlat_cons.mp flat
    rw [flatten_other group dip, ih rest]

end Flat

/-! ## What flattening meets -/

/-- The instructions that flattening meets, each with the number of items that the blocks around it
protect. -/
def met (around : Int) : Code → List (Int × Instruction)
  | [] => []
  | i :: rest =>
    (around, i) ::
      ((if i.isGroup then met around i.body
        else if i.name == "DIP" then met (around + dipLevel i) (dipBody i)
        else []) ++ met around rest)
termination_by code => sizeOf code
decreasing_by
  · have := sizeOf_body i
    simp only [List.cons.sizeOf_spec]
    omega
  · have := sizeOf_dipBody i
    simp only [List.cons.sizeOf_spec]
    omega
  · simp only [List.cons.sizeOf_spec]
    omega

/-- No marker stands where flattening meets it. -/
def Markerless (around : Int) (code : Code) : Prop := ∀ m ∈ met around code, isMarker m.2 = false

/-- The blocks protect numbers of items that stay words when they are added up along the nesting. -/
def Measured (around : Int) (code : Code) : Prop :=
  ∀ m ∈ met around code, m.2.name = "DIP" → 0 ≤ dipLevel m.2 ∧ m.1 + dipLevel m.2 ≤ greatestWord

section Met

variable {P : Int × Instruction → Prop} {around : Int} {i : Instruction} {rest : Code}

theorem forall_met_group (group : i.isGroup = true) :
    (∀ m ∈ met around (i :: rest), P m) ↔
      P (around, i) ∧ (∀ m ∈ met around i.body, P m) ∧ ∀ m ∈ met around rest, P m := by
  rw [met, if_pos group, List.forall_mem_cons, List.forall_mem_append]

theorem forall_met_dip (group : ¬i.isGroup = true) (dip : (i.name == "DIP") = true) :
    (∀ m ∈ met around (i :: rest), P m) ↔
      P (around, i) ∧ (∀ m ∈ met (around + dipLevel i) (dipBody i), P m) ∧
        ∀ m ∈ met around rest, P m := by
  rw [met, if_neg group, if_pos dip, List.forall_mem_cons, List.forall_mem_append]

theorem forall_met_other (group : ¬i.isGroup = true) (dip : ¬(i.name == "DIP") = true) :
    (∀ m ∈ met around (i :: rest), P m) ↔ P (around, i) ∧ ∀ m ∈ met around rest, P m := by
  rw [met, if_neg group, if_neg dip, List.nil_append, List.forall_mem_cons]

end Met

/-! ## Sums of markers -/

section Sums

variable {d around : Int} {i : Instruction} {before after flat code : Code}

theorem cursorDelta_eq (flat : Code) : cursorDelta flat = depthBehind 0 flat := rfl

theorem depthBehind_append :
    depthBehind d (before ++ after) = depthBehind (depthBehind d before) after :=
  List.foldl_append

theorem staysAbove_append : StaysAbove d (before ++ after) ↔
    StaysAbove d before ∧ StaysAbove (depthBehind d before) after := by
  induction before generalizing d with
  | nil => simp [StaysAbove, depthBehind]
  | cons i is ih =>
    rw [List.cons_append, staysAbove_cons, staysAbove_cons, ih, and_assoc, ← depthBehind_cons]

/-- If no marker takes the depth below zero, no part of the code does. -/
theorem depthBehind_nonneg (start : 0 ≤ d) (above : StaysAbove d flat) (first : before <+: flat) :
    0 ≤ depthBehind d before := by
  induction flat generalizing d before with
  | nil =>
    rw [List.prefix_nil.mp first]
    exact start
  | cons i is ih =>
    obtain ⟨here, rest⟩ := staysAbove_cons.mp above
    rcases List.prefix_cons_iff.mp first with rfl | ⟨before, rfl, further⟩
    · exact start
    · rw [depthBehind_cons]
      refine ih ?_ rest further
      cases marks : isMarker i with
      | true => exact here marks
      | false => simpa [depthBehind, marks] using start

theorem depthBehind_single (unmarked : isMarker i = false) : depthBehind d [i] = d := by
  simp [depthBehind, unmarked]

theorem depthBehind_marker {n : Int} (lower : leastWord ≤ n) (upper : n ≤ greatestWord) :
    depthBehind d [marker n] = wrap (d + n) := by
  simp [depthBehind, isMarker_marker, markerDelta_marker lower upper]

/-- The two markers of a block. -/
theorem depthBehind_opened (i : Instruction) :
    depthBehind d [marker (dipLevel i)] = wrap (d + dipLevel i) :=
  depthBehind_marker (dipLevel_bounds i).1 (dipLevel_bounds i).2

theorem depthBehind_closed (lower : leastWord ≤ d) (upper : d ≤ greatestWord) (i : Instruction) :
    depthBehind (wrap (d + dipLevel i)) [marker (wrap (-dipLevel i))] = d := by
  rw [depthBehind_marker (wrap_bounds _).1 (wrap_bounds _).2, wrap_back lower upper]

/-- Behind flat code without markers of its own the depth is as before, also where a level is
negative or a sum is no word. -/
theorem depthBehind_spliced (lower : leastWord ≤ d) (upper : d ≤ greatestWord)
    (markerless : Markerless around code) : depthBehind d (spliced code) = d := by
  fun_induction spliced code generalizing d around with
  | case1 => rfl
  | case2 i rest group body behind =>
    obtain ⟨_, inner, outer⟩ := (forall_met_group group).mp markerless
    rw [depthBehind_append, body lower upper inner, behind lower upper outer]
  | case3 i rest group dip body behind =>
    obtain ⟨_, inner, outer⟩ := (forall_met_dip group dip).mp markerless
    obtain ⟨lower', upper'⟩ := wrap_bounds (d + dipLevel i)
    rw [depthBehind_cons, depthBehind_opened, depthBehind_append, body lower' upper' inner,
      depthBehind_cons, depthBehind_closed lower upper, behind lower upper outer]
  | case4 i rest group dip behind =>
    obtain ⟨here, outer⟩ := (forall_met_other group dip).mp markerless
    rw [depthBehind_cons, depthBehind_single here, behind lower upper outer]

/-- The depth in flat code is the number of items that the blocks around protect, so it is not
negative. -/
theorem staysAbove_spliced (start : 0 ≤ around) (upper : around ≤ greatestWord)
    (markerless : Markerless around code) (measured : Measured around code) :
    StaysAbove around (spliced code) := by
  have word {d : Int} (start : 0 ≤ d) : leastWord ≤ d := by
    unfold leastWord
    omega
  fun_induction spliced code generalizing around with
  | case1 => simp [StaysAbove]
  | case2 i rest group body behind =>
    obtain ⟨_, inner, outer⟩ := (forall_met_group group).mp markerless
    obtain ⟨_, levels, further⟩ := (forall_met_group group).mp measured
    rw [staysAbove_append, depthBehind_spliced (word start) upper inner]
    exact ⟨body start upper inner levels, behind start upper outer further⟩
  | case3 i rest group dip body behind =>
    obtain ⟨_, inner, outer⟩ := (forall_met_dip group dip).mp markerless
    obtain ⟨level, levels, further⟩ := (forall_met_dip group dip).mp measured
    obtain ⟨positive, sum⟩ : 0 ≤ dipLevel i ∧ around + dipLevel i ≤ greatestWord :=
      level (eq_of_beq dip)
    -- the first marker leads to a sum that is a word, and the second one back to where it began
    have opened : wrap (around + dipLevel i) = around + dipLevel i :=
      wrap_eq (word (by omega)) sum
    have closed := depthBehind_closed (word start) upper i
    rw [staysAbove_cons, staysAbove_append, staysAbove_cons, depthBehind_opened, opened,
      depthBehind_spliced (word (by omega)) sum inner]
    rw [opened] at closed
    rw [closed]
    exact ⟨fun _ => by omega, body (by omega) sum inner levels, fun _ => start,
      behind start upper outer further⟩
  | case4 i rest group dip behind =>
    obtain ⟨here, outer⟩ := (forall_met_other group dip).mp markerless
    obtain ⟨_, further⟩ := (forall_met_other group dip).mp measured
    rw [staysAbove_cons, depthBehind_single here]
    exact ⟨fun _ => start, behind start upper outer further⟩

end Sums

/-! ## Main statement -/

/-- Flattening is the recursion over nested code. So it distributes over lists, and flattening again
changes nothing. If the list has no markers of its own, those of its blocks sum up to zero; and if
their levels are words, also added up along the nesting, no first part has a negative sum. -/
theorem flattening_splices (code : Code) :
    flatten code = spliced code ∧
    (∀ after, flatten (code ++ after) = flatten code ++ flatten after) ∧
    flatten (flatten code) = flatten code ∧
    IsFlat (flatten code) ∧
    (Markerless 0 code → cursorDelta (flatten code) = 0 ∧
      (Measured 0 code → ∀ before, before <+: flatten code → 0 ≤ cursorDelta before)) := by
  have flat : IsFlat (flatten code) := by
    rw [flatten_eq]
    exact spliced_isFlat code
  refine ⟨flatten_eq code, flatten_append code, flatten_of_isFlat flat, flat, fun markerless => ?_⟩
  rw [flatten_eq]
  constructor
  · rw [cursorDelta_eq]
    exact depthBehind_spliced (by decide) (by decide) markerless
  · intro measured before first
    rw [cursorDelta_eq]
    have above := staysAbove_spliced (Int.le_refl 0) (by decide) markerless measured
    exact depthBehind_nonneg (Int.le_refl 0) above first

def innermostBlock : Instruction := .op "DIP" [] [.code [.op "DROP" [] []]]

/-- The marker in it is not met. -/
def strayingJoint : Instruction := .op "IF" [] [.code [marker (-5)], .code []]

def widestBlock : Instruction :=
  .op "DIP" [] [.literal (.int "9223372036854775806"), .code [innermostBlock, strayingJoint]]

def deepNest : Code := [.op "DUP" [] [], .group [widestBlock], .op "PAIR" [] []]

theorem met_deepNest : met 0 deepNest =
    [(0, .op "DUP" [] []), (0, .group [widestBlock]), (0, widestBlock),
      (greatestWord - 1, innermostBlock), (greatestWord, .op "DROP" [] []),
      (greatestWord - 1, strayingJoint), (0, .op "PAIR" [] [])] := by
  cbv

/-- Blocks that protect as many items as a word can tell. -/
theorem deep_nest_balanced :
    Markerless 0 deepNest ∧ Measured 0 deepNest ∧ cursorDelta (flatten deepNest) = 0 ∧
    ∀ before, before <+: flatten deepNest → 0 ≤ cursorDelta before := by
  have markerless : Markerless 0 deepNest := by
    rw [Markerless, met_deepNest]
    decide
  have measured : Measured 0 deepNest := by
    rw [Measured, met_deepNest]
    decide
  obtain ⟨_, _, _, _, balances⟩ := flattening_splices deepNest
  obtain ⟨zero, never⟩ := balances markerless
  exact ⟨markerless, measured, zero, never measured⟩

end StackFlow
