import StackFlow.Proofs.WellFormed

/-!
Where the instructions of a compiled graph come from. Main statement: a tube holds markers, which
compilation adds, and instructions of the code lists that are compiled.
-/

namespace StackFlow

open Micheline (Instruction Code)

/-- Flat code consists of markers and of instructions of the code that was flattened. -/
theorem mem_flatten {code : Code} {i : Instruction} (member : i ∈ flatten code) :
    (∃ n, i = marker n) ∨ ∃ r is, Nested code r (i :: is) := by
  induction size : sizeOf code using Nat.strongRecOn generalizing code with
  | ind m ih =>
    have inside {p : Code} {r : Int} (small : sizeOf p < m) (nested : Nested code r p)
        (among : i ∈ flatten p) : (∃ n, i = marker n) ∨ ∃ r is, Nested code r (i :: is) := by
      refine (ih _ small among rfl).imp_right ?_
      rintro ⟨s, is, inner⟩
      exact ⟨r + s, is, nested_trans nested inner⟩
    cases code with
    | nil => simp at member
    | cons k is =>
      rw [List.cons.sizeOf_spec] at size
      have later := inside (p := is) (by omega) (.rest .whole)
      by_cases group : k.isGroup = true
      · have small := sizeOf_body k
        rw [flatten_group group, List.mem_append] at member
        rcases member with first | rest
        · exact inside (by omega) (.group .whole group) first
        · exact later rest
      · have group : k.isGroup = false := by simpa using group
        by_cases dip : k.name = "DIP"
        · have small := sizeOf_dipBody k
          simp only [flatten_dip group dip, List.mem_cons, List.mem_append] at member
          rcases member with rfl | first | rfl | rest
          · exact .inl ⟨_, rfl⟩
          · exact inside (by omega) (.dip .whole dip) first
          · exact .inl ⟨_, rfl⟩
          · exact later rest
        · rw [flatten_other group dip, List.mem_cons] at member
          rcases member with rfl | rest
          · exact .inr ⟨0, is, .whole⟩
          · exact later rest

/-- An instruction of a graph compiled from `whole`: a marker, or one of the code. -/
def Drawn (whole : Code) (i : Instruction) : Prop :=
  (∃ n, i = marker n) ∨ ∃ r is, Nested whole r (i :: is)

section Drawn

variable {whole flat code : Code} {i : Instruction} {j : Joint}

theorem drawn_flatten {r : Int} (nested : Nested whole r code) :
    ∀ i ∈ flatten code, Drawn whole i := by
  intro i member
  refine (mem_flatten member).imp_right ?_
  rintro ⟨s, is, inner⟩
  exact ⟨r + s, is, nested_trans nested inner⟩

/-- The arms of a joint are drawn from the code that the joint is drawn from. -/
theorem drawn_arm (drawn : Drawn whole i) (found : Joint.ofName? i.name = some j) {k : Nat}
    (compiled : if j.isLoop then k = 0 else k < 2) : ∀ l ∈ flatten (arm i k), Drawn whole l := by
  rcases drawn with ⟨n, rfl⟩ | ⟨r, is, nested⟩
  · cases (marker_straight n).symm.trans found
  · cases loops : j.isLoop with
    | true =>
      obtain rfl : k = 0 := by simpa [loops] using compiled
      exact drawn_flatten (nested.turn found loops)
    | false =>
      have small : k < 2 := by simpa [loops] using compiled
      exact drawn_flatten (nested.arm found loops small)

/-- What one level of compilation makes: older nodes, a tube with the joint behind it, and what was
made for the arms. -/
theorem each_of_level {Q : Nat → Prop} {a b d : Nat} (older : ∀ k, a ≤ k → k < b → Q k)
    (tube : Q b) (joint : Q (b + 1)) (newer : ∀ k, b + 2 ≤ k → k < d → Q k) :
    ∀ k, a ≤ k → k < d → Q k := by
  intro k lower upper
  by_cases old : k < b
  · exact older k lower old
  · by_cases here : k = b
    · rw [here]
      exact tube
    · by_cases forks : k = b + 1
      · rw [forks]
        exact joint
      · exact newer k (by omega) upper

/-- The node at a position, if there is one, holds only what is drawn from the code. -/
def Graph.DrawsAt (g : Graph) (whole : Code) (k : Nat) : Prop :=
  ∀ n, g.node? k = some n → ∀ i ∈ n.code, Drawn whole i

theorem draws_of_node {g : Graph} {k : Nat} {n : Node} (found : g.node? k = some n)
    (drawn : ∀ i ∈ n.code, Drawn whole i) : g.DrawsAt whole k := by
  intro m there
  cases Option.some.inj (found.symm.trans there)
  exact drawn

theorem draws_joint {g : Graph} {b : Nat} {before : Code} {p q : Int}
    (forks : g.Forks b before j p q) : g.DrawsAt whole (b + 1) := by
  have cast : ((b + 1 : Nat) : Int) = b + 1 := by simp
  refine draws_of_node (cast ▸ forks.joint) ?_
  simp [Node.fork]

/-- The tubes of a region hold what its code is drawn from. -/
theorem made_drawn {g : Graph} {last entry : Int} {a b : Nat} (made : Made g flat last a b entry)
    (drawn : ∀ i ∈ flat, Drawn whole i) : ∀ k : Nat, a ≤ k → k < b → g.DrawsAt whole k := by
  induction made with
  | skip | terminal =>
    intro k lower upper
    omega
  | tube _ found =>
    intro k lower upper
    obtain rfl : k = _ := Nat.le_antisymm (Nat.le_of_lt_succ upper) lower
    exact draws_of_node found drawn
  | @fork i j before after last p q r a b c d found branches forks _ _ _ older first second =>
    have own : Drawn whole i := drawn i (by simp)
    have arms := fun k small => @drawn_arm whole i j own found k (by simpa [branches] using small)
    refine each_of_level (older fun l among => drawn l (by simp [among]))
      (draws_of_node forks.tube fun l among => drawn l (List.mem_append_left _ among))
      (draws_joint forks) ?_
    intro k lower upper
    by_cases early : k < c
    · exact first (arms 0 (by decide)) k lower early
    · exact second (arms 1 (by decide)) k (by omega) upper
  | @loop i j before after last p r a b d found loops _ forks _ _ older first =>
    have own : Drawn whole i := drawn i (by simp)
    exact each_of_level (older fun l among => drawn l (by simp [among]))
      (draws_of_node forks.tube fun l among => drawn l (List.mem_append_left _ among))
      (draws_joint forks) (first (drawn_arm own found (by simp [loops])))
  | @iter i before after last p r a b d found forks _ back _ older first =>
    have own : Drawn whole i := drawn i (by simp)
    refine each_of_level (older fun l among => drawn l (by simp [among]))
      (draws_of_node forks.tube fun l among => drawn l (List.mem_append_left _ among))
      (draws_joint forks) ?_
    intro k lower upper
    by_cases turn : k = b + 2
    · subst turn
      have cast : ((b + 2 : Nat) : Int) = b + 2 := by simp
      refine draws_of_node (cast ▸ back) ?_
      simp [Node.tube, Drawn]
    · exact first (drawn_arm own found (by simp [Joint.isLoop])) k (by omega) upper

end Drawn

/-- The tubes of a compiled graph hold markers and instructions of the code. -/
theorem build_drawn {code : Code} {id : Int} {n : Node}
    (found : (Graph.build code).node? id = some n) : ∀ i ∈ n.code, Drawn code i := by
  by_cases last : id = terminalId
  · rw [last] at found
    cases Option.some.inj ((build_terminal code).symm.trans found)
    simp [Node.tube]
  · have present : ((Graph.build code).node? id).isSome := by simp [found]
    obtain ⟨k, rfl, lower, upper⟩ := Graph.position_behind present last
    exact made_drawn (build_made code) (drawn_flatten .whole) k lower upper n found

end StackFlow
