import StackFlow.Proofs.Origins

/-!
What the joints of a compiled graph lead to. Code is entered in a tube, and a loop that has a block
comes back to its joint through a tube as well. Main statement: where every loop has a block, all
edges of all joints lead to tubes.
-/

namespace StackFlow

open Micheline (Instruction Code)

/-- Every loop that is compiled has a code argument. -/
def LoopsArmed (code : Code) : Prop :=
  ∀ r i is, Nested code r (i :: is) → ∀ j, Joint.ofName? i.name = some j → j.isLoop = true →
    i.codeArgs ≠ []

/-- Flat code whose loops have code arguments, also those in the arms that are compiled. -/
def LoopsArmedFlat (flat : Code) : Prop :=
  ∀ i ∈ flat, ∀ j, Joint.ofName? i.name = some j →
    (j.isLoop = true → i.codeArgs ≠ []) ∧ LoopsArmed (arm i 0) ∧
      (j.isLoop = false → LoopsArmed (arm i 1))

theorem loopsArmed_nested {whole code : Code} {r : Int} (armed : LoopsArmed whole)
    (nested : Nested whole r code) : LoopsArmed code :=
  fun s i is inner => armed (r + s) i is (nested_trans nested inner)

theorem loopsArmed_flatten {code : Code} (armed : LoopsArmed code) :
    LoopsArmedFlat (flatten code) := by
  intro i member j found
  rcases mem_flatten member with ⟨n, rfl⟩ | ⟨r, is, nested⟩
  · cases (marker_straight n).symm.trans found
  · refine ⟨armed r i is nested j found, ?_, fun branches => ?_⟩
    · cases loops : j.isLoop with
      | true => exact loopsArmed_nested armed (nested.turn found loops)
      | false => exact loopsArmed_nested armed (nested.arm found loops (by decide))
    · exact loopsArmed_nested armed (nested.arm found branches (by decide))

/-- A tube stands at the position. -/
def TubeAt (nodes : Array Node) (id : Int) : Prop :=
  ∃ k : Nat, id = k ∧ ∃ n, nodes[k]? = some n ∧ n.kind = .tube

/-- The edges of all joints lead to tubes, and so does the way past the end. -/
structure Inlets (nodes : Array Node) : Prop where
  terminal : TubeAt nodes terminalId
  edges : ∀ n ∈ nodes, n.kind = .joint → ∀ id ∈ n.edges, TubeAt nodes id

section Inlets

variable {A B : Array Node} {n : Node} {id last x y : Int} {k : Nat} {flat before after : Code}
  {j : Joint} {i : Instruction} {code : Option Code}

theorem tubeAt_added (tube : TubeAt A id) (added : Added A B) : TubeAt B id := by
  obtain ⟨k, same, n, found, kind⟩ := tube
  obtain ⟨small, _⟩ := Array.getElem?_eq_some_iff.mp found
  exact ⟨k, same, n, (added.old k small).trans found, kind⟩

theorem tubeAt_push (kind : n.kind = .tube) : TubeAt (A.push n) A.size :=
  ⟨A.size, rfl, n, Array.getElem?_push_size, kind⟩

/-- Another edge list for a joint moves no tube. -/
theorem tubeAt_set {m : Node} (tube : TubeAt A id) (there : A[k]? = some m)
    (joint : m.kind = .joint) : TubeAt (A.setIfInBounds k n) id := by
  obtain ⟨p, same, m', found, kind⟩ := tube
  refine ⟨p, same, m', ?_, kind⟩
  have other : k ≠ p := by
    rintro rfl
    cases Option.some.inj (there.symm.trans found)
    cases joint.symm.trans kind
  rw [Array.getElem?_setIfInBounds_ne other, found]

theorem inlets_push (inlets : Inlets A) (leads : n.kind = .joint → n.edges = []) :
    Inlets (A.push n) := by
  refine ⟨tubeAt_added inlets.terminal (added_push n), fun m member joint id edge => ?_⟩
  rcases Array.mem_push.mp member with old | rfl
  · exact tubeAt_added (inlets.edges m old joint id edge) (added_push n)
  · rw [leads joint] at edge
    cases edge

theorem inlets_tube {next : Int} {code : Code} (inlets : Inlets A) :
    Inlets (A.push (.tube id code next)) := by
  refine inlets_push inlets fun joint => ?_
  cases joint

theorem inlets_set {m : Node} (inlets : Inlets A) (there : A[k]? = some m) (joint : m.kind = .joint)
    (leads : ∀ id ∈ n.edges, TubeAt A id) : Inlets (A.setIfInBounds k n) := by
  refine ⟨tubeAt_set inlets.terminal there joint, fun m' member joint' id edge => ?_⟩
  rcases Array.mem_or_eq_of_mem_setIfInBounds member with old | rfl
  · exact tubeAt_set (inlets.edges m' old joint' id edge) there joint
  · exact tubeAt_set (leads id edge) there joint

/-! ## Compiled code -/

/-- Code was compiled to nodes of which the joints lead to tubes, and is entered in a tube. -/
structure Entered (made : Int × Array Node) : Prop where
  inlets : Inlets made.2
  tube : TubeAt made.2 made.1

theorem inlets_forked (inlets : Inlets A) : Inlets (forked A before j) :=
  inlets_push (inlets_tube inlets) fun _ => rfl

/-- One level of compilation, once the joint has its edges. -/
theorem entered_level (newer : Added (forked A before j) B) (inlets : Inlets B)
    (first : TubeAt B x) (second : TubeAt B y) : Entered ((A.size : Int),
      B.setIfInBounds (A.size + 1) (.fork (A.size + 1) j.name [x, y])) := by
  have tube : TubeAt (forked A before j) A.size := tubeAt_added (tubeAt_push rfl) (added_push _)
  have joint : B[A.size + 1]? = some (.fork (A.size + 1) j.name []) := by
    rw [newer.old (A.size + 1) (by simp [forked])]
    simp [forked, Array.getElem_push]
  refine ⟨inlets_set inlets joint rfl fun id edge => ?_,
    tubeAt_set (tubeAt_added tube newer) joint rfl⟩
  have either : id = x ∨ id = y := by simpa [Node.fork] using edge
  rcases either with rfl | rfl
  · exact first
  · exact second

/-- Code whose loops have blocks is entered in a tube, and its joints lead to tubes. -/
theorem compileFlat_entered (flat : Code) (last : Int) (nodes : Array Node)
    (armed : LoopsArmedFlat flat) (inlets : Inlets nodes) :
    Entered (compileFlat flat last nodes) := by
  induction count : jointCount flat using Nat.strongRecOn generalizing flat last nodes with
  | ind n ih =>
    cases split : splitAtJoint? flat with
    | none =>
      rw [compileFlat_straight split]
      split
      · exact ⟨inlets, inlets.terminal⟩
      · exact ⟨inlets_tube inlets, tubeAt_push rfl⟩
    | some parts =>
      obtain ⟨before, j, i, after⟩ := parts
      obtain ⟨rfl, found, straight⟩ := splitAtJoint?_some split
      have fewer := jointCount_split split
      obtain ⟨blocks, first, second⟩ := armed i (by simp) j found
      have behind : Entered (compileFlat after last nodes) :=
        ih (jointCount after) (by omega) after last nodes
          (fun k among => armed k (by simp [among])) inlets rfl
      have arms : ∀ k last nodes, LoopsArmed (arm i k) → Inlets nodes →
          (i.codeArgs[k]? = none → TubeAt nodes last) →
          Entered (compileArm i.codeArgs[k]? last nodes) := by
        intro k last nodes armed inlets goes
        cases code : i.codeArgs[k]? with
        | none => exact ⟨inlets, goes code⟩
        | some body =>
          have bound := jointCount_arm code
          rw [arm, code, Option.getD_some] at armed
          exact ih (jointCount (flatten body)) (by omega) (flatten body) last nodes
            (loopsArmed_flatten armed) inlets rfl
      rw [compileFlat_joint split]
      generalize compileFlat after last nodes = rest at behind ⊢
      obtain ⟨r, B⟩ := rest
      have forks : Inlets (forked B before j) := inlets_forked behind.inlets
      have here : TubeAt (forked B before j) r := tubeAt_added behind.tube added_forked
      dsimp only at behind ⊢
      cases loops : j.isLoop with
      | false =>
        have other : j ≠ .iter := by
          rintro rfl
          cases loops
        simp only [if_neg other, Bool.false_eq_true, if_false]
        have one := compileArm_added i.codeArgs[0]? r (forked B before j)
        have two := compileArm_added i.codeArgs[1]? r
          (compileArm i.codeArgs[0]? r (forked B before j)).2
        have left := arms 0 r _ first forks fun _ => here
        have right := arms 1 r _ (second loops) left.inlets fun _ => tubeAt_added here one
        exact entered_level (added_trans one two) right.inlets (tubeAt_added left.tube two)
          right.tube
      | true =>
        have block : i.codeArgs[0]? ≠ none := by simpa using blocks loops
        simp only [if_true]
        split
        · generalize back : (forked B before j).push
            (.tube (forked B before j).size [marker (-1)] (B.size + 1)) = C
          have turn : Added (forked B before j) C := back ▸ added_push _
          have one := compileArm_added i.codeArgs[0]? (forked B before j).size C
          have body := arms 0 (forked B before j).size C first (back ▸ inlets_tube forks)
            fun none => absurd none block
          exact entered_level (added_trans turn one) body.inlets body.tube
            (tubeAt_added here (added_trans turn one))
        · have one := compileArm_added i.codeArgs[0]? (B.size + 1) (forked B before j)
          have body := arms 0 (B.size + 1) _ first forks fun none => absurd none block
          exact entered_level one body.inlets body.tube (tubeAt_added here one)

end Inlets

/-- If all loops that are compiled have blocks, the edges of every joint lead to tubes. -/
theorem build_inlets {code : Code} (armed : LoopsArmed code) : Inlets (Graph.build code).nodes := by
  have start : Inlets #[.tube terminalId [] noNode] := by
    refine ⟨⟨0, rfl, _, rfl, rfl⟩, fun n member joint => ?_⟩
    obtain rfl : n = .tube terminalId [] noNode := by simpa using member
    cases joint
  exact (compileFlat_entered (flatten code) noNode _ (loopsArmed_flatten armed) start).inlets

end StackFlow
