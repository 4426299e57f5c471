import StackFlow.Proofs.Origins

/-!
The edges of compiled joints. Where every branching instruction has a block, the first edge of a
joint leads to a tube that was made for the block. Main statement: both edges then lead to tubes,
and not to the same one.
-/

namespace StackFlow

open Micheline (Instruction Code)

/-! ## Code of which all joints have blocks -/

/-- Every branching instruction that is compiled has a code argument. -/
def Armed (code : Code) : Prop :=
  ∀ r i is, Nested code r (i :: is) → (Joint.ofName? i.name).isSome → i.codeArgs ≠ []

/-- Flat code whose branching instructions have code arguments, which are armed themselves. -/
def ArmedFlat (flat : Code) : Prop :=
  ∀ i ∈ flat, ∀ j, Joint.ofName? i.name = some j →
    i.codeArgs ≠ [] ∧ Armed (arm i 0) ∧ (j.isLoop = false → Armed (arm i 1))

theorem armed_nested {whole code : Code} {r : Int} (armed : Armed whole)
    (nested : Nested whole r code) : Armed code :=
  fun s i is inner => armed (r + s) i is (nested_trans nested inner)

theorem armed_flatten {code : Code} (armed : Armed code) : ArmedFlat (flatten code) := by
  intro i member j found
  rcases mem_flatten member with ⟨n, rfl⟩ | ⟨r, is, nested⟩
  · cases (marker_straight n).symm.trans found
  · refine ⟨armed r i is nested (by simp [found]), ?_, fun branches => ?_⟩
    · cases loops : j.isLoop with
      | true => exact armed_nested armed (nested.turn found loops)
      | false => exact armed_nested armed (nested.arm found loops (by decide))
    · exact armed_nested armed (nested.arm found branches (by decide))

/-! ## Joints of which the edges part -/

namespace Graph

def isTube (g : Graph) (id : Int) : Bool := ((g.node? id).map (·.kind == .tube)).getD false

/-- If there is a joint at `id`, its edges lead to two tubes. -/
def PartsAt (g : Graph) (id : Int) : Prop :=
  ∀ n, g.node? id = some n → n.kind = .joint →
    ∃ p q, n.edges = [p, q] ∧ p ≠ q ∧ g.isTube p = true ∧ g.isTube q = true

/-- The edges of every joint lead to two tubes. -/
def Parted (g : Graph) : Prop := ∀ id, g.PartsAt id

end Graph

/-- The edges of every joint from `a` to `b` lead to two tubes. -/
def Graph.PartsWithin (g : Graph) (a b : Nat) : Prop := ∀ k : Nat, a ≤ k → k < b → g.PartsAt k

/-- Nodes were added for a block that is entered in a new tube, and no joint among them has edges
that meet. -/
structure Graph.Opens (g : Graph) (nodes nodes' : Array Node) (entry : Int) : Prop where
  lower : nodes.size ≤ entry
  upper : entry < nodes'.size
  tube : g.isTube entry = true
  parts : g.PartsWithin nodes.size nodes'.size

/-- Compiled code with fewer than `n` joints parts their edges. -/
def Graph.PartsBelow (g : Graph) (n : Nat) : Prop :=
  ∀ (flat : Code) (last : Int) (nodes : Array Node), jointCount flat < n → 0 < nodes.size →
    ArmedFlat flat → g.Holds nodes (compileFlat flat last nodes).2 →
    g.PartsWithin nodes.size (compileFlat flat last nodes).2.size

/-- The code behind a joint was compiled, it is entered at `r` in a tube, and parts its edges. -/
structure Graph.Behind (g : Graph) (A B : Array Node) (r : Int) : Prop where
  filled : 0 < A.size
  older : Added A B
  active : r ≠ noNode
  upper : r < B.size
  tube : g.Holds A B → g.isTube r = true
  parts : g.Holds A B → g.PartsWithin A.size B.size

section Parting

variable {g : Graph} {id last r : Int} {A B C nodes : Array Node} {before after : Code} {j : Joint}
  {i : Instruction} {x y : Int} {d n k : Nat}

theorem isTube_of_node {code : Code} {n next : Int}
    (found : g.node? id = some (.tube n code next)) : g.isTube id = true := by
  simp [Graph.isTube, found, Node.tube]

theorem parts_tube {code : Code} {n next : Int} (found : g.node? id = some (.tube n code next)) :
    g.PartsAt id := by
  intro m there joint
  cases Option.some.inj (found.symm.trans there)
  cases joint

theorem parts_append {a b c : Nat} (first : g.PartsWithin a b) (second : g.PartsWithin b c) :
    g.PartsWithin a c := by
  intro k lower upper
  by_cases early : k < b
  · exact first k lower early
  · exact second k (by omega) upper

theorem parts_single {a : Nat} (own : g.PartsAt a) : g.PartsWithin a (a + 1) := by
  intro k lower upper
  obtain rfl : k = a := by omega
  exact own

/-- One level of compilation: the code behind the joint, a tube with the joint behind it, and what
was made for the arms, from which the joint got its edges. -/
theorem parts_level (behind : g.Behind A B r) (newer : Added (forked B before j) C)
    (holds : g.Holds A (C.setIfInBounds (B.size + 1) (.fork (B.size + 1) j.name [x, y])))
    (arms : g.Holds (forked B before j) C → g.isTube r = true →
      x ≠ y ∧ g.isTube x = true ∧ g.isTube y = true ∧ g.PartsWithin (B.size + 2) C.size) :
    g.PartsWithin A.size C.size := by
  obtain ⟨tube, joint, inner, held⟩ := holds_forked behind.older newer holds
  obtain ⟨apart, first, second, parts⟩ := arms held (behind.tube inner)
  refine parts_append (behind.parts inner) ?_
  refine parts_append (parts_single (parts_tube tube)) (parts_append (parts_single ?_) parts)
  rw [Nat.cast_add, Nat.cast_one]
  intro n there _
  cases Option.some.inj (joint.symm.trans there)
  exact ⟨x, y, rfl, apart, first, second⟩

/-- Code is entered in a new tube, unless it is nothing in front of the end. -/
theorem compileFlat_place (flat : Code) (last : Int) (nodes : Array Node) :
    (last = noNode ∧ (compileFlat flat last nodes).1 = terminalId) ∨
      (nodes.size : Int) ≤ (compileFlat flat last nodes).1 ∧
        (compileFlat flat last nodes).1 < (compileFlat flat last nodes).2.size := by
  cases split : splitAtJoint? flat with
  | none =>
    rw [compileFlat_straight split]
    split
    · rename_i empty
      simp only [Bool.and_eq_true, List.isEmpty_iff, beq_iff_eq] at empty
      exact .inl ⟨empty.2, rfl⟩
    · right
      simp
  | some parts =>
    obtain ⟨before, j, i, after⟩ := parts
    have older := (compileFlat_compiles after last nodes).added.size
    rw [compileFlat_joint split]
    generalize compileFlat after last nodes = rest at older ⊢
    dsimp only
    have forks : (forked rest.2 before j).size = rest.2.size + 2 := by simp [forked]
    have newer : ∀ nodes' : Array Node, Added (forked rest.2 before j) nodes' →
        rest.2.size < nodes'.size := fun _ added => by
      have grown := added.size
      omega
    refine .inr ⟨by simpa using older, ?_⟩
    rw [Array.size_setIfInBounds, Int.ofNat_lt]
    apply newer
    cases loops : j.isLoop with
    | false =>
      have other : j ≠ .iter := by
        rintro rfl
        cases loops
      simp only [if_neg other, Bool.false_eq_true, if_false]
      exact added_trans (compileArm_added _ _ _) (compileArm_added _ _ _)
    | true =>
      simp only [if_true]
      refine added_trans ?_ (compileArm_added _ _ _)
      split
      · exact added_push _
      · exact added_refl

/-- The second of two arms may be missing, and its edge then leads behind the joint. -/
theorem parts_arms (entry : g.isTube r = true) (behind : r < A.size) (first : g.Opens A B x)
    (second : y = r ∧ C = B ∨ g.Opens B C y) :
    x ≠ y ∧ g.isTube x = true ∧ g.isTube y = true ∧ g.PartsWithin A.size C.size := by
  have lower := first.lower
  have upper := first.upper
  rcases second with ⟨rfl, rfl⟩ | second
  · exact ⟨by omega, first.tube, entry, first.parts⟩
  · have apart := second.lower
    exact ⟨by omega, first.tube, second.tube, parts_append first.parts second.parts⟩

section Levels

variable (terminal : g.node? terminalId = some (.tube terminalId [] noNode))

include terminal

theorem behind_joint (below : g.PartsBelow n) (fewer : jointCount after < n)
    (armed : ArmedFlat after) (filled : 0 < nodes.size) :
    g.Behind nodes (compileFlat after last nodes).2 (compileFlat after last nodes).1 := by
  have older := (compileFlat_compiles after last nodes).added
  have place := compileFlat_place after last nodes
  have grown := older.size
  refine ⟨filled, older, ?_, ?_, fun holds => ?_, below after last nodes fewer filled armed⟩
  · unfold noNode terminalId at *
    omega
  · unfold terminalId at place
    omega
  · obtain ⟨_, _, _, entry⟩ := compileFlat_entry after last nodes holds terminal
    exact isTube_of_node entry

/-- An arm with a block is entered in a new tube. -/
theorem opens_arm {code : Code} (below : g.PartsBelow n) (there : i.codeArgs[k]? = some code)
    (small : jointCount (flatten code) < n) (armed : Armed (arm i k)) (filled : 0 < nodes.size)
    (active : last ≠ noNode) (holds : g.Holds nodes (compileArm i.codeArgs[k]? last nodes).2) :
    g.Opens nodes (compileArm i.codeArgs[k]? last nodes).2
      (compileArm i.codeArgs[k]? last nodes).1 := by
  rw [arm, there, Option.getD_some] at armed
  rw [there] at holds ⊢
  obtain ⟨_, _, _, entry⟩ := compileFlat_entry (flatten code) last nodes holds terminal
  rcases compileFlat_place (flatten code) last nodes with ⟨ended, _⟩ | ⟨lower, upper⟩
  · exact absurd ended active
  · have parts := below (flatten code) last nodes small filled (armed_flatten armed) holds
    exact ⟨lower, upper, isTube_of_node entry, parts⟩

section Joints

variable {code : Code} (below : g.PartsBelow n) (behind : g.Behind A B r)
  (there : i.codeArgs[0]? = some code) (small : jointCount (flatten code) < n)
  (armed : Armed (arm i 0))

include below behind there small armed

theorem fork_parts (bound : ∀ code, i.codeArgs[1]? = some code → jointCount (flatten code) < n)
    (armed' : Armed (arm i 1))
    (holds : g.Holds A ((compileArm i.codeArgs[1]? r
      (compileArm i.codeArgs[0]? r (forked B before j)).2).2.setIfInBounds (B.size + 1)
        (.fork (B.size + 1) j.name [(compileArm i.codeArgs[0]? r (forked B before j)).1,
          (compileArm i.codeArgs[1]? r (compileArm i.codeArgs[0]? r (forked B before j)).2).1]))) :
    g.PartsWithin A.size (compileArm i.codeArgs[1]? r
      (compileArm i.codeArgs[0]? r (forked B before j)).2).2.size := by
  have size : (forked B before j).size = B.size + 2 := by simp [forked]
  have upper := behind.upper
  have one := compileArm_added i.codeArgs[0]? r (forked B before j)
  have two := compileArm_added i.codeArgs[1]? r (compileArm i.codeArgs[0]? r (forked B before j)).2
  refine parts_level behind (added_trans one two) holds fun arms entry => ?_
  have first := opens_arm terminal below there small armed (by omega) behind.active
    (holds_left arms two)
  rw [← size]
  refine parts_arms entry (by omega) first ?_
  cases there' : i.codeArgs[1]? with
  | none => exact .inl ⟨rfl, rfl⟩
  | some code' =>
    have wider := one.size
    rw [← there']
    exact .inr (opens_arm terminal below there' (bound code' there') armed' (by omega)
      behind.active (holds_right arms one))

theorem loop_parts (holds : g.Holds A
      ((compileArm i.codeArgs[0]? (B.size + 1) (forked B before j)).2.setIfInBounds (B.size + 1)
        (.fork (B.size + 1) j.name
          [(compileArm i.codeArgs[0]? (B.size + 1) (forked B before j)).1, r]))) :
    g.PartsWithin A.size (compileArm i.codeArgs[0]? (B.size + 1) (forked B before j)).2.size := by
  have size : (forked B before j).size = B.size + 2 := by simp [forked]
  have upper := behind.upper
  have one := compileArm_added i.codeArgs[0]? (B.size + 1) (forked B before j)
  refine parts_level behind one holds fun arms entry => ?_
  have first := opens_arm terminal below there small armed (by omega) (by unfold noNode; omega) arms
  rw [← size]
  exact parts_arms entry (by omega) first (.inl ⟨rfl, rfl⟩)

/-- An iteration comes back through a tube of its own. -/
theorem iter_parts {turn : Node} (back : turn = .tube (forked B before j).size [marker (-1)]
      (B.size + 1))
    (holds : g.Holds A ((compileArm i.codeArgs[0]? (forked B before j).size
      ((forked B before j).push turn)).2.setIfInBounds (B.size + 1)
        (.fork (B.size + 1) j.name [(compileArm i.codeArgs[0]? (forked B before j).size
          ((forked B before j).push turn)).1, r]))) :
    g.PartsWithin A.size (compileArm i.codeArgs[0]? (forked B before j).size
      ((forked B before j).push turn)).2.size := by
  have size : (forked B before j).size = B.size + 2 := by simp [forked]
  have upper := behind.upper
  have new := @added_push (forked B before j) turn
  have one := compileArm_added i.codeArgs[0]? (forked B before j).size
    ((forked B before j).push turn)
  refine parts_level behind (added_trans new one) holds fun arms entry => ?_
  have own := holds_push (holds_left arms one)
  rw [back] at own
  have first := opens_arm terminal below there small armed (by simp) (by unfold noNode; omega)
    (holds_right arms new)
  obtain ⟨apart, tube, _, parts⟩ :=
    parts_arms entry (by rw [Array.size_push]; omega) first (.inl ⟨rfl, rfl⟩)
  rw [Array.size_push] at parts
  rw [← size]
  exact ⟨apart, tube, entry, parts_append (parts_single (parts_tube own)) parts⟩

end Joints

end Levels

theorem straight_parts (split : splitAtJoint? before = none)
    (holds : g.Holds nodes (compileFlat before last nodes).2) :
    g.PartsWithin nodes.size (compileFlat before last nodes).2.size := by
  rw [compileFlat_straight split] at holds ⊢
  split at holds
  · rename_i empty
    rw [if_pos empty]
    intro k lower upper
    exact absurd lower (Nat.not_le.mpr upper)
  · rename_i other
    rw [if_neg other, Array.size_push]
    exact parts_single (parts_tube (holds_push holds))

/-- Compiled code parts the edges of its joints. -/
theorem compileFlat_parts (terminal : g.node? terminalId = some (.tube terminalId [] noNode))
    (n : Nat) : g.PartsBelow n := by
  induction n with
  | zero => exact fun _ _ _ none => absurd none (Nat.not_lt_zero _)
  | succ n ih =>
    intro flat last nodes small filled armed holds
    cases split : splitAtJoint? flat with
    | none => exact straight_parts split holds
    | some parts =>
      obtain ⟨before, j, i, after⟩ := parts
      obtain ⟨rfl, found, straight⟩ := splitAtJoint?_some split
      have fewer := jointCount_split split
      obtain ⟨blocks, armed₀, armed₁⟩ := armed i (by simp) j found
      have behind : g.Behind nodes (compileFlat after last nodes).2
          (compileFlat after last nodes).1 :=
        behind_joint terminal ih (by omega) (fun k among => armed k (by simp [among])) filled
      have bound (k : Nat) (code : Code) (there : i.codeArgs[k]? = some code) :
          jointCount (flatten code) < n := by
        have := jointCount_arm there
        omega
      obtain ⟨code, there⟩ : ∃ code, i.codeArgs[0]? = some code :=
        ⟨_, List.getElem?_eq_getElem (List.length_pos_of_ne_nil blocks)⟩
      have small := bound 0 code there
      rw [compileFlat_joint split] at holds ⊢
      generalize compileFlat after last nodes = rest at holds behind ⊢
      obtain ⟨r, B⟩ := rest
      dsimp only at holds behind ⊢
      rw [Array.size_setIfInBounds]
      cases loops : j.isLoop with
      | false =>
        have other : j ≠ .iter := by
          rintro rfl
          cases loops
        simp only [if_neg other, loops, Bool.false_eq_true, if_false] at holds ⊢
        exact fork_parts terminal ih behind there small armed₀ (bound 1) (armed₁ loops) holds
      | true =>
        simp only [loops, if_true] at holds ⊢
        by_cases iter : j = .iter
        · simp only [if_pos iter] at holds ⊢
          exact iter_parts terminal ih behind there small armed₀ rfl holds
        · simp only [if_neg iter] at holds ⊢
          exact loop_parts terminal ih behind there small armed₀ holds

/-- If all branching instructions that are compiled have blocks, the edges of every joint lead to
two tubes. -/
theorem build_parted {code : Code} (armed : Armed code) : (Graph.build code).Parted := by
  intro id n found joint
  have terminal := build_terminal code
  by_cases last : id = terminalId
  · rw [last] at found
    exact parts_tube terminal n found joint
  · have present : ((Graph.build code).node? id).isSome := by simp [found]
    obtain ⟨k, rfl, lower, upper⟩ := Graph.position_behind present last
    exact compileFlat_parts terminal _ (flatten code) noNode #[.tube terminalId [] noNode]
      (Nat.lt_succ_self _) (by simp) (armed_flatten armed) (fun _ _ _ => rfl) k lower upper n found
      joint

end Parting

end StackFlow
