import Mathlib.Data.List.Basic
import StackFlow.Graph.Build
import StackFlow.Proofs.Direct
import StackFlow.Proofs.Flatten
import StackFlow.Proofs.Joints

/-!
Where compiled code lies in a graph. A position is the rest of a tube's code and the node behind the
tube. Main statement: flat code that was compiled lies at its entry, in every graph that holds the
nodes that were made for it.
-/

namespace StackFlow

open Micheline (Instruction Code)

/-- Where the body of a loop comes back to the joint `id`: directly, or past a marker if the joint
hides an item. -/
def Graph.ComesBack (g : Graph) (j : Joint) (back id : Int) : Prop :=
  if j = .iter then g.node? back = some (.tube back [marker (-1)] id) else back = id

mutual

/-- `Laid g flat last pending next`: at the position `pending`, `next` lies the flat code `flat`,
which goes on at the node `last`. Tubes may have to be entered first. -/
inductive Laid (g : Graph) : Code → Int → Code → Int → Prop where
  | ready {flat pending : Code} {last next : Int} :
      Ready g flat last pending next → Laid g flat last pending next
  | enter {flat : Code} {last id : Int} {n : Node} :
      g.node? id = some n → n.kind = .tube → Laid g flat last n.code n.next → Laid g flat last [] id

/-- The first instruction of `flat`, if any, is the next to run. -/
inductive Ready (g : Graph) : Code → Int → Code → Int → Prop where
  | done {last : Int} : Ready g [] last [] last
  | run {i : Instruction} {flat pending : Code} {last next : Int} :
      Joint.ofName? i.name = none → Laid g flat last pending next →
      Ready g (i :: flat) last (i :: pending) next
  | fork {i : Instruction} {j : Joint} {flat : Code} {last id a b remaining : Int} :
      Joint.ofName? i.name = some j → j.isLoop = false →
      g.node? id = some (.fork id i.name [a, b]) →
      Laid g (flatten (arm i 0)) remaining [] a → Laid g (flatten (arm i 1)) remaining [] b →
      Laid g flat last [] remaining → Ready g (i :: flat) last [] id
  | loop {i : Instruction} {j : Joint} {flat : Code} {last id a back remaining : Int} :
      Joint.ofName? i.name = some j → j.isLoop = true →
      g.node? id = some (.fork id i.name [a, remaining]) → g.ComesBack j back id →
      Laid g (flatten (arm i 0)) back [] a → Laid g flat last [] remaining →
      Ready g (i :: flat) last [] id

end

/-! ## Splitting flat code -/

theorem marker_straight (delta : Int) : Joint.ofName? (marker delta).name = none := rfl

theorem joint_apart {i : Instruction} {j : Joint} (found : Joint.ofName? i.name = some j) :
    i.isGroup = false ∧ i.name ≠ "DIP" := by
  rw [Instruction.isGroup, ← Joint.ofName?_name found]
  cases j <;> decide

theorem splitAtJoint?_none {flat : Code} (straight : splitAtJoint? flat = none) :
    ∀ i ∈ flat, Joint.ofName? i.name = none := by
  induction flat with
  | nil => simp
  | cons k rest ih =>
    unfold splitAtJoint? at straight
    split at straight
    · contradiction
    · rename_i none
      exact List.forall_mem_cons.mpr ⟨none, ih (Option.map_eq_none_iff.mp straight)⟩

theorem splitAtJoint?_some {flat before after : Code} {j : Joint} {i : Instruction}
    (split : splitAtJoint? flat = some (before, j, i, after)) :
    flat = before ++ i :: after ∧ Joint.ofName? i.name = some j ∧
      ∀ k ∈ before, Joint.ofName? k.name = none := by
  induction flat generalizing before with
  | nil => contradiction
  | cons k rest ih =>
    unfold splitAtJoint? at split
    split at split
    · rename_i found
      cases Option.some.inj split
      exact ⟨rfl, found, by simp⟩
    · rename_i none
      obtain ⟨⟨front, j', i', back⟩, inner, same⟩ := Option.map_eq_some_iff.mp split
      cases same
      obtain ⟨rfl, found, straight⟩ := ih inner
      exact ⟨rfl, found, List.forall_mem_cons.mpr ⟨none, straight⟩⟩

theorem laid_straight {g : Graph} {before after pending : Code} {last next : Int}
    (straight : ∀ i ∈ before, Joint.ofName? i.name = none)
    (rest : Laid g after last pending next) :
    Laid g (before ++ after) last (before ++ pending) next := by
  induction before with
  | nil => exact rest
  | cons i is ih =>
    obtain ⟨first, others⟩ := List.forall_mem_cons.mp straight
    exact .ready (.run first (ih others))

/-! ## One level of compilation -/

/-- Adds a tube and the joint behind it, which has no edges yet. -/
def forked (nodes : Array Node) (before : Code) (j : Joint) : Array Node :=
  (nodes.push (.tube nodes.size before (nodes.size + 1))).push (.fork (nodes.size + 1) j.name [])

/-- Compiles an arm, if there is one. -/
def compileArm (code : Option Code) (last : Int) (nodes : Array Node) : Int × Array Node :=
  match code with
  | some code => compileFlat (flatten code) last nodes
  | none => (last, nodes)

section Level

variable {flat before after : Code} {j : Joint} {i : Instruction} {last : Int} {nodes : Array Node}

theorem compileFlat_straight (straight : splitAtJoint? flat = none) :
    compileFlat flat last nodes =
      if flat.isEmpty && last == noNode then (terminalId, nodes)
      else ((nodes.size : Int), nodes.push (.tube nodes.size flat last)) := by
  rw [compileFlat]
  split
  · rfl
  · rename_i found
    simp [straight] at found

theorem compileFlat_joint (split : splitAtJoint? flat = some (before, j, i, after)) :
    compileFlat flat last nodes =
      let remaining := compileFlat after last nodes
      let tube := remaining.2.size
      let nodes := forked remaining.2 before j
      let back : Int × Array Node :=
        if j = .iter then (nodes.size, nodes.push (.tube nodes.size [marker (-1)] (tube + 1)))
        else (tube + 1, nodes)
      let first := compileArm i.codeArgs[0]? (if j.isLoop then back.1 else remaining.1) back.2
      let second := if j.isLoop then (remaining.1, first.2)
        else compileArm i.codeArgs[1]? remaining.1 first.2
      ((tube : Int), second.2.setIfInBounds (tube + 1)
        (.fork (tube + 1) j.name [first.1, second.1])) := by
  rw [compileFlat]
  split
  · rename_i none
    simp [split] at none
  · rename_i before' j' i' after' found
    cases Option.some.inj (split.symm.trans found)
    simp only [compileArm, forked]
    cases j.isLoop with
    | true => cases i.codeArgs[0]? <;> simp
    | false => cases i.codeArgs[0]? <;> cases i.codeArgs[1]? <;> simp

end Level

/-! ## What compilation adds -/

/-- Nodes were added, and those before them stayed. -/
structure Added (nodes nodes' : Array Node) : Prop where
  size : nodes.size ≤ nodes'.size
  old : ∀ k < nodes.size, nodes'[k]? = nodes[k]?

/-- A graph has the nodes that were added to `nodes`. -/
def Graph.Holds (g : Graph) (nodes nodes' : Array Node) : Prop :=
  ∀ k, nodes.size ≤ k → k < nodes'.size → g.nodes[k]? = nodes'[k]?

section Added

variable {A B C : Array Node} {g : Graph}

theorem added_refl : Added A A := ⟨Nat.le_refl _, fun _ _ => rfl⟩

theorem added_trans (first : Added A B) (second : Added B C) : Added A C := by
  refine ⟨Nat.le_trans first.size second.size, fun k small => ?_⟩
  rw [second.old k (Nat.lt_of_lt_of_le small first.size), first.old k small]

theorem added_push (n : Node) : Added A (A.push n) := by
  refine ⟨by simp, fun k small => ?_⟩
  rw [Array.getElem?_push_lt small, Array.getElem?_eq_getElem small]

theorem added_set {k : Nat} (new : A.size ≤ k) (added : Added A B) (n : Node) :
    Added A (B.setIfInBounds k n) := by
  refine ⟨by simpa using added.size, fun m small => ?_⟩
  rw [Array.getElem?_setIfInBounds_ne (by omega), added.old m small]

theorem holds_left (holds : g.Holds A C) (added : Added B C) : g.Holds A B := by
  intro k new small
  rw [holds k new (Nat.lt_of_lt_of_le small added.size), added.old k small]

theorem holds_right (holds : g.Holds A C) (added : Added A B) : g.Holds B C :=
  fun k new small => holds k (Nat.le_trans added.size new) small

theorem node?_natCast (g : Graph) (k : Nat) : g.node? k = g.nodes[k]? := by
  rw [Graph.node?, if_neg (by omega), Int.toNat_natCast]

theorem holds_push {n : Node} (holds : g.Holds A (A.push n)) : g.node? A.size = some n := by
  rw [node?_natCast, holds A.size (Nat.le_refl _) (by simp), Array.getElem?_push_size]

end Added

/-- Compilation of `flat` from `nodes` on. -/
structure Compiles (flat : Code) (last : Int) (nodes : Array Node) (entry : Int)
    (nodes' : Array Node) : Prop where
  added : Added nodes nodes'
  laid : ∀ g : Graph, g.Holds nodes nodes' →
    g.node? terminalId = some (.tube terminalId [] noNode) →
    Laid g flat last [] entry

section Joints

variable {g : Graph} {before after : Code} {j : Joint} {i : Instruction} {last r x y : Int}
  {A B C D : Array Node}

theorem added_forked : Added A (forked A before j) :=
  added_trans (added_push _) (added_push _)

/-- Where the tube and the joint stand once the joint has its edges. -/
theorem holds_forked {n : Node} (older : Added A B) (newer : Added (forked B before j) C)
    (holds : g.Holds A (C.setIfInBounds (B.size + 1) n)) :
    g.node? B.size = some (.tube B.size before (B.size + 1)) ∧
      g.node? ((B.size : Int) + 1) = some n ∧ g.Holds A B ∧ g.Holds (forked B before j) C := by
  have size : (forked B before j).size = B.size + 2 := by simp [forked]
  have below := older.size
  have above := newer.size
  rw [size] at above
  have other : ∀ k, A.size ≤ k → k < C.size → k ≠ B.size + 1 → g.nodes[k]? = C[k]? := by
    intro k new small apart
    rw [holds k new (by simpa using small), Array.getElem?_setIfInBounds_ne (by omega)]
  refine ⟨?_, ?_, ?_, ?_⟩
  · rw [node?_natCast, other B.size below (by omega) (by omega), newer.old B.size (by omega)]
    rw [forked, Array.getElem?_push, if_neg (by simp), Array.getElem?_push, if_pos rfl]
  · have cast : ((B.size : Int) + 1) = ((B.size + 1 : Nat) : Int) := by simp
    rw [cast, node?_natCast, holds (B.size + 1) (by omega) (by simp; omega)]
    simp [Array.getElem?_setIfInBounds]
    omega
  · intro k new small
    rw [other k new (by omega) (by omega), newer.old k (by omega), added_forked.old k small]
  · intro k new small
    rw [size] at new
    exact other k (by omega) small (by omega)

theorem compiles_fork (found : Joint.ofName? i.name = some j) (branches : j.isLoop = false)
    (straight : ∀ k ∈ before, Joint.ofName? k.name = none)
    (remaining : Compiles after last A r B)
    (first : Compiles (flatten (arm i 0)) r (forked B before j) x C)
    (second : Compiles (flatten (arm i 1)) r C y D) :
    Compiles (before ++ i :: after) last A B.size
      (D.setIfInBounds (B.size + 1) (.fork (B.size + 1) j.name [x, y])) := by
  have newer := added_trans first.added second.added
  have all := added_trans (added_trans remaining.added added_forked) newer
  refine ⟨added_set (Nat.le_succ_of_le remaining.added.size) all _, fun g holds terminal => ?_⟩
  obtain ⟨tube, joint, rest, inside⟩ := holds_forked remaining.added newer holds
  rw [Joint.ofName?_name found] at joint
  have before := remaining.laid g rest terminal
  have left := first.laid g (holds_left inside second.added) terminal
  have right := second.laid g (holds_right inside first.added) terminal
  have code := laid_straight straight (.ready (.fork found branches joint left right before))
  rw [List.append_nil] at code
  exact .enter tube rfl code

theorem compiles_loop {back : Int} (found : Joint.ofName? i.name = some j) (loops : j.isLoop = true)
    (straight : ∀ k ∈ before, Joint.ofName? k.name = none)
    (remaining : Compiles after last A r B) (turn : Added (forked B before j) C)
    (comesBack : ∀ g : Graph, g.Holds (forked B before j) C → g.ComesBack j back (B.size + 1))
    (first : Compiles (flatten (arm i 0)) back C x D) :
    Compiles (before ++ i :: after) last A B.size
      (D.setIfInBounds (B.size + 1) (.fork (B.size + 1) j.name [x, r])) := by
  have newer := added_trans turn first.added
  have all := added_trans (added_trans remaining.added added_forked) newer
  refine ⟨added_set (Nat.le_succ_of_le remaining.added.size) all _, fun g holds terminal => ?_⟩
  obtain ⟨tube, joint, rest, inside⟩ := holds_forked remaining.added newer holds
  rw [Joint.ofName?_name found] at joint
  have before := remaining.laid g rest terminal
  have turned := comesBack g (holds_left inside first.added)
  have body := first.laid g (holds_right inside turn) terminal
  have code := laid_straight straight (.ready (.loop found loops joint turned body before))
  rw [List.append_nil] at code
  exact .enter tube rfl code

end Joints

theorem compiles_straight {flat : Code} (straight : ∀ i ∈ flat, Joint.ofName? i.name = none)
    (last : Int) (nodes : Array Node) :
    Compiles flat last nodes nodes.size (nodes.push (.tube nodes.size flat last)) := by
  refine ⟨added_push _, fun g holds _ => ?_⟩
  have code := laid_straight straight (.ready (@Ready.done g last))
  rw [List.append_nil] at code
  exact .enter (holds_push holds) rfl code

theorem compileFlat_compiles (flat : Code) (last : Int) (nodes : Array Node) :
    Compiles flat last nodes (compileFlat flat last nodes).1 (compileFlat flat last nodes).2 := by
  induction count : jointCount flat using Nat.strongRecOn generalizing flat last nodes with
  | ind n ih =>
    cases split : splitAtJoint? flat with
    | none =>
      have straight := splitAtJoint?_none split
      rw [compileFlat_straight split]
      split
      · rename_i empty
        simp only [Bool.and_eq_true, List.isEmpty_iff, beq_iff_eq] at empty
        obtain ⟨rfl, rfl⟩ := empty
        exact ⟨added_refl, fun g _ terminal => .enter terminal rfl (.ready .done)⟩
      · exact compiles_straight straight last nodes
    | some parts =>
      obtain ⟨before, j, i, after⟩ := parts
      obtain ⟨rfl, found, straight⟩ := splitAtJoint?_some split
      have fewer := jointCount_split split
      have remaining := ih (jointCount after) (by omega) after last nodes rfl
      have arms : ∀ k last nodes, Compiles (flatten (arm i k)) last nodes
          (compileArm i.codeArgs[k]? last nodes).1 (compileArm i.codeArgs[k]? last nodes).2 := by
        intro k last nodes
        cases code : i.codeArgs[k]? with
        | none =>
          rw [arm, code, Option.getD_none, flatten_nil]
          exact ⟨added_refl, fun g _ _ => .ready .done⟩
        | some code' =>
          rw [arm, code]
          have bound := jointCount_arm code
          exact ih (jointCount (flatten code')) (by omega) (flatten code') last nodes rfl
      rw [compileFlat_joint split]
      cases loops : j.isLoop with
      | false =>
        have other : j ≠ .iter := by
          rintro rfl
          cases loops
        simp only [if_neg other, Bool.false_eq_true, if_false]
        exact compiles_fork found loops straight remaining (arms 0 _ _) (arms 1 _ _)
      | true =>
        simp only [if_true]
        by_cases iter : j = .iter
        · simp only [if_pos iter]
          refine compiles_loop found loops straight remaining (added_push _) ?_ (arms 0 _ _)
          intro g holds
          rw [Graph.ComesBack, if_pos iter]
          exact holds_push holds
        · simp only [if_neg iter]
          refine compiles_loop found loops straight remaining added_refl ?_ (arms 0 _ _)
          intro g _
          simp [Graph.ComesBack, iter]

/-- Compiled code lies at the root of its graph. -/
theorem build_laid (code : Code) :
    Laid (Graph.build code) (flatten code) noNode [] (Graph.build code).root := by
  have compiled := compileFlat_compiles (flatten code) noNode #[.tube terminalId [] noNode]
  refine compiled.laid (Graph.build code) (fun k _ _ => rfl) ?_
  have old := compiled.added.old 0 (by simp)
  rw [terminalId, ← Int.natCast_zero, node?_natCast]
  exact old

end StackFlow
