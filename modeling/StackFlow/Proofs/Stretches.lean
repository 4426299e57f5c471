import Mathlib.Algebra.BigOperators.Group.Multiset.Basic
import Mathlib.Algebra.Order.BigOperators.Group.List
import Mathlib.Tactic.Abel
import StackFlow.Proofs.WellFormed

/-!
Each piece of code is compiled once. The compiled lists are the flat code and, for each branching
instruction in one of them, the arms that it has a use for. Main statement: the tubes of a compiled
graph hold the stretches between the branching instructions of these lists and one way back for each
iteration, nothing else and nothing twice, so the graph is linear in the code.
-/

namespace StackFlow

open Micheline (Arg Instruction Code)

def Micheline.Instruction.branches (i : Instruction) : Bool := (Joint.ofName? i.name).isSome

/-- The code arguments of an instruction that are compiled: the arms of a conditional, the body of
a loop. -/
def compiledArms (i : Instruction) : List Code :=
  match Joint.ofName? i.name with
  | some j => i.codeArgs.take (if j.isLoop then 1 else 2)
  | none => []

/-! ## Compiled lists -/

section Arms

variable {i : Instruction} {flat before after a : Code}

theorem jointCount_codeArgs (args : List Arg) :
    ((args.filterMap Arg.code?).map jointCount).sum = jointsOfArgs args := by
  induction args with
  | nil => rfl
  | cons a as ih =>
    cases a with
    | literal e => rw [List.filterMap_cons_none rfl, jointsOfArgs, ih]
    | code body =>
      have given : (Arg.code body).code? = some body := rfl
      rw [List.filterMap_cons_some given, List.map_cons, List.sum_cons, jointsOfArgs, ih]

theorem jointCount_compiledArms (i : Instruction) :
    (if i.branches then 1 else 0) + ((compiledArms i).map jointCount).sum ≤ jointsOf i := by
  unfold compiledArms Instruction.branches
  cases found : Joint.ofName? i.name with
  | none => simp
  | some j =>
    have own := jointsOf_of_joint found
    have part := (List.take_sublist (if j.isLoop then 1 else 2) i.codeArgs).map jointCount
    have less := part.sum_le_sum fun _ _ => Nat.zero_le _
    have all : (i.codeArgs.map jointCount).sum = jointsOfArgs i.args := jointCount_codeArgs i.args
    simp only [Option.isSome_some, if_true]
    omega

theorem jointCount_arms (flat : Code) :
    flat.countP Instruction.branches + ((flat.flatMap compiledArms).map jointCount).sum ≤
      jointCount flat := by
  induction flat with
  | nil => simp
  | cons i is ih =>
    have own := jointCount_compiledArms i
    simp only [List.countP_cons, List.flatMap_cons, List.map_append, List.sum_append, jointCount]
    omega

theorem branches_of_arm (arm : a ∈ compiledArms i) : i.branches := by
  unfold compiledArms at arm
  split at arm
  · rename_i found
    simp [Instruction.branches, found]
  · cases arm

theorem jointCount_compiledArm (member : a ∈ flat.flatMap compiledArms) :
    jointCount (flatten a) < jointCount flat := by
  obtain ⟨i, inside, arm⟩ := List.mem_flatMap.mp member
  have some : 0 < flat.countP Instruction.branches :=
    List.countP_pos_iff.mpr ⟨i, inside, branches_of_arm arm⟩
  have all := jointCount_arms flat
  have part := List.le_sum_of_mem (List.mem_map_of_mem (f := jointCount) member)
  have less := jointCount_flatten a
  omega

theorem length_compiledArms (i : Instruction) :
    (compiledArms i).length ≤ if i.branches then 2 else 0 := by
  unfold compiledArms Instruction.branches
  cases Joint.ofName? i.name with
  | none => simp
  | some j =>
    have bound : (if j.isLoop then 1 else 2) ≤ 2 := by split <;> omega
    simp only [List.length_take, Option.isSome_some, if_true]
    omega

theorem length_arms (flat : Code) :
    (flat.flatMap compiledArms).length ≤ 2 * flat.countP Instruction.branches := by
  induction flat with
  | nil => simp
  | cons i is ih =>
    have own := length_compiledArms i
    simp only [List.flatMap_cons, List.length_append, List.countP_cons]
    split at own
    · rename_i branches
      simp only [branches, if_true]
      omega
    · rename_i straight
      simp only [straight, Bool.false_eq_true, if_false]
      omega

end Arms

/-- Flat code, and the lists that are compiled for the arms of its branching instructions. -/
def compiledLists (flat : Code) : List Code :=
  flat :: (flat.flatMap compiledArms).attach.flatMap fun a => compiledLists (flatten a.val)
termination_by jointCount flat
decreasing_by exact jointCount_compiledArm a.property

theorem compiledLists_eq (flat : Code) : compiledLists flat =
    flat :: (flat.flatMap compiledArms).flatMap fun a => compiledLists (flatten a) := by
  rw [compiledLists, List.flatMap_subtype, List.unattach_attach]
  intro a member
  rfl

/-- The branching instructions that are compiled. -/
def compiledJoints (flat : Code) : List Instruction :=
  (compiledLists flat).flatMap (·.filter Instruction.branches)

/-- The way back to each compiled iteration shows its collection again. -/
def waysBack (flat : Code) : List Code :=
  ((compiledJoints flat).filter (·.name = Joint.iter.name)).map fun _ => [marker (-1)]

/-- The straight pieces of flat code, between its branching instructions. -/
def stretches (flat : Code) : List Code := flat.splitOnP Instruction.branches

/-- A piece of a list without branching instructions, at whose ends the list ends or branches. -/
def CutOut (flat s : Code) : Prop :=
  ∃ before after, flat = before ++ s ++ after ∧ (∀ i ∈ s, i.branches = false) ∧
    (∀ i ∈ before.getLast?, i.branches) ∧ ∀ i ∈ after.head?, i.branches

/-- The code ends with a branching instruction, or has no instruction at all. -/
def leavesNothing (flat : Code) : Bool := flat.getLast?.all Instruction.branches

namespace Graph

def tubeCodes (g : Graph) : List Code := (g.nodes.toList.filter (·.kind = .tube)).map Node.code

def jointNames (g : Graph) : List String := (g.nodes.toList.filter (·.kind = .joint)).map Node.joint

end Graph

section Stretches

variable {i : Instruction} {flat before after s : Code} {j : Joint}

theorem branches_of_joint (found : Joint.ofName? i.name = some j) : i.branches := by
  simp [Instruction.branches, found]

theorem not_branches (straight : Joint.ofName? i.name = none) : i.branches = false := by
  simp [Instruction.branches, straight]

theorem stretches_straight (straight : ∀ k ∈ flat, k.branches = false) :
    stretches flat = [flat] :=
  List.splitOnP_eq_singleton straight

theorem stretches_joint (straight : ∀ k ∈ before, k.branches = false) (branches : i.branches) :
    stretches (before ++ i :: after) = before :: stretches after := by
  rw [stretches, List.splitOnP_append_cons _ _ branches, List.splitOnP_eq_singleton straight]
  rfl

/-- Flat code is straight, or is taken apart at its first branching instruction. -/
theorem flat_induction {motive : Code → Prop}
    (straight : ∀ flat, (∀ k ∈ flat, k.branches = false) → motive flat)
    (joint : ∀ before i after, (∀ k ∈ before, k.branches = false) → i.branches → motive after →
      motive (before ++ i :: after)) (flat : Code) : motive flat := by
  induction count : flat.length using Nat.strongRecOn generalizing flat with
  | ind n ih =>
    cases split : splitAtJoint? flat with
    | none => exact straight flat fun k member => not_branches (splitAtJoint?_none split k member)
    | some parts =>
      obtain ⟨before, j, i, after⟩ := parts
      obtain ⟨rfl, found, apart⟩ := splitAtJoint?_some split
      refine joint before i after (fun k member => not_branches (apart k member))
        (branches_of_joint found) (ih after.length ?_ after rfl)
      simp only [List.length_append, List.length_cons] at count
      omega

theorem cutOut_of_stretch (member : s ∈ stretches flat) : CutOut flat s := by
  induction flat using flat_induction with
  | straight flat straight =>
    rw [stretches_straight straight] at member
    cases List.mem_singleton.mp member
    exact ⟨[], [], by simp, straight, by simp, by simp⟩
  | joint front i back straight branches ih =>
    rw [stretches_joint straight branches] at member
    rcases List.mem_cons.mp member with rfl | later
    · exact ⟨[], i :: back, by simp, straight, by simp, by simpa using branches⟩
    · obtain ⟨before, after, rfl, apart, left, right⟩ := ih later
      refine ⟨front ++ i :: before, after, by simp, apart, ?_, right⟩
      cases before with
      | nil => simpa using branches
      | cons k ks => simpa [List.getLast?_cons_cons] using left

theorem flatten_stretches (flat : Code) :
    (stretches flat).flatten = flat.filter (!·.branches) := by
  induction flat using flat_induction with
  | straight flat straight =>
    rw [stretches_straight straight, List.flatten_singleton, List.filter_eq_self.mpr]
    simpa using straight
  | joint before i after straight branches ih =>
    have kept : before.filter (!·.branches) = before :=
      List.filter_eq_self.mpr (by simpa using straight)
    rw [stretches_joint straight branches, List.flatten_cons, ih, List.filter_append, kept,
      List.filter_cons_of_neg (by simp [branches])]

theorem leavesNothing_joint (branches : i.branches) :
    leavesNothing (before ++ i :: after) = leavesNothing after := by
  cases after with
  | nil => simp [leavesNothing, branches]
  | cons k ks =>
    rw [leavesNothing, List.getLast?_append_cons, List.getLast?_cons_cons]
    rfl

theorem leavesNothing_straight (straight : ∀ k ∈ flat, k.branches = false) :
    leavesNothing flat = flat.isEmpty := by
  cases last : flat.getLast? with
  | none =>
    cases List.getLast?_eq_none_iff.mp last
    rfl
  | some k =>
    have member := List.mem_of_getLast? last
    rw [leavesNothing, last, Option.all_some, straight k member]
    cases flat with
    | nil => cases member
    | cons => rfl

end Stretches

/-! ## Weights -/

section Weight

variable {M : Type} [AddCommMonoid M] (tube : Code → M) (joint : String → M)

def Node.weight (n : Node) : M :=
  match n.kind with
  | .tube => tube n.code
  | .joint => joint n.joint
  | .other => 0

def weight (nodes : Array Node) : M := (nodes.toList.map (Node.weight tube joint)).sum

/-- The nodes for a branching instruction itself. -/
def jointWeight (i : Instruction) : M :=
  joint i.name + if i.name = Joint.iter.name then tube [marker (-1)] else 0

def listWeight (flat : Code) : M :=
  ((stretches flat).map tube).sum +
    ((flat.filter Instruction.branches).map (jointWeight tube joint)).sum

def totalWeight (flat : Code) : M := ((compiledLists flat).map (listWeight tube joint)).sum

def armWeight (code : Option Code) : M :=
  match code with
  | some code => totalWeight tube joint (flatten code)
  | none => 0

/-- What is not added where there is nothing left to run: the terminal node stands for it. -/
def restWeight (flat : Code) (last : Int) : M :=
  if last = noNode ∧ leavesNothing flat then tube [] else 0

variable {tube joint} {nodes B C : Array Node} {flat before after : Code} {i : Instruction}
  {j : Joint} {last : Int}

@[simp] theorem weight_tube (id next : Int) (code : Code) :
    (Node.tube id code next).weight tube joint = tube code := rfl

@[simp] theorem weight_fork (id : Int) (name : String) (edges : List Int) :
    (Node.fork id name edges).weight tube joint = joint name := rfl

@[simp] theorem weight_push (n : Node) :
    weight tube joint (nodes.push n) = weight tube joint nodes + n.weight tube joint := by
  simp [weight]

theorem weight_set {k : Nat} {n n' : Node} (there : nodes[k]? = some n)
    (same : n'.weight tube joint = n.weight tube joint) :
    weight tube joint (nodes.setIfInBounds k n') = weight tube joint nodes := by
  obtain ⟨inside, rfl⟩ := Array.getElem?_eq_some_iff.mp there
  rw [weight, weight, Array.toList_setIfInBounds, List.map_set, same]
  congr 1
  have inside' : k < (nodes.toList.map (Node.weight tube joint)).length := by simpa using inside
  simpa using List.set_getElem_self inside'

/-- The edges of a joint weigh nothing, so it does not matter when they are set. -/
theorem weight_edges {edges : List Int} (newer : Added (forked B before j) C) :
    weight tube joint
        (C.setIfInBounds (B.size + 1) (.fork ((B.size : Int) + 1) j.name edges)) =
      weight tube joint C := by
  have there : C[B.size + 1]? = some (.fork (B.size + 1) j.name []) := by
    have size : (B.push (.tube B.size before (B.size + 1))).size = B.size + 1 := by simp
    rw [newer.old (B.size + 1) (by simp [forked]), forked, ← size, Array.getElem?_push_size]
  exact weight_set there rfl

theorem listWeight_straight (straight : ∀ k ∈ flat, k.branches = false) :
    listWeight tube joint flat = tube flat := by
  have none : flat.filter Instruction.branches = [] :=
    List.filter_eq_nil_iff.mpr fun k member => by simp [straight k member]
  simp [listWeight, stretches_straight straight, none]

theorem listWeight_joint (straight : ∀ k ∈ before, k.branches = false) (branches : i.branches) :
    listWeight tube joint (before ++ i :: after) =
      tube before + jointWeight tube joint i + listWeight tube joint after := by
  have none : before.filter Instruction.branches = [] :=
    List.filter_eq_nil_iff.mpr fun k member => by simp [straight k member]
  simp only [listWeight, stretches_joint straight branches, List.filter_append, none,
    List.filter_cons_of_pos branches, List.map_cons, List.nil_append, List.sum_cons]
  abel

theorem compiledArms_straight (straight : ∀ k ∈ flat, k.branches = false) :
    flat.flatMap compiledArms = [] := by
  rw [List.flatMap_eq_nil_iff]
  intro k member
  by_contra some
  obtain ⟨a, arm⟩ := List.exists_mem_of_ne_nil _ some
  exact absurd (branches_of_arm arm) (by simp [straight k member])

theorem totalWeight_eq (flat : Code) : totalWeight tube joint flat = listWeight tube joint flat +
    ((flat.flatMap compiledArms).map fun a => totalWeight tube joint (flatten a)).sum := by
  rw [totalWeight, compiledLists_eq, List.map_cons, List.sum_cons, List.map_flatMap, List.flatMap_def,
    List.sum_flatten, List.map_map]
  rfl

theorem totalWeight_straight (straight : ∀ k ∈ flat, k.branches = false) :
    totalWeight tube joint flat = tube flat := by
  rw [totalWeight_eq, listWeight_straight straight, compiledArms_straight straight]
  simp

theorem totalWeight_joint (straight : ∀ k ∈ before, k.branches = false) (branches : i.branches) :
    totalWeight tube joint (before ++ i :: after) = tube before + jointWeight tube joint i +
      ((compiledArms i).map fun a => totalWeight tube joint (flatten a)).sum +
      totalWeight tube joint after := by
  rw [totalWeight_eq, totalWeight_eq after, listWeight_joint straight branches]
  simp only [List.flatMap_append, List.flatMap_cons, compiledArms_straight straight,
    List.nil_append, List.map_append, List.sum_append]
  abel

theorem compileFlat_active (flat : Code) (last : Int) (nodes : Array Node) :
    (compileFlat flat last nodes).1 ≠ noNode := by
  cases split : splitAtJoint? flat with
  | none =>
    rw [compileFlat_straight split]
    split
    · exact (by decide : terminalId ≠ noNode)
    · simp only [noNode]
      omega
  | some parts =>
    rw [compileFlat_joint split]
    simp only [noNode]
    omega

theorem restWeight_active (active : last ≠ noNode) : restWeight tube flat last = 0 := by
  rw [restWeight, if_neg fun ended => active ended.1]

theorem added_compileArm (code : Option Code) (last : Int) (nodes : Array Node) :
    Added nodes (compileArm code last nodes).2 := by
  cases code with
  | none => exact added_refl
  | some code => exact (compileFlat_compiles (flatten code) last nodes).added

theorem weight_forked : weight tube joint (forked nodes before j) =
    weight tube joint nodes + tube before + joint j.name := by
  simp [forked]

theorem restWeight_joint (branches : i.branches) :
    restWeight tube (before ++ i :: after) last = restWeight tube after last := by
  rw [restWeight, restWeight, leavesNothing_joint branches]

theorem jointWeight_eq (found : Joint.ofName? i.name = some j) : jointWeight tube joint i =
    joint j.name + if j = .iter then tube [marker (-1)] else 0 := by
  have same : i.name = Joint.iter.name ↔ j = .iter := by
    rw [← Joint.ofName?_name found]
    cases j <;> decide
  simp only [jointWeight, same, Joint.ofName?_name found]

theorem compiledArms_weight (found : Joint.ofName? i.name = some j) :
    ((compiledArms i).map fun a => totalWeight tube joint (flatten a)).sum =
      armWeight tube joint i.codeArgs[0]? +
        if j.isLoop then 0 else armWeight tube joint i.codeArgs[1]? := by
  simp only [compiledArms, found]
  rcases i.codeArgs with _ | ⟨a, _ | ⟨b, rest⟩⟩ <;> cases j.isLoop <;> simp [armWeight]

/-- What a level adds is added to what was compiled behind it. -/
theorem weight_behind {whole behind rest first total own : M} (compiled : behind + rest = first + total)
    (level : whole = behind + own) : whole + rest = first + (own + total) := by
  calc whole + rest = behind + rest + own := by rw [level]; abel
    _ = first + (own + total) := by rw [compiled]; abel

variable (tube joint)

theorem weight_compileFlat (flat : Code) (last : Int) (nodes : Array Node) :
    weight tube joint (compileFlat flat last nodes).2 + restWeight tube flat last =
      weight tube joint nodes + totalWeight tube joint flat := by
  -- on the number of branching instructions, since the arms are no parts of the flat code
  induction count : jointCount flat using Nat.strongRecOn generalizing flat last nodes with
  | ind n ih =>
    cases split : splitAtJoint? flat with
    | none =>
      have straight : ∀ k ∈ flat, k.branches = false :=
        fun k member => not_branches (splitAtJoint?_none split k member)
      rw [compileFlat_straight split, totalWeight_straight straight, restWeight,
        leavesNothing_straight straight]
      split
      · rename_i empty
        simp only [Bool.and_eq_true, beq_iff_eq] at empty
        rw [if_pos ⟨empty.2, empty.1⟩, List.isEmpty_iff.mp empty.1]
      · rename_i some
        rw [if_neg (by simpa [and_comm] using some), add_zero, weight_push, weight_tube]
    | some parts =>
      obtain ⟨before, j, i, after⟩ := parts
      obtain ⟨rfl, found, apart⟩ := splitAtJoint?_some split
      have straight : ∀ k ∈ before, k.branches = false :=
        fun k member => not_branches (apart k member)
      have fewer := jointCount_split split
      have remaining := ih (jointCount after) (by omega) after last nodes rfl
      -- an arm goes on to a node, so the terminal node never stands for its end
      have arms : ∀ (k : Nat) last nodes, last ≠ noNode →
          weight tube joint (compileArm i.codeArgs[k]? last nodes).2 =
            weight tube joint nodes + armWeight tube joint i.codeArgs[k]? := by
        intro k last nodes active
        cases code : i.codeArgs[k]? with
        | none => exact (add_zero _).symm
        | some code' =>
          have bound := jointCount_arm code
          have arm := ih (jointCount (flatten code')) (by omega) (flatten code') last nodes rfl
          rwa [restWeight_active active, add_zero] at arm
      have active := compileFlat_active after last nodes
      have branches := branches_of_joint found
      rw [compileFlat_joint split, restWeight_joint branches, totalWeight_joint straight branches,
        jointWeight_eq found, compiledArms_weight found]
      cases loops : j.isLoop with
      | false =>
        have other : j ≠ .iter := by
          rintro rfl
          cases loops
        simp only [if_neg other, Bool.false_eq_true, if_false]
        rw [weight_edges (added_trans (added_compileArm _ _ _) (added_compileArm _ _ _)),
          arms 1 _ _ active, arms 0 _ _ active, weight_forked]
        exact weight_behind remaining (by abel)
      | true =>
        simp only [if_true]
        by_cases iter : j = .iter
        · simp only [if_pos iter]
          rw [weight_edges (added_trans (added_push _) (added_compileArm _ _ _)),
            arms 0 _ _ (by simp only [noNode]; omega), weight_push, weight_forked, weight_tube]
          exact weight_behind remaining (by abel)
        · simp only [if_neg iter]
          rw [weight_edges (added_compileArm _ _ _), arms 0 _ _ (by simp only [noNode]; omega),
            weight_forked]
          exact weight_behind remaining (by abel)

theorem build_weight (code : Code) :
    weight tube joint (Graph.build code).nodes + restWeight tube (flatten code) noNode =
      tube [] + totalWeight tube joint (flatten code) := by
  have compiled := weight_compileFlat tube joint (flatten code) noNode
    #[.tube terminalId [] noNode]
  simpa [Graph.build, weight] using compiled

theorem sum_flatMap {α β : Type} (l : List α) (f : α → List β) (w : β → M) :
    ((l.flatMap f).map w).sum = (l.map fun a => ((f a).map w).sum).sum := by
  rw [List.map_flatMap, List.flatMap_def, List.sum_flatten, List.map_map]
  rfl

theorem totalWeight_parts (flat : Code) : totalWeight tube joint flat =
    (((compiledLists flat).flatMap stretches).map tube).sum +
      ((compiledJoints flat).map (jointWeight tube joint)).sum := by
  rw [compiledJoints, sum_flatMap, sum_flatMap, ← List.sum_map_add]
  rfl

end Weight

/-! ## Tubes and joints -/

section Parts

variable {flat : Code}

theorem sum_singletons {α : Type} (l : List α) :
    (l.map fun a => ({a} : Multiset α)).sum = (l : Multiset α) := by
  rw [← Multiset.sum_coe, ← Multiset.map_coe, Multiset.sum_map_singleton]

theorem weight_tubeCodes (g : Graph) :
    weight (fun c => ({c} : Multiset Code)) (fun _ => 0) g.nodes = g.tubeCodes := by
  rw [weight, Graph.tubeCodes, ← sum_singletons]
  induction g.nodes.toList with
  | nil => rfl
  | cons n ns ih =>
    rw [List.map_cons, List.sum_cons, ih]
    cases kind : n.kind <;> simp [Node.weight, kind]

theorem weight_jointNames (g : Graph) :
    weight (fun _ => 0) (fun name => ({name} : Multiset String)) g.nodes = g.jointNames := by
  rw [weight, Graph.jointNames, ← sum_singletons]
  induction g.nodes.toList with
  | nil => rfl
  | cons n ns ih =>
    rw [List.map_cons, List.sum_cons, ih]
    cases kind : n.kind <;> simp [Node.weight, kind]

theorem sum_waysBack (joints : List Instruction) :
    (joints.map (jointWeight (fun c => ({c} : Multiset Code)) fun _ => 0)).sum =
      (((joints.filter (·.name = Joint.iter.name)).map fun _ => [marker (-1)] : List Code) :
        Multiset Code) := by
  induction joints with
  | nil => rfl
  | cons i is ih =>
    rw [List.map_cons, List.sum_cons, ih]
    by_cases turns : i.name = Joint.iter.name <;> simp [jointWeight, turns]

/-- The codes of the tubes: the terminal's own, unless code without a rest ends there, then the
stretches, then the ways back to iterations. -/
theorem build_tubeCodes (code : Code) : (Graph.build code).tubeCodes.Perm
    ((if leavesNothing (flatten code) then [] else [[]]) ++
      ((compiledLists (flatten code)).flatMap stretches ++ waysBack (flatten code))) := by
  -- a tube weighs the multiset of its code, a joint nothing
  have weights := build_weight (fun c => ({c} : Multiset Code)) (fun _ => 0) code
  rw [totalWeight_parts, weight_tubeCodes, sum_singletons, sum_waysBack, restWeight] at weights
  rw [← Multiset.coe_eq_coe]
  cases rest : leavesNothing (flatten code) with
  | true =>
    rw [if_pos ⟨rfl, rest⟩, add_comm] at weights
    simpa [waysBack] using weights
  | false =>
    rw [if_neg (by simp [rest]), add_zero] at weights
    simpa [waysBack] using weights

theorem build_jointNames (code : Code) :
    (Graph.build code).jointNames.Perm ((compiledJoints (flatten code)).map Instruction.name) := by
  have weights := build_weight (fun _ => 0) (fun name => ({name} : Multiset String)) code
  have named : jointWeight (fun _ => 0) (fun name => ({name} : Multiset String)) =
      fun i => {i.name} := by
    funext i
    simp [jointWeight]
  rw [totalWeight_parts, weight_jointNames, named] at weights
  rw [← Multiset.coe_eq_coe, ← sum_singletons ((compiledJoints _).map _)]
  simpa [restWeight, Function.comp_def] using weights

theorem length_stretches (flat : Code) :
    (stretches flat).length = flat.countP Instruction.branches + 1 := by
  induction flat using flat_induction with
  | straight flat straight =>
    have none : flat.countP Instruction.branches = 0 :=
      List.countP_eq_zero.mpr fun k member => by simp [straight k member]
    rw [stretches_straight straight, none]
    rfl
  | joint before i after straight branches ih =>
    have none : before.countP Instruction.branches = 0 :=
      List.countP_eq_zero.mpr fun k member => by simp [straight k member]
    rw [stretches_joint straight branches, List.length_cons, ih, List.countP_append, none,
      List.countP_cons_of_pos branches, Nat.zero_add]

theorem compiledJoints_eq (flat : Code) : compiledJoints flat = flat.filter Instruction.branches ++
    (flat.flatMap compiledArms).flatMap fun a => compiledJoints (flatten a) := by
  rw [compiledJoints, compiledLists_eq, List.flatMap_cons, List.flatMap_assoc]
  rfl

theorem length_compiledJoints (flat : Code) :
    (compiledJoints flat).length = flat.countP Instruction.branches +
      ((flat.flatMap compiledArms).map fun a => (compiledJoints (flatten a)).length).sum := by
  rw [compiledJoints_eq, List.length_append, List.length_flatMap, List.countP_eq_length_filter]

theorem length_compiledLists (flat : Code) :
    (compiledLists flat).length ≤ 1 + 2 * (compiledJoints flat).length := by
  induction flat using compiledLists.induct with
  | case1 flat ih =>
    have arms : ((flat.flatMap compiledArms).map fun a => (compiledLists (flatten a)).length).sum ≤
        ((flat.flatMap compiledArms).map fun a => 1 + 2 * (compiledJoints (flatten a)).length).sum :=
      List.sum_le_sum fun a member => ih ⟨a, member⟩
    have few := length_arms flat
    rw [List.sum_map_add, List.sum_map_mul_left, List.map_const', List.sum_replicate,
      smul_eq_mul, mul_one] at arms
    rw [compiledLists_eq, List.length_cons, List.length_flatMap, length_compiledJoints]
    omega

theorem compiledJoints_le (flat : Code) : (compiledJoints flat).length ≤ jointCount flat := by
  induction flat using compiledLists.induct with
  | case1 flat ih =>
    have arms : ((flat.flatMap compiledArms).map fun a => (compiledJoints (flatten a)).length).sum ≤
        ((flat.flatMap compiledArms).map jointCount).sum :=
      List.sum_le_sum fun a member => Nat.le_trans (ih ⟨a, member⟩) (jointCount_flatten a)
    have all := jointCount_arms flat
    rw [length_compiledJoints]
    omega

theorem length_allStretches (lists : List Code) : (lists.flatMap stretches).length =
    lists.length + (lists.flatMap (·.filter Instruction.branches)).length := by
  induction lists with
  | nil => rfl
  | cons flat lists ih =>
    simp only [List.flatMap_cons, List.length_append, List.length_cons, ih, length_stretches,
      List.countP_eq_length_filter]
    omega

theorem flatten_allStretches (lists : List Code) :
    (lists.flatMap stretches).flatten = lists.flatMap (·.filter (!·.branches)) := by
  induction lists with
  | nil => rfl
  | cons flat lists ih =>
    rw [List.flatMap_cons, List.flatten_append, flatten_stretches, ih, List.flatMap_cons]

theorem length_kinds {ns : List Node} (sorts : ∀ n ∈ ns, n.kind ≠ .other) : ns.length =
    (ns.filter (·.kind = .tube)).length + (ns.filter (·.kind = .joint)).length := by
  induction ns with
  | nil => rfl
  | cons n ns ih =>
    obtain ⟨sort, rest⟩ := List.forall_mem_cons.mp sorts
    have count := ih rest
    cases kind : n.kind with
    | other => exact absurd kind sort
    | tube | joint =>
      simp only [List.filter_cons, kind, List.length_cons, decide_true, reduceCtorEq, decide_false,
        if_true, Bool.false_eq_true, if_false]
      omega

theorem build_size (code : Code) : (Graph.build code).size =
    (Graph.build code).tubeCodes.length + (Graph.build code).jointNames.length := by
  rw [Graph.tubeCodes, Graph.jointNames, List.length_map, List.length_map, ← length_kinds]
  · simp [Graph.size]
  · intro n member
    obtain ⟨k, there⟩ := List.mem_iff_getElem?.mp member
    have found : (Graph.build code).node? k = some n := by
      rw [node?_natCast, ← there, Array.getElem?_toList]
    cases (build_wellFormed code).nodes k n found with
    | tube | joint => simp [Node.tube, Node.fork]

/-! ## Main statement -/

/-- Each instruction of the compiled lists is in one tube or is one joint of the graph, in
stretches that are cut at branching instructions only. So the graph is linear in the code. -/
theorem code_compiled_once (code : Code) :
    (Graph.build code).tubeCodes.flatten.Perm
      ((compiledLists (flatten code)).flatMap (·.filter (!·.branches)) ++
        (waysBack (flatten code)).flatten) ∧
    (Graph.build code).jointNames.Perm ((compiledJoints (flatten code)).map Instruction.name) ∧
    (Graph.build code).tubeCodes.Perm
      ((if leavesNothing (flatten code) then [] else [[]]) ++
        ((compiledLists (flatten code)).flatMap stretches ++ waysBack (flatten code))) ∧
    (∀ flat ∈ compiledLists (flatten code), ∀ s ∈ stretches flat, CutOut flat s) ∧
    (Graph.build code).size ≤ 1 + (compiledLists (flatten code)).length +
      3 * (compiledJoints (flatten code)).length ∧
    (Graph.build code).size ≤ 2 + 5 * jointCount code := by
  have tubes := build_tubeCodes code
  have joints := build_jointNames code
  have size : (Graph.build code).size ≤ 1 + (compiledLists (flatten code)).length +
      3 * (compiledJoints (flatten code)).length := by
    have all := length_allStretches (compiledLists (flatten code))
    have turns : (waysBack (flatten code)).length ≤ (compiledJoints (flatten code)).length := by
      rw [waysBack, List.length_map]
      exact List.length_filter_le _ _
    have terminal : (if leavesNothing (flatten code) then [] else [[]] : List Code).length ≤ 1 := by
      split <;> simp
    rw [← compiledJoints] at all
    rw [build_size, tubes.length_eq, joints.length_eq, List.length_append, List.length_append,
      List.length_map]
    omega
  have lists := length_compiledLists (flatten code)
  have few := Nat.le_trans (compiledJoints_le (flatten code)) (jointCount_flatten code)
  refine ⟨?_, joints, tubes, fun flat _ s => cutOut_of_stretch, size, by omega⟩
  have instructions := tubes.flatten
  have empty : (if leavesNothing (flatten code) then [] else [[]] : List Code).flatten = [] := by
    split <;> rfl
  rwa [List.flatten_append, List.flatten_append, flatten_allStretches, empty, List.nil_append]
    at instructions

/-- What stands behind nested conditionals is in one tube, at which all of their arms end. -/
example : (Graph.build [.op "IF" [] [.code [.op "IF" [] []], .code []], .op "SWAP" [] []]).tubeCodes =
    [[], [.op "SWAP" [] []], [], [], [], []] := by
  cbv

end Parts

end StackFlow
