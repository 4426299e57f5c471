import StackFlow.Graph.Basic
import StackFlow.Graph.Flatten

/-!
Compiling code to a graph. Straight-line code up to the first branching instruction is a tube; the
branching instruction is a joint; and what follows it is compiled once, for all of its arms to
continue in. Nodes are numbered in the order in which they are made.
-/

namespace StackFlow

open Micheline (Instruction Code)

/-- The first branching instruction of flat code, with the code on both sides of it. -/
def splitAtJoint? : Code → Option (Code × Joint × Instruction × Code)
  | [] => none
  | i :: rest =>
    match Joint.ofName? i.name with
    | some j => some ([], j, i, rest)
    | none => (splitAtJoint? rest).map fun (before, j, i', after) => (i :: before, j, i', after)

theorem jointsOf_of_joint {i : Instruction} {j : Joint} (h : Joint.ofName? i.name = some j) :
    jointsOfArgs i.args < jointsOf i := by
  cases i with
  | op name annots args =>
    simp only [Instruction.name] at h
    simp [jointsOf, Instruction.args, h]
  | group body => simp [Instruction.name, Joint.ofName?, Joint.all, Joint.name, List.find?] at h

theorem jointCount_split {flat before after : Code} {j : Joint} {i : Instruction}
    (h : splitAtJoint? flat = some (before, j, i, after)) :
    jointsOfArgs i.args + jointCount after < jointCount flat := by
  induction flat generalizing before with
  | nil => simp [splitAtJoint?] at h
  | cons k rest ih =>
    unfold splitAtJoint? at h
    split at h
    · rename_i hj
      simp only [Option.some.injEq, Prod.mk.injEq] at h
      obtain ⟨_, rfl, rfl, rfl⟩ := h
      have := jointsOf_of_joint hj
      simp [jointCount]
      omega
    · obtain ⟨⟨b, j', i', a⟩, hs, he⟩ := Option.map_eq_some_iff.1 h
      simp only [Prod.mk.injEq] at he
      obtain ⟨_, rfl, rfl, rfl⟩ := he
      have := ih hs
      simp [jointCount]
      omega

theorem jointCount_arm {i : Instruction} {k : Nat} {code : Code} (h : i.codeArgs[k]? = some code) :
    jointCount (flatten code) ≤ jointsOfArgs i.args :=
  Nat.le_trans (jointCount_flatten code) (jointCount_codeArg (List.mem_of_getElem? h))

/-- Compiles flat code that continues at `last`. Gives the entry and the grown list of nodes. -/
def compileFlat (flat : Code) (last : Int) (nodes : Array Node) : Int × Array Node :=
  match h : splitAtJoint? flat with
  | none =>
    if flat.isEmpty && last == noNode then (terminalId, nodes)
    else (nodes.size, nodes.push (.tube nodes.size flat last))
  | some (before, j, i, after) =>
    have := jointCount_split h
    let (remaining, nodes) := compileFlat after last nodes
    let tube := nodes.size
    let joint := tube + 1
    let nodes := (nodes.push (.tube tube before joint)).push (.fork joint j.name [])
    -- An iteration hides the rest of its collection while the body runs and shows it again on the
    -- way back.
    let (back, nodes) : Int × Array Node :=
      if j = .iter then (nodes.size, nodes.push (.tube nodes.size [marker (-1)] joint))
      else (joint, nodes)
    let (first, nodes) : Int × Array Node :=
      let cont := if j.isLoop then back else remaining
      match h0 : i.codeArgs[0]? with
      | some code =>
        have := jointCount_arm h0
        compileFlat (flatten code) cont nodes
      | none => (cont, nodes)
    let (second, nodes) : Int × Array Node :=
      if j.isLoop then (remaining, nodes)
      else
        match h1 : i.codeArgs[1]? with
        | some code =>
          have := jointCount_arm h1
          compileFlat (flatten code) remaining nodes
        | none => (remaining, nodes)
    (tube, nodes.setIfInBounds joint (.fork joint j.name [first, second]))
termination_by jointCount flat

/-- Node 0 is the tube in which all paths end that run off the code. -/
def Graph.build (code : Code) : Graph :=
  let (root, nodes) := compileFlat (flatten code) noNode #[.tube terminalId [] noNode]
  { nodes, root }

end StackFlow
