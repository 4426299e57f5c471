import Mathlib.Data.List.Basic
import StackFlow.Flow
import StackFlow.Proofs.Joints

/-!
How stacks flow through one node: straight-line code runs instruction by instruction and stops
behind a failure, and what a node puts out goes to its successors.
-/

namespace StackFlow

open Micheline (Instruction Code)

theorem runCode_within {code : Code} {s s' : Stack} (within : s.beyond = 0)
    (accepted : runCode code s = .ok s') : s'.beyond = 0 := by
  induction code generalizing s with
  | nil =>
    cases accepted
    exact within
  | cons i is ih =>
    unfold runCode at accepted
    split at accepted
    · cases accepted
      exact within
    · have step := step_within (i := i) within
      split at accepted
      · rename_i t stepped
        rw [stepped] at step
        exact ih step accepted
      · cases accepted

theorem runCode_failed {s : Stack} (failed : s.isFailed) (code : Code) :
    runCode code s = .ok s := by
  cases code with
  | nil => rfl
  | cons i is => rw [runCode, if_pos failed]

theorem runCode_append (before after : Code) (s : Stack) :
    runCode (before ++ after) s = (runCode before s).bind (runCode after) := by
  induction before generalizing s with
  | nil => rfl
  | cons i is ih =>
    by_cases failed : s.isFailed
    · rw [runCode_failed failed, runCode_failed failed]
      exact (runCode_failed failed after).symm
    · rw [List.cons_append, runCode, runCode, if_neg failed, if_neg failed]
      cases (Stack.step i).run s with
      | ok _ s' => exact ih s'
      | error e s' => rfl

/-- Code breaks at one of its instructions, behind code that ran. -/
theorem runCode_error {code : Code} {s : Stack} {i : Instruction} {e : Fault}
    (refused : runCode code s = .error (i, e)) :
    ∃ before after s' t, code = before ++ i :: after ∧ runCode before s = .ok s' ∧
      s'.isFailed = false ∧ (Stack.step i).run s' = .error e t := by
  induction code generalizing s with
  | nil => cases refused
  | cons k is ih =>
    unfold runCode at refused
    split at refused
    · cases refused
    · rename_i active
      split at refused
      · rename_i s' stepped
        obtain ⟨before, after, t, u, rfl, ran, alive, failed⟩ := ih refused
        refine ⟨k :: before, after, t, u, rfl, ?_, alive, failed⟩
        rw [runCode, if_neg active, stepped]
        exact ran
      · rename_i t failed
        cases refused
        exact ⟨[], is, s, t, rfl, rfl, by simpa using active, failed⟩

/-- A tube puts out the one stack that its code leaves, a joint one stack for each of two edges. -/
theorem flow_cases {n : Node} {s : Stack} {outs : List Flight} (flowed : flow n s = .ok outs) :
    (n.kind = .tube ∧ ∃ s', runCode n.code s = .ok s' ∧ outs = [⟨n.next, s'.visit n.id⟩]) ∨
    n.kind = .joint ∧ ∃ x y t a b, (Stack.split n.joint).run s = .ok (x, y) t ∧
      n.edges = [a, b] ∧ outs = [⟨a, x⟩, ⟨b, y⟩] := by
  unfold flow at flowed
  split at flowed
  · rename_i tube
    unfold flowTube at flowed
    split at flowed
    · rename_i s' ran
      cases flowed
      exact .inl ⟨tube, s', ran, rfl⟩
    · cases flowed
  · rename_i joint
    unfold flowJoint at flowed
    split at flowed
    · cases flowed
    · rename_i x y t branched
      split at flowed
      · rename_i a b edges
        cases flowed
        exact .inr ⟨joint, x, y, t, a, b, branched, edges, rfl⟩
      · cases flowed
  · cases flowed

theorem flow_tube {n : Node} {s s' : Stack} (tube : n.kind = .tube)
    (ran : runCode n.code s = .ok s') : flow n s = .ok [⟨n.next, s'.visit n.id⟩] := by
  rw [flow, tube]
  dsimp only
  rw [flowTube, ran]

theorem flow_joint {n : Node} {s x y t : Stack} {a b : Int} (joint : n.kind = .joint)
    (edges : n.edges = [a, b]) (branched : (Stack.split n.joint).run s = .ok (x, y) t) :
    flow n s = .ok [⟨a, x⟩, ⟨b, y⟩] := by
  rw [flow, joint]
  dsimp only
  rw [flowJoint, branched]
  dsimp only
  rw [edges]

/-- What a node puts out goes to its successors, or nowhere. -/
theorem flow_targets {n : Node} {s : Stack} {outs : List Flight} (flowed : flow n s = .ok outs) :
    ∀ o ∈ outs, o.node ≠ noNode → o.node ∈ n.successors := by
  intro o member active
  rcases flow_cases flowed with ⟨tube, _, _, rfl⟩ | ⟨joint, _, _, _, a, b, _, edges, rfl⟩
  · cases List.mem_singleton.mp member
    dsimp only at active ⊢
    simp [Node.successors, tube, active]
  · have successors : n.successors = [a, b] := by simp [Node.successors, joint, edges]
    rw [successors]
    rcases List.mem_pair.mp member with rfl | rfl <;> simp

theorem flow_outputs {n : Node} {s : Stack} {outs : List Flight} (within : s.beyond = 0)
    (flowed : flow n s = .ok outs) :
    n.kind ≠ .other ∧ ∀ o ∈ outs, o.stack.beyond = 0 ∧
      (o.node ≠ noNode → o.node ∈ n.successors) := by
  have targets := flow_targets flowed
  rcases flow_cases flowed with ⟨tube, s', ran, rfl⟩ | ⟨joint, x, y, t, a, b, branched, edges, rfl⟩
  · have inside := runCode_within within ran
    refine ⟨by simp [tube], fun o member => ⟨?_, targets o member⟩⟩
    cases List.mem_singleton.mp member
    exact inside
  · have both := split_within n.joint within
    rw [branched] at both
    refine ⟨by simp [joint], fun o member => ⟨?_, targets o member⟩⟩
    rcases List.mem_pair.mp member with rfl | rfl
    · exact both.1
    · exact both.2

end StackFlow
