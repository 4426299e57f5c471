import Mathlib
import StackFlow.Proofs.Chart
import StackFlow.Proofs.Flow
import StackFlow.Proofs.Valve

/-!
How a run of a valid graph can break. Checks of a graph ask of an instruction only that one of the
two tables holds its name, and ask nothing of a node that is neither tube nor joint. So a step
breaks structurally exactly where a flight meets a misfit: a node of no kind, a branching
instruction in a tube, or a joint that is named for a straight-line instruction.
-/

namespace StackFlow

open Micheline (Instruction Code)

/-- Errors that blame the graph and not the stack that flows. -/
def RunError.isStructural : RunError → Bool
  | .missingNode .. | .unknownKind .. | .edgeCount .. => true
  | .instruction _ _ (.unsupported _) | .joint _ (.unsupported _) => true
  | _ => false

/-- The nodes to which the targets of nodes lead from the root. -/
inductive Graph.Reaches (g : Graph) : Int → Prop where
  | root : Reaches g g.root
  | step {id target : Int} {n : Node} :
      Reaches g id → g.node? id = some n → target ∈ n.successors → Reaches g target

/-- A stack meets at a node what the node cannot run. -/
inductive Node.Misfit (n : Node) (s : Stack) : Prop where
  | kind : n.kind = .other → Misfit n s
  | tube {before after : Code} {i : Instruction} {s' : Stack} :
      n.kind = .tube → n.code = before ++ i :: after → (Joint.ofName? i.name).isSome →
      runCode before s = .ok s' → s'.isFailed = false → Misfit n s
  | joint : n.kind = .joint → (Rule.ofName? n.joint).isSome → Misfit n s

/-- A node at which no stack meets a misfit. -/
def Node.Fits (n : Node) : Prop :=
  match n.kind with
  | .tube => ∀ i ∈ n.code, Joint.ofName? i.name = none
  | .joint => Rule.ofName? n.joint = none
  | .other => False

theorem Node.Fits.not_misfit {n : Node} {s : Stack} (fits : n.Fits) : ¬ n.Misfit s := by
  unfold Node.Fits at fits
  rintro (other | ⟨tube, code, branching, _, _⟩ | ⟨joint, straight⟩)
  · simp [other] at fits
  · simp only [tube] at fits
    simp [fits _ (code ▸ List.mem_append_right _ List.mem_cons_self)] at branching
  · simp only [joint] at fits
    simp [fits] at straight

/-! ## One node -/

/-- A node that passes its checks breaks structurally exactly on a stack that it is a misfit for. -/
theorem flow_structural_iff {n : Node} {id d : Int} {s : Stack} (within : s.beyond = 0)
    (passed : (Graph.checkNode supports id n d).2 = []) :
    (∃ e, flow n s = .error e ∧ e.isStructural) ↔ n.Misfit s := by
  constructor
  · rintro ⟨e, refused, structural⟩
    unfold flow at refused
    split at refused
    · rename_i tube
      have known := Graph.checkTube_known (Graph.checkNode_tube tube passed)
      unfold flowTube at refused
      split at refused
      · cases refused
      · rename_i i fault broken
        cases refused
        obtain ⟨before, after, s', t, code, ran, alive, failed⟩ := runCode_error broken
        have unsupported := step_within (i := i) (runCode_within within ran)
        rw [failed] at unsupported
        cases fault with
        | unsupported name =>
          have known := known i (code ▸ List.mem_append_right _ List.mem_cons_self)
          have branching : (Joint.ofName? i.name).isSome := by
            simpa [supports, unsupported name rfl] using known
          exact .tube tube code branching ran alive
        | _ => cases structural
    · rename_i joint
      obtain ⟨known, edges⟩ := Graph.checkNode_joint joint passed
      have unsupported := split_within n.joint within
      unfold flowJoint at refused
      split at refused
      · rename_i fault t failed
        cases refused
        rw [failed] at unsupported
        cases fault with
        | unsupported name =>
          have straight : (Rule.ofName? n.joint).isSome := by
            simpa [supports, unsupported name rfl] using known
          exact .joint joint straight
        | _ => cases structural
      · split at refused
        · cases refused
        · rename_i count
          obtain ⟨a, b, pair⟩ := List.length_eq_two.mp edges
          exact absurd pair (count a b)
    · rename_i other
      exact .kind other
  · rintro (other | ⟨tube, code, branching, ran, alive⟩ | ⟨joint, straight⟩)
    · exact ⟨.unknownKind n.id .other, by simp [flow, other], rfl⟩
    · rename_i before after i s'
      have broken : runCode n.code s = .error (i, .unsupported i.name) := by
        rw [code, runCode_append, ran]
        simp only [Except.bind]
        rw [runCode, if_neg (by simp [alive]), Stack.step, joint_not_rule branching]
        rfl
      exact ⟨.instruction n.id i (.unsupported i.name), by simp [flow, tube, flowTube, broken], rfl⟩
    · have broken : (Stack.split n.joint).run s = .error (.unsupported n.joint) s := by
        rw [Stack.split, rule_not_joint straight]
        rfl
      exact ⟨.joint n.id (.unsupported n.joint), by simp [flow, joint, flowJoint, broken], rfl⟩

/-! ## Runs -/

/-- A flight that is on its way through a charted graph. -/
structure OnChart (g : Graph) (depth : Int → Option Int) (f : Flight) : Prop where
  charted : (depth f.node).isSome
  reached : g.Reaches f.node
  within : f.stack.beyond = 0

section Runs

variable {g : Graph} {depth : Int → Option Int} {f : Flight} {n : Node}

theorem flow_onChart (chart : g.Charted supports depth) {outs : List Flight}
    (on : OnChart g depth f) (found : g.node? f.node = some n)
    (flowed : flow n f.stack = .ok outs) : ∀ o ∈ outs, o.node ≠ noNode → OnChart g depth o := by
  intro o member active
  obtain ⟨sort, outputs⟩ := flow_outputs on.within flowed
  obtain ⟨within, successor⟩ := outputs o member
  have successor := successor active
  obtain ⟨d, charted⟩ := Option.isSome_iff_exists.mp on.charted
  obtain ⟨m, there, _, targets⟩ := chart.node f.node d charted
  cases Option.some.inj (there.symm.trans found)
  rw [← Graph.checkNode_targets sort] at successor
  obtain ⟨target, member, same⟩ := List.mem_map.mp successor
  refine ⟨by rw [← same, targets target member]; rfl, ?_, within⟩
  refine .step on.reached found ?_
  rw [← Graph.checkNode_targets sort]
  exact successor

/-- All flights of a run through a charted graph are on the chart. -/
theorem advances_onChart (chart : g.Charted supports depth) {initial : Stack}
    (cursor : initial.cursor = 0) {budget : Int} {tag : String} {k : Nat} {v : Valve}
    (run : Valve.Advances k (Valve.opened g initial budget tag) v) :
    ∀ f ∈ v.frontier, OnChart g depth f := by
  generalize start : Valve.opened g initial budget tag = v₀ at run
  induction run with
  | none =>
    subst start
    intro f member
    rw [List.mem_singleton.mp member]
    have within : initial.beyond = 0 := by
      unfold Stack.cursor at cursor
      omega
    exact ⟨by simp [chart.root], .root, within⟩
  | step before accepted ih =>
    subst start
    have graph := Valve.advances_graph before
    intro o member
    obtain ⟨f, front, n, outs, found, flowed, put, _, active⟩ :=
      Valve.advance_frontier accepted member
    rw [graph] at found
    exact flow_onChart chart (ih rfl f front) found flowed o put active

theorem passage_structural_iff (chart : g.Charted supports depth) {v : Valve} (graph : v.graph = g)
    (on : OnChart g depth f) :
    (∃ a, v.passage f = .error a ∧ a.cause.isStructural) ↔
      ∃ n, g.node? f.node = some n ∧ n.Misfit f.stack := by
  subst graph
  obtain ⟨d, charted⟩ := Option.isSome_iff_exists.mp on.charted
  obtain ⟨n, found, passed, _⟩ := chart.node f.node d charted
  constructor
  · rintro ⟨a, refused, structural⟩
    obtain ⟨_, ⟨missing, _⟩ | ⟨m, there, failed⟩⟩ := Valve.passage_error refused
    · simp [found] at missing
    · cases Option.some.inj (found.symm.trans there)
      exact ⟨n, found, (flow_structural_iff on.within passed).mp ⟨a.cause, failed, structural⟩⟩
  · rintro ⟨m, there, misfit⟩
    cases Option.some.inj (found.symm.trans there)
    obtain ⟨e, failed, structural⟩ := (flow_structural_iff on.within passed).mpr misfit
    cases crossed : v.passage f with
    | ok p =>
      rcases Valve.passage_ok crossed with ⟨ended, _⟩ | ⟨m, outs, _, there, flowed, _⟩
      · simp [ended, Graph.node?, noNode] at found
      · cases Option.some.inj (found.symm.trans there)
        cases failed.symm.trans flowed
    | error a =>
      obtain ⟨_, ⟨missing, _⟩ | ⟨m, there, cause⟩⟩ := Valve.passage_error crossed
      · simp [found] at missing
      · cases Option.some.inj (found.symm.trans there)
        cases failed.symm.trans cause
        exact ⟨a, rfl, structural⟩

/-- In every run of a valid graph, a step breaks structurally only where a flight of the frontier
meets a misfit, and there it does break; so a valid graph whose nodes all fit never breaks. -/
theorem validated_steps_break_at_misfits (valid : g.validate supports = .ok ()) {initial : Stack}
    (cursor : initial.cursor = 0) {budget : Int} {tag : String} {k : Nat} {v : Valve}
    (run : Valve.Advances k (Valve.opened g initial budget tag) v) :
    (∀ f ∈ v.frontier, g.Reaches f.node ∧
      ((∃ a, v.passage f = .error a ∧ a.cause.isStructural) ↔
        ∃ n, g.node? f.node = some n ∧ n.Misfit f.stack)) ∧
    (∀ canceled a, v.advance canceled = .error a → a.cause.isStructural →
      ∃ f ∈ v.frontier, ∃ n, g.node? f.node = some n ∧ n.Misfit f.stack) ∧
    ((∀ id n, g.Reaches id → g.node? id = some n → n.Fits) →
      ∀ canceled a, v.advance canceled = .error a → a.cause.isStructural = false) := by
  have chart := Graph.charted_of_validate valid
  have on := advances_onChart chart cursor run
  have graph : v.graph = g := Valve.advances_graph run
  have breaks : ∀ canceled a, v.advance canceled = .error a → a.cause.isStructural →
      ∃ f ∈ v.frontier, ∃ n, g.node? f.node = some n ∧ n.Misfit f.stack := by
    intro canceled a refused structural
    rcases Valve.advance_error refused with cause | cause | ⟨f, front, failed⟩
    · simp [cause, RunError.isStructural] at structural
    · simp [cause, RunError.isStructural] at structural
    · exact ⟨f, front, (passage_structural_iff chart graph (on f front)).mp ⟨a, failed, structural⟩⟩
  refine ⟨fun f front => ⟨(on f front).reached, passage_structural_iff chart graph (on f front)⟩,
    breaks, ?_⟩
  intro fit canceled a refused
  by_contra structural
  obtain ⟨f, front, n, found, misfit⟩ := breaks canceled a refused (by simpa using structural)
  exact (fit f.node n (on f front).reached found).not_misfit misfit

end Runs

/-! ## A valid graph that breaks -/

/-- A tube that holds a branching instruction. -/
def strayBranch : Graph :=
  { nodes := #[.tube 0 [.op "IF" [] [.code [], .code []]] noNode], root := 0 }

def strayGuard : Stack := { visible := [.placeholder Ty.bool []] }

theorem strayBranch_valid : strayBranch.validate supports = .ok () := by
  cbv

/-- Its first step meets the branching instruction, which a tube cannot run. -/
theorem stray_branch_misfit :
    (∃ a, (Valve.opened strayBranch strayGuard 0 "").advance (fun _ => false) = .error a ∧
      a.cause.isStructural) ∧
    ∃ f ∈ [Flight.mk 0 strayGuard], ∃ n, strayBranch.node? f.node = some n ∧ n.Misfit f.stack := by
  have run : Valve.Advances 0 (Valve.opened strayBranch strayGuard 0 "") _ := .none
  have broken : ∃ a, (Valve.opened strayBranch strayGuard 0 "").advance (fun _ => false) =
      .error a ∧
      a.cause.isStructural := ⟨_, rfl, rfl⟩
  obtain ⟨a, refused, structural⟩ := broken
  obtain ⟨_, breaks, _⟩ := validated_steps_break_at_misfits strayBranch_valid rfl run
  exact ⟨⟨a, refused, structural⟩, breaks (fun _ => false) a refused structural⟩

/-- Passing the checks does not keep a run from breaking structurally. -/
theorem valid_graph_breaks : ¬ ∀ (g : Graph) (initial : Stack) (k : Nat) (v : Valve)
    (canceled : Nat → Bool) (a : Valve.Abort), g.validate supports = .ok () → initial.cursor = 0 →
    Valve.Advances k (Valve.opened g initial 0 "") v → v.advance canceled = .error a →
    a.cause.isStructural = false := by
  intro safe
  have sound := safe strayBranch strayGuard 0 _ (fun _ => false) _ strayBranch_valid rfl .none rfl
  exact absurd sound (by decide)

end StackFlow
