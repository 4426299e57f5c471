import Mathlib
import StackFlow.Proofs.Chart
import StackFlow.Proofs.Flow
import StackFlow.Proofs.Settled
import StackFlow.Proofs.Valve

/-!
The depths that the crawl of a valid graph gives out are the cursors of its runs. Instructions other
than markers leave the cursor alone, markers and joints move it as the checks count, and a path that
fails is not followed.
-/

namespace StackFlow

open Micheline (Instruction Code)

section Instructions

variable {known : String → Bool} {id d : Int} {s s' : Stack} {i : Instruction} {code : Code}

theorem step_marker_rule (marks : isMarker i) : Stack.step i = Action.shift (markerDelta i) := by
  have name : i.name = "CURSOR" := eq_of_beq marks
  have found : Rule.ofName? "CURSOR" = some .cursor := rfl
  rw [Stack.step, name, found]
  rfl

theorem shift_cursor {delta : Int} {x : Unit} (accepted : (Action.shift delta).run s = .ok x s') :
    (s'.cursor : Int) = wrap (s.cursor + delta) := by
  obtain ⟨lower, upper, rfl⟩ := shift_ok accepted
  generalize wrap (s.cursor + delta) = next at lower upper ⊢
  simp only [Stack.cursor, List.length_take]
  omega

/-- An instruction that is no marker and does not fail keeps everything but the visible items. -/
theorem step_unmarked {x : Unit} (within : s.beyond = 0) (unmarked : isMarker i = false)
    (stepped : (Stack.step i).run s = .ok x s') (alive : s'.isFailed = false) :
    ∃ v, s' = { s with visible := v } := by
  by_cases fails : i.name = "FAILWITH"
  · rw [step_failWith fails] at stepped
    cases shown : s.visible with
    | nil => cases (run_failWith_empty within shown).symm.trans stepped
    | cons reason rest =>
      cases (run_failWith within shown).symm.trans stepped
      simp [failWith_failed] at alive
  · unfold Stack.step at stepped
    cases found : Rule.ofName? i.name with
    | none =>
      rw [found] at stepped
      cases stepped
    | some r =>
      have plain : r.isPlain := by
        have entry := table_plain _ (ofName?_mem found)
        have marker : (i.name == "CURSOR") = false := unmarked
        simpa [bne, marker, beq_false_of_ne fails] using entry
      obtain ⟨result, v, run, _⟩ :=
        run_plain (i := i) closed_true (fun _ _ _ _ => trivial) found plain s s within
          within rfl rfl (fun _ _ => trivial)
      rw [found] at stepped
      cases result with
      | ok _ =>
        cases run.symm.trans stepped
        exact ⟨v, rfl⟩
      | error e => cases run.symm.trans stepped

theorem step_cursor {x : Unit} (within : s.beyond = 0)
    (stepped : (Stack.step i).run s = .ok x s') (alive : s'.isFailed = false) :
    (s'.cursor : Int) = if isMarker i then wrap (s.cursor + markerDelta i) else s.cursor := by
  cases marks : isMarker i with
  | true =>
    rw [step_marker_rule marks] at stepped
    exact shift_cursor stepped
  | false =>
    obtain ⟨v, rfl⟩ := step_unmarked within marks stepped alive
    rfl

theorem checkTube_append (before after : Code) :
    Graph.checkTube known id (before ++ after) d =
      ((Graph.checkTube known id after (Graph.checkTube known id before d).1).1,
        (Graph.checkTube known id before d).2 ++
          (Graph.checkTube known id after (Graph.checkTube known id before d).1).2) := by
  induction before generalizing d with
  | nil => simp [Graph.checkTube]
  | cons k is ih => simp [Graph.checkTube, ih]

theorem runCode_cursor (within : s.beyond = 0) (ran : runCode code s = .ok s')
    (alive : s'.isFailed = false) : (s'.cursor : Int) = (Graph.checkTube known id code s.cursor).1 := by
  induction code generalizing s with
  | nil =>
    cases ran
    rfl
  | cons i is ih =>
    unfold runCode at ran
    split at ran
    · rename_i fails
      cases ran
      simp [alive] at fails
    · split at ran
      · rename_i t stepped
        have inside : t.beyond = 0 := by
          have kept := step_within (i := i) within
          rw [stepped] at kept
          exact kept
        have going : t.isFailed = false := by
          by_contra fails
          have stuck := runCode_failed (s := t) (by simpa using fails) is
          cases stuck.symm.trans ran
          exact fails alive
        have moved := step_cursor within stepped going
        have rest := ih inside ran
        rw [moved] at rest
        exact rest
      · cases ran

end Instructions

/-- While the stack `s` flows through a tube, its instruction `i` meets the stack `t`. -/
def Node.Meets (n : Node) (s : Stack) (i : Instruction) (t : Stack) : Prop :=
  n.kind = .tube ∧ ∃ before after, n.code = before ++ i :: after ∧
    runCode before s = .ok t ∧ t.isFailed = false

/-! ## One node -/

section Nodes

variable {known : String → Bool} {id d : Int} {n : Node} {s t : Stack} {i : Instruction}

/-- Markers of a tube that passes its checks never ask for a negative cursor. -/
theorem meets_marker (within : s.beyond = 0) (passed : (Graph.checkNode known id n s.cursor).2 = [])
    (meets : n.Meets s i t) (marks : isMarker i) : 0 ≤ wrap (t.cursor + markerDelta i) := by
  obtain ⟨tube, before, after, code, ran, alive⟩ := meets
  have clean := Graph.checkNode_tube tube passed
  rw [code, checkTube_append, ← runCode_cursor within ran alive] at clean
  have here := (List.append_eq_nil_iff.mp clean).2
  simp only [Graph.checkTube, marks, if_true, Bool.true_and, List.append_eq_nil_iff] at here
  by_contra negative
  have below : wrap (t.cursor + markerDelta i) < 0 := by omega
  simp [below] at here

theorem split_cursor {name : String} {x y : Stack} (within : s.beyond = 0)
    (branched : (Stack.split name).run s = .ok (x, y) t) :
    (x.cursor : Int) = (if name == Joint.iter.name then wrap (s.cursor + 1) else s.cursor) ∧
      y.cursor = s.cursor := by
  unfold Stack.split at branched
  cases found : Joint.ofName? name with
  | none =>
    rw [found] at branched
    cases branched
  | some j =>
    rw [found] at branched
    dsimp only at branched
    have same := Joint.ofName?_name found
    cases shown : s.visible with
    | nil => cases (Joint.run_branch_empty j within shown).symm.trans branched
    | cons guard rest =>
      by_cases iter : j = .iter
      · subst iter
        rw [Joint.run_branch_iter within shown, Joint.run_beside] at branched
        cases entered : (Joint.enterBody guard).run { s with visible := rest } with
        | error e u =>
          rw [entered] at branched
          cases branched
        | ok u made =>
          rw [entered] at branched
          cases branched
          obtain ⟨inner, shifted, rfl⟩ := Joint.enterBody_ok entered within
          have hidden := shift_cursor shifted
          have kept : inner.beyond = 0 := by rw [(shift_ok shifted).2.2]
          refine ⟨?_, rfl⟩
          rw [if_pos (by simp [same])]
          simpa [Stack.cursor, within, kept] using hidden
      · cases (Joint.run_branch within shown iter).symm.trans branched
        rw [if_neg (by simp [Joint.name_ne_iter found iter])]
        exact ⟨rfl, rfl⟩

/-- What a node puts out, alive, arrives at the depth that the checks of the node send on. -/
theorem flow_cursor {outs : List Flight} (within : s.beyond = 0)
    (passed : (Graph.checkNode known id n s.cursor).2 = []) (flowed : flow n s = .ok outs) :
    ∀ o ∈ outs, o.stack.isFailed = false →
      (o.node, (o.stack.cursor : Int)) ∈ (Graph.checkNode known id n s.cursor).1 ∨
        o.node = noNode ∧ o.stack.cursor = 0 := by
  intro o member alive
  rcases flow_cases flowed with ⟨tube, t, ran, rfl⟩ | ⟨joint, x, y, u, a, b, branched, edges, rfl⟩
  · rw [List.mem_singleton.mp member] at alive ⊢
    have alive : t.isFailed = false := alive
    have cursor : (t.cursor : Int) = (Graph.checkTube known id n.code s.cursor).1 :=
      runCode_cursor within ran alive
    have same : (t.visit n.id).cursor = t.cursor := rfl
    by_cases ends : n.next = noNode
    · right
      simp only [Graph.checkNode, tube, if_pos ends, List.append_eq_nil_iff] at passed
      have zero : (Graph.checkTube known id n.code s.cursor).1 = 0 := by
        by_contra nonzero
        simp [nonzero] at passed
      refine ⟨ends, ?_⟩
      rw [same]
      omega
    · left
      simp only [Graph.checkNode, tube, if_neg ends, List.mem_singleton, ← cursor, same]
  · obtain ⟨first, second⟩ := split_cursor within branched
    left
    simp only [Graph.checkNode, joint, edges, Graph.edgeDepths, List.map_cons, List.map_nil]
    rcases List.mem_pair.mp member with rfl | rfl
    · simp [first]
    · simp [second]

end Nodes

/-! ## Runs -/

/-- A flight is at a node with the cursor that is the depth of the node. -/
structure AtDepth (depth : Int → Option Int) (f : Flight) : Prop where
  depth : depth f.node = some (f.stack.cursor : Int)
  within : f.stack.beyond = 0

section Runs

variable {known : String → Bool} {g : Graph} {depth : Int → Option Int} {f : Flight} {v v' : Valve}

theorem flow_atDepth (chart : g.Charted known depth) (at_depth : AtDepth depth f) {n : Node}
    {outs : List Flight} (found : g.node? f.node = some n) (flowed : flow n f.stack = .ok outs) :
    ∀ o ∈ outs, o.stack.isFailed = false →
      AtDepth depth o ∨ o.node = noNode ∧ o.stack.cursor = 0 := by
  intro o member alive
  obtain ⟨m, there, passed, targets⟩ := chart.node f.node _ at_depth.depth
  cases Option.some.inj (found.symm.trans there)
  rcases flow_cursor at_depth.within passed flowed o member alive with sent | ended
  · have within := ((flow_outputs at_depth.within flowed).2 o member).1
    exact .inl ⟨targets _ sent, within⟩
  · exact .inr ended

/-- A path that has ended behind a step had ended before it, or has come through a node in it. -/
theorem advance_finished {canceled : Nat → Bool} {entries : List Entry}
    (accepted : v.advance canceled = .ok (v', entries)) {o : Flight} (member : o ∈ v'.finished) :
    o ∈ v.finished ∨ (o ∈ v.frontier ∧ o.node = noNode) ∨
      ∃ f ∈ v.frontier, ∃ n outs, v.graph.node? f.node = some n ∧ flow n f.stack = .ok outs ∧
        o ∈ outs ∧ o.stack.isFailed = false ∧ o.node = noNode := by
  obtain ⟨ps, passed, rfl⟩ := Valve.advance_ok accepted
  rcases Valve.mem_appendList.mp member with before | member
  · exact .inl before
  · obtain ⟨p, among, ended⟩ := List.mem_flatMap.mp member
    obtain ⟨f, front, crossed⟩ := Valve.passage_of_mem passed among
    rcases Valve.passage_ok crossed with ⟨none, rfl⟩ | ⟨n, outs, _, found, flowed, rfl⟩
    · rw [List.mem_singleton.mp ended]
      exact .inr (.inl ⟨front, none⟩)
    · simp only [Valve.Passage.finished, List.mem_filter, Bool.and_eq_true, Bool.not_eq_true',
        beq_iff_eq] at ended
      exact .inr (.inr ⟨f, front, n, outs, found, flowed, ended.1, ended.2.1, ended.2.2⟩)

/-- What holds of the seed of a valve and of what each node puts out holds of all flights: `P` while
they go on and `Q` when they have ended. -/
theorem advances_flights {P Q : Flight → Prop} {initial : Stack} {budget : Int} {tag : String}
    {k : Nat} (seed : P ⟨g.root, initial⟩) (ended : ∀ f, P f → f.node = noNode → Q f)
    (passes : ∀ f n outs o, P f → g.node? f.node = some n → flow n f.stack = .ok outs → o ∈ outs →
      o.stack.isFailed = false → (o.node ≠ noNode → P o) ∧ (o.node = noNode → Q o))
    (run : Valve.Advances k (Valve.opened g initial budget tag) v) :
    (∀ f ∈ v.frontier, P f) ∧ ∀ f ∈ v.finished, Q f := by
  generalize start : Valve.opened g initial budget tag = v₀ at run
  induction run with
  | none =>
    subst start
    constructor
    · intro f member
      rw [List.mem_singleton.mp member]
      exact seed
    · simp [Valve.opened, Valve.start]
  | step before accepted ih =>
    obtain ⟨front, finished⟩ := ih start
    subst start
    have graph := Valve.advances_graph before
    constructor
    · intro o member
      obtain ⟨f, among, n, outs, found, flowed, put, alive, active⟩ :=
        Valve.advance_frontier accepted member
      rw [graph] at found
      exact (passes f n outs o (front f among) found flowed put alive).1 active
    · intro o member
      rcases advance_finished accepted member with old | ⟨among, none⟩ |
        ⟨f, among, n, outs, found, flowed, put, alive, none⟩
      · exact finished o old
      · exact ended o (front o among) none
      · rw [graph] at found
        exact (passes f n outs o (front f among) found flowed put alive).2 none

theorem atDepth_node (chart : g.Charted known depth) (at_depth : AtDepth depth f) :
    f.node ≠ noNode := by
  intro none
  obtain ⟨n, there, _⟩ := chart.node f.node _ at_depth.depth
  simp [none, Graph.node?, noNode] at there

theorem advances_atDepth (chart : g.Charted known depth) {initial : Stack}
    (cursor : initial.cursor = 0) {budget : Int} {tag : String} {k : Nat}
    (run : Valve.Advances k (Valve.opened g initial budget tag) v) :
    (∀ f ∈ v.frontier, AtDepth depth f) ∧ ∀ f ∈ v.finished, f.stack.cursor = 0 := by
  refine advances_flights ?_ ?_ ?_ run
  · constructor
    · rw [chart.root, cursor]
      rfl
    · unfold Stack.cursor at cursor
      dsimp only
      omega
  · intro f at_depth none
    exact absurd none (atDepth_node chart at_depth)
  · intro f n outs o at_depth found flowed put alive
    rcases flow_atDepth chart at_depth found flowed o put alive with there | ⟨none, zero⟩
    · exact ⟨fun _ => there, fun none => absurd none (atDepth_node chart there)⟩
    · exact ⟨fun active => absurd none active, fun _ => zero⟩

/-- In every run of a valid graph each stack enters a node with the depth of the node as its cursor,
each path that ends without failure ends with cursor zero, and no marker that a stack meets asks for
a negative cursor. -/
theorem cursors_follow_depths (valid : g.validate known = .ok ()) {initial : Stack}
    (cursor : initial.cursor = 0) {budget : Int} {tag : String} {k : Nat}
    (run : Valve.Advances k (Valve.opened g initial budget tag) v) :
    (∀ f ∈ v.frontier, (g.survey known).depths.lookup f.node = some (f.stack.cursor : Int)) ∧
    (∀ f ∈ v.finished, f.stack.isFailed = false → f.stack.cursor = 0) ∧
    ∀ f ∈ v.frontier, ∀ n i t, g.node? f.node = some n → n.Meets f.stack i t → isMarker i →
      0 ≤ wrap (t.cursor + markerDelta i) := by
  have chart := Graph.charted_of_validate valid
  obtain ⟨front, finished⟩ := advances_atDepth chart cursor run
  refine ⟨fun f member => (front f member).depth, fun f member _ => finished f member, ?_⟩
  intro f member n i t found meets marks
  have at_depth := front f member
  obtain ⟨m, there, passed, _⟩ := chart.node f.node _ at_depth.depth
  cases Option.some.inj (found.symm.trans there)
  exact meets_marker at_depth.within passed meets marks

end Runs

/-- An iteration in a block that protects one item. -/
def shelteredLoop : Graph :=
  { nodes := #[.tube 0 [] noNode, .tube 1 [marker (-1)] noNode, .tube 2 [marker 1] 3,
      .fork 3 "ITER" [5, 1], .tube 4 [marker (-1)] 3, .tube 5 [.op "DROP" [] []] 4]
    root := 2 }

def shelteredStack : Stack :=
  { visible := [.ofText Ty.nat "kept", .ofText (.app "list" [Ty.nat]) "numbers"] }

theorem shelteredLoop_valid : shelteredLoop.validate supports = .ok () := by
  cbv

/-- On the way back of the iteration two items are hidden; the path that left it has ended. -/
theorem sheltered_loop_cursors :
    ∃ v, Valve.Advances 3 (Valve.opened shelteredLoop shelteredStack 0 "") v ∧
      v.frontier.map (fun f => (f.node, f.stack.cursor)) = [(4, 2)] ∧
      (shelteredLoop.survey supports).depths.lookup 4 = some 2 ∧
      v.finished.size = 1 ∧ ∀ f ∈ v.finished, f.stack.isFailed = false → f.stack.cursor = 0 := by
  have run : ∃ v, Valve.Advances 3 (Valve.opened shelteredLoop shelteredStack 0 "") v ∧
      v.frontier.map (fun f => (f.node, f.stack.cursor)) = [(4, 2)] ∧ v.finished.size = 1 :=
    ⟨_, .next (.next (.next .none rfl) rfl) rfl, rfl, rfl⟩
  obtain ⟨v, steps, front, ended⟩ := run
  obtain ⟨depths, finished, _⟩ := cursors_follow_depths shelteredLoop_valid rfl steps
  obtain ⟨f, member, place⟩ : ∃ f ∈ v.frontier, (f.node, f.stack.cursor) = (4, 2) :=
    List.mem_map.mp (front ▸ List.mem_singleton_self (4, 2))
  have depth := depths f member
  rw [(Prod.mk.inj place).1, (Prod.mk.inj place).2] at depth
  exact ⟨v, steps, front, depth, ended, finished⟩

end StackFlow
