import Mathlib.Algebra.Order.BigOperators.Group.List
import StackFlow.Proofs.Descent
import StackFlow.Proofs.Limits
import StackFlow.Proofs.Stretches

/-!
Code without loops finishes. In an order of its graph every flight has less and less left, so a run
ends after at most one step for each node, and a flight can end in as many ways as the joints that
are left allow. Main statement: cycles of compiled graphs pass through loops, and without loops every
run ends, drained or at an instruction.
-/

namespace StackFlow

open Micheline (Instruction Code)

/-- No loop is compiled. -/
def Loopless (code : Code) : Prop :=
  ∀ r i is, Nested code r (i :: is) → ∀ j, Joint.ofName? i.name = some j → j.isLoop = false

/-- The error of an instruction, branching or not. -/
def RunError.ofInstruction : RunError → Bool
  | .instruction .. | .joint .. => true
  | _ => false

/-! ## Graphs of code without loops -/

section Loopless

variable {code flat : Code} {i : Instruction} {j : Joint} {g : Graph} {last entry id : Int}
  {a b : Nat} {n : Node}

theorem loopless_drawn (loopless : Loopless code) (drawn : Drawn code i)
    (found : Joint.ofName? i.name = some j) : j.isLoop = false := by
  rcases drawn with ⟨m, rfl⟩ | ⟨r, is, nested⟩
  · cases (marker_straight m).symm.trans found
  · exact loopless r i is nested j found

/-- The node at a position, if there is one, is not the joint of a loop. -/
def Graph.StraightAt (g : Graph) (k : Nat) : Prop :=
  ∀ n, g.node? k = some n → n.loops = false

theorem straight_of_node {k : Nat} (found : g.node? k = some n) (straight : n.loops = false) :
    g.StraightAt k := by
  intro m there
  cases Option.some.inj (found.symm.trans there)
  exact straight

theorem made_straight (loopless : Loopless code) (made : Made g flat last a b entry)
    (drawn : ∀ i ∈ flat, Drawn code i) : ∀ k : Nat, a ≤ k → k < b → g.StraightAt k := by
  induction made with
  | skip | terminal =>
    intro k lower upper
    omega
  | tube _ found =>
    intro k lower upper
    obtain rfl : k = _ := Nat.le_antisymm (Nat.le_of_lt_succ upper) lower
    exact straight_of_node found (loops_tube ..)
  | @fork i j before after last p q r a b c d found branches forks _ _ _ older first second =>
    have own : Drawn code i := drawn i (by simp)
    have arms := fun k small => @drawn_arm code i j own found k (by simpa [branches] using small)
    have cast : ((b + 1 : Nat) : Int) = b + 1 := by simp
    apply each_of_level (older fun l among => drawn l (by simp [among]))
    · exact straight_of_node forks.tube (loops_tube ..)
    · apply straight_of_node (cast ▸ forks.joint)
      rw [loops_fork]
      exact branches
    · intro k lower upper
      by_cases early : k < c
      · exact first (arms 0 (by decide)) k lower early
      · exact second (arms 1 (by decide)) k (by omega) upper
  | @loop i j _ _ _ _ _ _ _ _ found loops =>
    have own : Drawn code i := drawn i (by simp)
    cases loops.symm.trans (loopless_drawn loopless own found)
  | @iter i _ _ _ _ _ _ _ _ found =>
    have own : Drawn code i := drawn i (by simp)
    cases loopless_drawn loopless own found

theorem build_straight (loopless : Loopless code) (found : (Graph.build code).node? id = some n) :
    n.loops = false := by
  by_cases terminal : id = terminalId
  · rw [terminal] at found
    cases Option.some.inj ((build_terminal code).symm.trans found)
    exact loops_tube ..
  · have present : ((Graph.build code).node? id).isSome := by simp [found]
    obtain ⟨k, rfl, lower, upper⟩ := Graph.position_behind present terminal
    exact made_straight loopless (build_made code) (drawn_flatten .whole) k lower upper n found

end Loopless

/-! ## One step -/

namespace Graph

/-- In how many ways a flight at a node can end: twice as many for each joint that is left. -/
def ways (g : Graph) (order : List Int) (id : Int) : Nat := 2 ^ (below order id).countP g.jointAt

theorem ways_pos (g : Graph) (order : List Int) (id : Int) : 0 < g.ways order id :=
  Nat.two_pow_pos _

section Ways

variable {g : Graph} {order : List Int} {f : Flight}

/-- What a node puts out can end in no more ways than what comes in. -/
theorem ways_outputs (ordered : g.Ordered order)
    (straight : ∀ id n, g.node? id = some n → n.loops = false) (flowed : g.Flowed f) :
    ((g.outputs f).map fun o => g.ways order o.node).sum ≤ g.ways order f.node := by
  have count := flowed.length
  obtain ⟨n, found, flowed⟩ := flowed
  obtain ⟨rest, here⟩ := below_inside (ordered.mem found)
  -- each output has only joints of the rest left
  have each : ∀ o ∈ g.outputs f, g.ways order o.node ≤ 2 ^ rest.countP g.jointAt := by
    intro o member
    apply Nat.pow_le_pow_right (by decide)
    by_cases ended : o.node = noNode
    · rw [ended, below_outside ordered.active]
      exact Nat.zero_le _
    · have target := flow_targets flowed o member ended
      obtain ⟨rest', here', there⟩ := ordered.target found (straight _ n found) target
      cases here.symm.trans here'
      exact there.sublist.countP_le
  have sum : ((g.outputs f).map fun o => g.ways order o.node).sum ≤
      (g.outputs f).length * 2 ^ rest.countP g.jointAt := by
    have bound := List.sum_le_card_nsmul ((g.outputs f).map fun o => g.ways order o.node)
      (2 ^ rest.countP g.jointAt) (List.forall_mem_map.mpr each)
    simpa using bound
  apply sum.trans_eq
  rw [count, ways, here, List.countP_cons]
  split
  · rw [Nat.pow_succ, Nat.mul_comm]
  · rw [Nat.one_mul, Nat.add_zero]

/-- Each output goes on or ends here. -/
theorem ways_parts (g : Graph) (order : List Int) (f : Flight) :
    ((g.going f).map fun o => g.ways order o.node).sum + (g.ending f).length +
      (g.failing f).length ≤ ((g.outputs f).map fun o => g.ways order o.node).sum := by
  simp only [going, ending, failing, List.length_map]
  induction g.outputs f with
  | nil => simp
  | cons o os ih =>
    have positive := g.ways_pos order o.node
    cases failed : o.stack.isFailed <;> by_cases ended : o.node = noNode <;>
      simp [failed, ended] at ih positive ⊢ <;> omega

theorem ways_frontier (ordered : g.Ordered order)
    (straight : ∀ id n, g.node? id = some n → n.loops = false) (fs : List Flight)
    (flowed : ∀ f ∈ fs, g.Flowed f) :
    ((fs.flatMap g.going).map fun o => g.ways order o.node).sum + (fs.flatMap g.ending).length +
      (fs.flatMap g.failing).length ≤ (fs.map fun f => g.ways order f.node).sum := by
  induction fs with
  | nil => simp
  | cons f fs ih =>
    have later := ih fun o member => flowed o (List.mem_cons_of_mem f member)
    have parts := g.ways_parts order f
    have outputs := ways_outputs ordered straight (flowed f List.mem_cons_self)
    simp only [List.flatMap_cons, List.map_append, List.sum_append, List.length_append,
      List.map_cons, List.sum_cons]
    omega

theorem countP_joints (g : Graph) : g.positions.countP g.jointAt = g.jointNames.length := by
  have nodes : g.positions.map g.node? = g.nodes.toList.map some := by
    apply List.ext_getElem
    · simp [positions, size]
    · intro k first second
      simp [positions, node?_natCast]
  have one : g.jointAt = (fun o : Option Node => o.any (·.kind == .joint)) ∘ g.node? := rfl
  rw [one, ← List.countP_map, nodes, List.countP_map, jointNames, List.length_map,
    List.countP_eq_length_filter]
  congr 1

end Ways

end Graph

namespace Valve

section Refused

variable {v : Valve} {a : Abort}

theorem passages_refused {fs : List Flight} {done : Array Passage} {count : Nat}
    (unlimited : v.maxStacks ≤ 0)
    (refused : v.passages (fun _ => false) fs done count = .error a) :
    ∃ f ∈ fs, v.passage f = .error a := by
  induction fs generalizing done count with
  | nil => cases refused
  | cons f fs ih =>
    unfold passages at refused
    rw [if_neg (by decide)] at refused
    split at refused
    · rename_i failed
      cases refused
      exact ⟨f, List.mem_cons_self, failed⟩
    · rename_i p _
      have within (n : Nat) : ¬ v.overdrawn n p = true := by
        cases p with
        | ended f => exact Bool.false_ne_true
        | through id n outs =>
          simp only [overdrawn, Bool.and_eq_true, decide_eq_true_eq]
          omega
      dsimp only at refused
      rw [if_neg (within _)] at refused
      obtain ⟨k, member, failed⟩ := ih refused
      exact ⟨k, List.mem_cons_of_mem f member, failed⟩

theorem advance_refused (unlimited : v.maxStacks ≤ 0)
    (refused : v.advance (fun _ => false) = .error a) :
    ∃ f ∈ v.frontier, v.passage f = .error a := by
  rw [advance_eq] at refused
  split at refused
  · cases refused
  · rename_i failed
    cases refused
    exact passages_refused unlimited failed

end Refused

end Valve

theorem flow_refused {g : Graph} {id : Int} {n : Node} {s : Stack} {e : RunError}
    (proper : n.Proper g id) (refused : flow n s = .error e) : e.ofInstruction = true := by
  cases proper with
  | tube straight next =>
    change flowTube _ s = .error e at refused
    unfold flowTube at refused
    split at refused
    · cases refused
    · cases refused
      rfl
  | joint first second =>
    change flowJoint _ s = .error e at refused
    unfold flowJoint at refused
    split at refused
    · cases refused
      rfl
    · cases refused

/-! ## All steps -/

/-- The flights of a valve have no more left than the steps allow, and the paths that have ended with
the ways in which the others can end are no more than there are in the whole graph. -/
structure Dwindles (g : Graph) (order : List Int) (v : Valve) : Prop where
  graph : v.graph = g
  unlimited : v.maxStacks ≤ 0
  inside : ∀ f ∈ v.frontier, f.node ∈ order
  left : ∀ f ∈ v.frontier, (Graph.below order f.node).length + v.steps ≤ order.length
  ways : (v.frontier.map fun f => g.ways order f.node).sum + v.finished.size + v.failed.size ≤
    2 ^ g.jointNames.length

section Dwindles

variable {g : Graph} {order : List Int} {v v' : Valve} {limit : Int}

theorem dwindles_opened (ordered : g.Ordered order) {initial : Stack} {budget : Int} {tag : String}
    (root : (g.node? g.root).isSome) (unlimited : budget ≤ 0) :
    Dwindles g order (Valve.opened g initial budget tag) := by
  obtain ⟨n, found⟩ := Option.isSome_iff_exists.mp root
  have whole := Graph.below_suffix order g.root
  constructor
  · rfl
  · exact unlimited
  · exact List.forall_mem_singleton.mpr (ordered.mem found)
  · exact List.forall_mem_singleton.mpr whole.length_le
  · have joints : (Graph.below order g.root).countP g.jointAt ≤ g.jointNames.length := by
      rw [← Graph.countP_joints, ← ordered.covers.countP_eq]
      exact whole.sublist.countP_le
    change [g.ways order g.root].sum + 0 + 0 ≤ _
    rw [List.sum_singleton, Graph.ways]
    exact Nat.pow_le_pow_right (by decide) joints

theorem dwindles_advance (ordered : g.Ordered order)
    (straight : ∀ id n, g.node? id = some n → n.loops = false) {entries : List Entry}
    (dwindles : Dwindles g order v) (accepted : v.advance (fun _ => false) = .ok (v', entries)) :
    Dwindles g order v' := by
  have active : ∀ f ∈ v.frontier, f.node ≠ noNode := by
    intro f member ended
    exact ordered.active (ended ▸ dwindles.inside f member)
  have step := advance_books dwindles.graph active accepted
  have further : ∀ o ∈ v'.frontier, ∃ f ∈ v.frontier, ∃ rest,
      Graph.below order f.node = f.node :: rest ∧ Graph.below order o.node <:+ rest ∧
        o.node ∈ order := by
    intro o member
    obtain ⟨f, front, n, outs, found, flowed, put, _, goes⟩ := Valve.advance_frontier accepted member
    rw [dwindles.graph] at found
    have target := flow_targets flowed o put goes
    obtain ⟨rest, here, there⟩ := ordered.target found (straight _ n found) target
    have among := Graph.descends_target ordered.descends (ordered.mem found) found
      (straight _ n found) target
    exact ⟨f, front, rest, here, there, among.resolve_left goes⟩
  constructor
  · obtain ⟨ps, _, rfl⟩ := Valve.advance_ok accepted
    exact dwindles.graph
  · rw [advance_maxStacks accepted]
    exact dwindles.unlimited
  · intro o member
    obtain ⟨_, _, _, _, _, among⟩ := further o member
    exact among
  · intro o member
    obtain ⟨f, front, rest, here, there, _⟩ := further o member
    have before := dwindles.left f front
    have less := there.length_le
    rw [here, List.length_cons] at before
    rw [Valve.advance_steps accepted]
    omega
  · have ways := Graph.ways_frontier ordered straight v.frontier step.flowed
    have before := dwindles.ways
    rw [← Array.length_toList, ← Array.length_toList] at before ⊢
    rw [step.frontier, step.finished, step.failed, List.length_append, List.length_append]
    omega

/-- A run that has ended after few steps, drained and with few paths, or else at an instruction. -/
structure Finishes (g : Graph) (w : Valve) (e : Option RunError) : Prop where
  steps : w.steps ≤ g.size
  drained : e = none →
    w.frontier = [] ∧ w.finished.size + w.failed.size ≤ 2 ^ g.jointNames.length
  broken : ∀ x, e = some x → x.ofInstruction = true

theorem finishes_drained (ordered : g.Ordered order) (dwindles : Dwindles g order v)
    (early : v.steps ≤ order.length) (drained : v.frontier = []) : Finishes g v none := by
  have ways := dwindles.ways
  rw [drained, List.map_nil, List.sum_nil, Nat.zero_add] at ways
  constructor
  · exact ordered.length ▸ early
  · exact fun _ => ⟨drained, ways⟩
  · intro x impossible
    cases impossible

theorem finishes_broken (ordered : g.Ordered order)
    (proper : ∀ id n, g.node? id = some n → n.Proper g id) (dwindles : Dwindles g order v)
    (early : v.steps ≤ order.length) {a : Valve.Abort}
    (refused : v.advance (fun _ => false) = .error a) : Finishes g v (some a.cause) := by
  constructor
  · exact ordered.length ▸ early
  · intro impossible
    cases impossible
  · rintro x ⟨⟩
    obtain ⟨f, front, failed⟩ := Valve.advance_refused dwindles.unlimited refused
    obtain ⟨n, found⟩ := ordered.node (dwindles.inside f front)
    obtain ⟨_, ⟨missing, _⟩ | ⟨m, there, broke⟩⟩ := Valve.passage_error failed
    · rw [dwindles.graph] at missing
      cases found.symm.trans missing
    · rw [dwindles.graph] at there
      exact flow_refused (proper _ m there) broke

theorem dwindles_runs (ordered : g.Ordered order)
    (straight : ∀ id n, g.node? id = some n → n.loops = false)
    (proper : ∀ id n, g.node? id = some n → n.Proper g id) (unbounded : limit ≤ 0)
    (dwindles : Dwindles g order v) (early : v.steps ≤ order.length) :
    ∃ events w e, Valve.Runs limit v events w e ∧ Finishes g w e := by
  induction left : order.length - v.steps generalizing v with
  | zero =>
    -- no flight has anything left
    have drained : v.frontier = [] := by
      apply List.eq_nil_iff_forall_not_mem.mpr
      intro f member
      obtain ⟨rest, here⟩ := Graph.below_inside (dwindles.inside f member)
      have room := dwindles.left f member
      rw [here, List.length_cons] at room
      omega
    exact ⟨[], v, none, .drained drained, finishes_drained ordered dwindles early drained⟩
  | succ k ih =>
    by_cases drained : v.frontier = []
    · exact ⟨[], v, none, .drained drained, finishes_drained ordered dwindles early drained⟩
    · cases outcome : v.advance (fun _ => false) with
      | error a =>
        exact ⟨[], v, some a.cause, .aborted drained (.inl unbounded) outcome,
          finishes_broken ordered proper dwindles early outcome⟩
      | ok result =>
        obtain ⟨v', entries⟩ := result
        have one := Valve.advance_steps outcome
        have less := dwindles_advance ordered straight dwindles outcome
        obtain ⟨events, w, e, runs, ends⟩ := ih less (by omega) (by omega)
        exact ⟨_, w, e, .step drained (.inl unbounded) outcome runs, ends⟩

end Dwindles

/-- Every cycle of a compiled graph passes through the joint of a loop. Without loops every run that
nobody cancels ends, if neither steps nor stacks are limited: after no more steps than the graph has
nodes, at an instruction or with no more paths than two for each joint multiplied. -/
theorem loopless_code_finishes (code : Code) :
    (∀ id ids, (Graph.build code).Cycle id ids →
      ∃ k ∈ id :: ids, ∃ n, (Graph.build code).node? k = some n ∧ n.loops = true) ∧
    (Loopless code → ∀ initial budget tag limit fuel trace, budget ≤ 0 → limit ≤ 0 →
      (Graph.build code).size < fuel →
      ∃ r, Valve.run .never limit fuel (Valve.opened (Graph.build code) initial budget tag) trace =
        some r ∧ Finishes (Graph.build code) r.valve r.error) := by
  obtain ⟨order, ordered⟩ := build_ordered code
  constructor
  · intro id ids cycle
    exact ordered.cycle cycle
  · intro loopless initial budget tag limit fuel trace unlimited unbounded enough
    have formed := build_wellFormed code
    obtain ⟨_, _, root⟩ := formed.root
    have fresh : Dwindles _ order (Valve.opened (Graph.build code) initial budget tag) :=
      dwindles_opened ordered (by simp [root]) unlimited
    obtain ⟨events, w, e, runs, ends⟩ := dwindles_runs ordered
      (fun _ _ => build_straight loopless) formed.nodes unbounded fresh (Nat.zero_le _)
    have few := ends.steps
    have within : w.steps <
        (Valve.opened (Graph.build code) initial budget tag).steps + fuel := by omega
    obtain ⟨trace', ended, _⟩ := Valve.run_of_runs runs within trace
    exact ⟨⟨w, trace', e⟩, ended, ends⟩

def emptyLoop : Instruction := .op "LOOP" [] [.code []]

theorem guardingJoint_nested {r : Int} {c : Code} (nested : Nested [guardingJoint] r c) :
    c = [] ∨ c = [guardingJoint] ∨ c = [.op "FAILWITH" [] []] := by
  induction nested with
  | whole => exact .inr (.inl rfl)
  | rest _ ih =>
    left
    rcases ih with h | h | h <;> cases h <;> rfl
  | group _ group ih => rcases ih with h | h | h <;> cases h <;> cases group
  | dip _ dip ih =>
    rcases ih with h | h | h <;> cases h
    · exact absurd dip (by decide)
    · exact absurd dip (by decide)
  | @arm r i is j k _ found branches small ih =>
    rcases ih with h | h | h <;> cases h <;> cases found
    match k, small with
    | 0, _ => exact .inl rfl
    | 1, _ => exact .inr (.inr rfl)
  | turn _ found loops ih =>
    rcases ih with h | h | h <;> cases h
    · cases found
      cases loops
    · cases found

theorem guardingJoint_loopless : Loopless [guardingJoint] := by
  intro r i is nested j found
  rcases guardingJoint_nested nested with h | h | h <;> cases h <;> cases found
  rfl

/-- An empty loop turns at its joint; a guard lets one path end and one fail, within three steps. -/
theorem guarded_code_finishes :
    (Graph.build [emptyLoop]).Cycle 3 [2] ∧
    (∃ k ∈ [(3 : Int), 2], ∃ n, (Graph.build [emptyLoop]).node? k = some n ∧ n.loops = true) ∧
    Loopless [guardingJoint] ∧ ∃ r,
      Valve.run .never 0 6 (Valve.opened (Graph.build [guardingJoint])
        { visible := [.ofText Ty.bool "guard", .ofText Ty.nat "reason"] } 0 "") #[] = some r ∧
      Finishes (Graph.build [guardingJoint]) r.valve r.error := by
  have turns : (Graph.build [emptyLoop]).Cycle 3 [2] := by
    have built : Graph.build [emptyLoop] =
        { nodes := #[.tube 0 [] noNode, .tube 1 [] 2, .fork 2 "LOOP" [3, 0], .tube 3 [] 2]
          root := 1 } := by cbv
    rw [built]
    unfold Graph.Cycle
    decide
  have size : (Graph.build [guardingJoint]).size = 5 := by cbv
  refine ⟨turns, (loopless_code_finishes _).1 3 [2] turns, guardingJoint_loopless, ?_⟩
  exact (loopless_code_finishes _).2 guardingJoint_loopless _ 0 "" 0 6 #[] (by decide) (by decide)
    (by rw [size]; decide)

end StackFlow
