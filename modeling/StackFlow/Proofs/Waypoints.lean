import StackFlow.Proofs.Courses
import StackFlow.Proofs.Cursors

/-!
Runs instruction by instruction. A stack that goes through a graph is in front of an instruction of a
tube, at the end of a tube, or in front of a joint, and moves from one such place to the next. Main
statements: the flights of a valve have come from its seed by such moves, and in a valid graph every
place has one depth, the cursor of each stack that comes by.
-/

namespace StackFlow

open Micheline (Instruction Code)

/-- A place on the ways through a graph: in a tube in front of the instruction `index` or, behind
all of them, at the end, and in front of a joint. -/
structure Waypoint where
  node : Int
  index : Nat := 0

namespace Waypoint

def entry (id : Int) : Waypoint := { node := id }

def succ (p : Waypoint) : Waypoint := { p with index := p.index + 1 }

end Waypoint

/-- What a stack meets at a place. -/
inductive Stop where
  | run (i : Instruction)
  | leave (id next : Int)
  | fork (joint : String) (first second : Int)

def Node.stop? (n : Node) (index : Nat) : Option Stop :=
  match n.kind with
  | .tube =>
    match n.code[index]? with
    | some i => some (.run i)
    | none => some (.leave n.id n.next)
  | .joint =>
    match index, n.edges with
    | 0, [a, b] => some (.fork n.joint a b)
    | _, _ => none
  | .other => none

namespace Graph

def stop? (g : Graph) (p : Waypoint) : Option Stop := (g.node? p.node).bind fun n => n.stop? p.index

/-- What becomes of a stack at a place, and where it is then. -/
inductive Effect (g : Graph) (p : Waypoint) (s : Stack) : Waypoint → Stack → Prop where
  | run {i : Instruction} {t : Stack} :
      g.stop? p = some (.run i) → (Stack.step i).run s = .ok () t → Effect g p s p.succ t
  | leave {id next : Int} :
      g.stop? p = some (.leave id next) → Effect g p s (.entry next) (s.visit id)
  | first {joint : String} {a b : Int} {x y t : Stack} :
      g.stop? p = some (.fork joint a b) → (Stack.split joint).run s = .ok (x, y) t →
      Effect g p s (.entry a) x
  | second {joint : String} {a b : Int} {x y t : Stack} :
      g.stop? p = some (.fork joint a b) → (Stack.split joint).run s = .ok (x, y) t →
      Effect g p s (.entry b) y

/-- A stack that has not failed moves on. -/
def Move (g : Graph) (p : Waypoint) (s : Stack) (q : Waypoint) (t : Stack) : Prop :=
  s.isFailed = false ∧ g.Effect p s q t

/-- `Trip g inside p s q t`: by moves from places that are `inside` the stack `s` at `p` becomes the
stack `t` at `q`. -/
inductive Trip (g : Graph) (inside : Waypoint → Prop) :
    Waypoint → Stack → Waypoint → Stack → Prop where
  | stay {p : Waypoint} {s : Stack} : Trip g inside p s p s
  | move {p q r : Waypoint} {s t u : Stack} :
      inside p → g.Move p s q t → Trip g inside q t r u → Trip g inside p s r u

abbrev Way (g : Graph) : Waypoint → Stack → Waypoint → Stack → Prop := g.Trip fun _ => True

section Effects

variable {g : Graph} {p q : Waypoint} {s t : Stack}

theorem effect_stop (effect : g.Effect p s q t) : ∃ stop, g.stop? p = some stop := by
  cases effect with
  | run here => exact ⟨_, here⟩
  | leave here => exact ⟨_, here⟩
  | first here => exact ⟨_, here⟩
  | second here => exact ⟨_, here⟩

theorem effect_run {i : Instruction} (here : g.stop? p = some (.run i))
    (effect : g.Effect p s q t) : q = p.succ ∧ (Stack.step i).run s = .ok () t := by
  cases effect with
  | run there stepped =>
    cases Option.some.inj (here.symm.trans there)
    exact ⟨rfl, stepped⟩
  | leave there => cases here.symm.trans there
  | first there => cases here.symm.trans there
  | second there => cases here.symm.trans there

theorem effect_leave {id next : Int} (here : g.stop? p = some (.leave id next))
    (effect : g.Effect p s q t) : q = .entry next ∧ t = s.visit id := by
  cases effect with
  | run there => cases here.symm.trans there
  | leave there =>
    cases Option.some.inj (here.symm.trans there)
    exact ⟨rfl, rfl⟩
  | first there => cases here.symm.trans there
  | second there => cases here.symm.trans there

theorem effect_fork {joint : String} {a b : Int} (here : g.stop? p = some (.fork joint a b))
    (effect : g.Effect p s q t) : ∃ x y u, (Stack.split joint).run s = .ok (x, y) u ∧
      ((q = .entry a ∧ t = x) ∨ (q = .entry b ∧ t = y)) := by
  cases effect with
  | run there => cases here.symm.trans there
  | leave there => cases here.symm.trans there
  | first there branched =>
    cases Option.some.inj (here.symm.trans there)
    exact ⟨_, _, _, branched, .inl ⟨rfl, rfl⟩⟩
  | second there branched =>
    cases Option.some.inj (here.symm.trans there)
    exact ⟨_, _, _, branched, .inr ⟨rfl, rfl⟩⟩

end Effects

section Trips

variable {g : Graph} {inside : Waypoint → Prop} {p q r : Waypoint} {s t u : Stack}

theorem trip_append (before : g.Trip inside p s q t) (after : g.Trip inside q t r u) :
    g.Trip inside p s r u := by
  induction before with
  | stay => exact after
  | move within first _ ih => exact .move within first (ih after)

theorem trip_last (before : g.Trip inside p s q t) (within : inside q) (last : g.Move q t r u) :
    g.Trip inside p s r u :=
  trip_append before (.move within last .stay)

theorem trip_keeps {P : Waypoint → Stack → Prop} (trip : g.Trip inside p s q t) (start : P p s)
    (step : ∀ {p q s t}, P p s → g.Move p s q t → P q t) : P q t := by
  induction trip with
  | stay => exact start
  | move _ first _ ih => exact ih (step start first)

theorem way_of_trip (trip : g.Trip inside p s q t) : g.Way p s q t := by
  induction trip with
  | stay => exact .stay
  | move _ first _ ih => exact .move trivial first ih

end Trips

end Graph

/-! ## Runs of a valve -/

section Runs

variable {g : Graph} {n : Node} {id : Int} {s s' : Stack}

theorem stop?_of_node {index : Nat} (found : g.node? id = some n) :
    g.stop? ⟨id, index⟩ = n.stop? index := by
  rw [Graph.stop?, found]
  rfl

theorem runCode_way {code : Code} {k : Nat} (found : g.node? id = some n) (tube : n.kind = .tube)
    (rest : n.code.drop k = code) (ran : runCode code s = .ok s') (alive : s'.isFailed = false) :
    g.Way ⟨id, k⟩ s (.entry n.next) (s'.visit n.id) := by
  have going : s.isFailed = false := by
    by_contra fails
    have stuck := runCode_failed (s := s) (by simpa using fails) code
    cases stuck.symm.trans ran
    exact fails alive
  induction code generalizing k s with
  | nil =>
    cases ran
    have none : n.code[k]? = none := by
      rw [List.getElem?_eq_none_iff]
      exact List.drop_eq_nil_iff.mp rest
    refine .move trivial ⟨going, .leave ?_⟩ .stay
    simp [stop?_of_node found, Node.stop?, tube, none]
  | cons i is ih =>
    unfold runCode at ran
    rw [if_neg (by simp [going])] at ran
    split at ran
    · rename_i t stepped
      have here : n.code[k]? = some i := by
        rw [← List.head?_drop, rest, List.head?_cons]
      have next : n.code.drop (k + 1) = is := by
        rw [← List.tail_drop, rest, List.tail_cons]
      have stop : g.stop? ⟨id, k⟩ = some (.run i) := by
        simp [stop?_of_node found, Node.stop?, tube, here]
      refine .move trivial ⟨going, .run stop stepped⟩ (ih next ran ?_)
      by_contra fails
      have stuck := runCode_failed (s := t) (by simpa using fails) is
      cases stuck.symm.trans ran
      exact fails alive
    · cases ran

theorem flow_way {outs : List Flight} {o : Flight} (found : g.node? id = some n)
    (sound : n.kind = .joint → s.isFailed = false) (flowed : flow n s = .ok outs) (put : o ∈ outs)
    (alive : o.stack.isFailed = false) : g.Way (.entry id) s (.entry o.node) o.stack := by
  rcases flow_cases flowed with ⟨tube, t, ran, rfl⟩ | ⟨joint, x, y, t, a, b, branched, edges, rfl⟩
  · rw [List.mem_singleton.mp put] at alive ⊢
    exact runCode_way found tube rfl ran alive
  · have stop : g.stop? (.entry id) = some (.fork n.joint a b) := by
      rw [Waypoint.entry, stop?_of_node found]
      simp [Node.stop?, joint, edges]
    rcases List.mem_pair.mp put with rfl | rfl
    · exact .move trivial ⟨sound joint, .first stop branched⟩ .stay
    · exact .move trivial ⟨sound joint, .second stop branched⟩ .stay

/-- The flights of a valve, and the paths that have ended, have come from the seed. -/
theorem advances_way {initial : Stack} {budget : Int} {tag : String} {k : Nat} {v : Valve}
    (sound : ∀ n, g.node? g.root = some n → n.kind = .joint → initial.isFailed = false)
    (run : Valve.Advances k (Valve.opened g initial budget tag) v) :
    ∀ f, f ∈ v.frontier ∨ f ∈ v.finished →
      g.Way (.entry g.root) initial (.entry f.node) f.stack := by
  -- only the seed may have failed already
  have flights := advances_flights
    (P := fun f => g.Way (.entry g.root) initial (.entry f.node) f.stack ∧
      ∀ n, g.node? f.node = some n → n.kind = .joint → f.stack.isFailed = false)
    (Q := fun f => g.Way (.entry g.root) initial (.entry f.node) f.stack)
    ⟨.stay, sound⟩ (fun f reached _ => reached.1) ?_ run
  · intro f member
    exact member.elim (fun among => (flights.1 f among).1) (flights.2 f)
  · rintro f n outs o ⟨way, going⟩ found flowed put alive
    have further := Graph.trip_append way (flow_way found (going n found) flowed put alive)
    exact ⟨fun _ => ⟨further, fun _ _ _ => alive⟩, fun _ => further⟩

end Runs

/-! ## Depths -/

/-- The depth of a place: that of its node, moved by the markers in front of it. -/
def Graph.DepthAt (g : Graph) (known : String → Bool) (depth : Int → Option Int) (p : Waypoint)
    (d : Int) : Prop :=
  ∃ n e, g.node? p.node = some n ∧ depth p.node = some e ∧
    d = (Graph.checkTube known p.node (n.code.take p.index) e).1

section Depths

variable {g : Graph} {known : String → Bool} {depth : Int → Option Int} {p q : Waypoint} {d e : Int}
  {s t : Stack} {i : Instruction}

theorem depthAt_unique (one : g.DepthAt known depth p d) (other : g.DepthAt known depth p e) :
    d = e := by
  obtain ⟨n, a, found, here, rfl⟩ := one
  obtain ⟨m, b, there, same, rfl⟩ := other
  cases Option.some.inj (found.symm.trans there)
  cases Option.some.inj (here.symm.trans same)
  rfl

theorem depthAt_entry (chart : g.Charted known depth) {id : Int} (charted : depth id = some d) :
    g.DepthAt known depth (.entry id) d := by
  obtain ⟨n, found, _⟩ := chart.node id d charted
  exact ⟨n, d, found, charted, by simp [Waypoint.entry, Graph.checkTube]⟩

theorem stop?_some {stop : Stop} (here : g.stop? p = some stop) :
    ∃ n, g.node? p.node = some n ∧ n.stop? p.index = some stop :=
  Option.bind_eq_some_iff.mp here

theorem stop?_run {n : Node} {index : Nat} (here : n.stop? index = some (.run i)) :
    n.kind = .tube ∧ n.code[index]? = some i := by
  unfold Node.stop? at here
  split at here
  · rename_i tube
    split at here
    · rename_i k found
      cases here
      exact ⟨tube, found⟩
    · cases here
  · split at here <;> cases here
  · cases here

theorem stop?_leave {n : Node} {index : Nat} {id next : Int}
    (here : n.stop? index = some (.leave id next)) :
    n.kind = .tube ∧ n.code[index]? = none ∧ n.id = id ∧ n.next = next := by
  unfold Node.stop? at here
  split at here
  · rename_i tube
    split at here
    · cases here
    · rename_i none
      cases here
      exact ⟨tube, none, rfl, rfl⟩
  · split at here <;> cases here
  · cases here

theorem stop?_fork {n : Node} {index : Nat} {joint : String} {a b : Int}
    (here : n.stop? index = some (.fork joint a b)) :
    n.kind = .joint ∧ index = 0 ∧ n.joint = joint ∧ n.edges = [a, b] := by
  unfold Node.stop? at here
  split at here
  · split at here <;> cases here
  · rename_i kind
    split at here
    · rename_i edges
      cases here
      exact ⟨kind, rfl, rfl, edges⟩
    · cases here
  · cases here

theorem node_of_stop {stop : Stop} (here : g.stop? p = some stop) : p.node ≠ noNode := by
  intro none
  obtain ⟨n, found, _⟩ := stop?_some here
  rw [none, node?_noNode] at found
  cases found

theorem depthAt_of_stop {stop : Stop} (here : g.stop? p = some stop)
    (level : p.node = noNode ∨ g.DepthAt known depth p d) : g.DepthAt known depth p d :=
  level.resolve_left (node_of_stop here)

theorem depthAt_run (here : g.stop? p = some (.run i)) (level : g.DepthAt known depth p d) :
    g.DepthAt known depth p.succ (if isMarker i then wrap (d + markerDelta i) else d) := by
  obtain ⟨n, e, found, charted, rfl⟩ := level
  obtain ⟨m, there, stop⟩ := stop?_some here
  cases Option.some.inj (found.symm.trans there)
  obtain ⟨_, code⟩ := stop?_run stop
  refine ⟨n, e, found, charted, ?_⟩
  rw [Waypoint.succ, List.take_add_one, code, checkTube_append]
  rfl

theorem depthAt_leave (chart : g.Charted known depth) {id next : Int}
    (here : g.stop? p = some (.leave id next)) (level : g.DepthAt known depth p d) :
    next = noNode ∨ g.DepthAt known depth (.entry next) d := by
  obtain ⟨n, e, found, charted, rfl⟩ := level
  obtain ⟨m, there, stop⟩ := stop?_some here
  cases Option.some.inj (found.symm.trans there)
  obtain ⟨tube, none, _, rfl⟩ := stop?_leave stop
  by_cases ends : n.next = noNode
  · exact .inl ends
  · right
    obtain ⟨m, there, _, targets⟩ := chart.node p.node e charted
    cases Option.some.inj (found.symm.trans there)
    apply depthAt_entry chart
    have all : n.code.take p.index = n.code :=
      List.take_of_length_le (List.getElem?_eq_none_iff.mp none)
    rw [all]
    refine targets (n.next, _) ?_
    simp [Graph.checkNode, tube, if_neg ends]

theorem depthAt_fork (chart : g.Charted known depth) {joint : String} {a b : Int}
    (here : g.stop? p = some (.fork joint a b)) (level : g.DepthAt known depth p d) :
    g.DepthAt known depth (.entry a) (if joint == Joint.iter.name then wrap (d + 1) else d) ∧
      g.DepthAt known depth (.entry b) d := by
  obtain ⟨n, e, found, charted, rfl⟩ := level
  obtain ⟨m, there, stop⟩ := stop?_some here
  cases Option.some.inj (found.symm.trans there)
  obtain ⟨kind, index, rfl, edges⟩ := stop?_fork stop
  obtain ⟨m, there, _, targets⟩ := chart.node p.node e charted
  cases Option.some.inj (found.symm.trans there)
  simp only [Graph.checkNode, kind, edges, Graph.edgeDepths, List.map_cons, List.map_nil,
    List.forall_mem_cons] at targets
  rw [index, List.take_zero, Graph.checkTube]
  exact ⟨depthAt_entry chart targets.1, depthAt_entry chart targets.2.1⟩

/-- A stack is at a place with the cursor that is the depth of the place. -/
structure Level (g : Graph) (known : String → Bool) (depth : Int → Option Int) (p : Waypoint)
    (s : Stack) : Prop where
  within : s.beyond = 0
  narrow : (s.cursor : Int) ≤ greatestWord
  depth : p.node = noNode ∨ g.DepthAt known depth p s.cursor

theorem level_move (chart : g.Charted known depth) (level : Level g known depth p s)
    (move : g.Move p s q t) (alive : t.isFailed = false) : Level g known depth q t := by
  obtain ⟨_, effect⟩ := move
  have depth_of {stop : Stop} (here : g.stop? p = some stop) := depthAt_of_stop here level.depth
  cases effect with
  | @run i t here stepped =>
    have cursor := step_cursor level.within stepped alive
    have inside := step_within (i := i) level.within
    rw [stepped] at inside
    refine ⟨inside, ?_, .inr ?_⟩
    · rw [cursor]
      split
      · exact (wrap_bounds _).2
      · exact level.narrow
    · rw [cursor]
      exact depthAt_run here (depth_of here)
  | leave here =>
    refine ⟨level.within, level.narrow, ?_⟩
    exact depthAt_leave chart here (depth_of here)
  | @first joint a b x y u here branched =>
    have cursor := (split_cursor level.within branched).1
    have inside := split_within joint level.within
    rw [branched] at inside
    refine ⟨inside.1, ?_, .inr ?_⟩
    · rw [cursor]
      split
      · exact (wrap_bounds _).2
      · exact level.narrow
    · rw [cursor]
      exact (depthAt_fork chart here (depth_of here)).1
  | @second joint a b x y u here branched =>
    have cursor := (split_cursor level.within branched).2
    have inside := split_within joint level.within
    rw [branched] at inside
    refine ⟨inside.2, ?_, .inr ?_⟩
    · rw [cursor]
      exact level.narrow
    · rw [cursor]
      exact (depthAt_fork chart here (depth_of here)).2

/-- Wherever a way leads in a valid graph, a stack that has not failed has the depth of the place as
its cursor. -/
theorem level_way (chart : g.Charted known depth) {initial : Stack} (cursor : initial.cursor = 0)
    (way : g.Way (.entry g.root) initial p s) (alive : s.isFailed = false) :
    Level g known depth p s := by
  refine Graph.trip_keeps (P := fun p s => s.isFailed = false → Level g known depth p s) way ?_ ?_
    alive
  · intro _
    have within : initial.beyond = 0 := by
      unfold Stack.cursor at cursor
      omega
    refine ⟨within, by rw [cursor]; decide, .inr ?_⟩
    rw [cursor]
    exact depthAt_entry chart chart.root
  · intro p q s t level move alive
    exact level_move chart (level move.1) move alive

end Depths

end StackFlow
