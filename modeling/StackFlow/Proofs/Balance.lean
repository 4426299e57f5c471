import Mathlib.Data.List.Induction
import StackFlow.Proofs.Flow
import StackFlow.Proofs.History
import StackFlow.Proofs.Walks

/-!
The books of a valve balance. What has flowed and what is in flight is the seed and all that went on
from a node; what flowed fixes the ended and the failed paths, the recorded stacks and the events.
Main statement: after every history of steps and runs the counts that this implies hold.
-/

namespace StackFlow

/-! ## What a flight leaves in the books -/

namespace Graph

variable (g : Graph) (f : Flight)

/-- What goes on behind the node of a flight. -/
def going : List Flight :=
  (g.outputs f).filter fun o => !o.stack.isFailed && o.node != noNode

def ending : List Flight :=
  (g.outputs f).filter fun o => !o.stack.isFailed && o.node == noNode

def failing : List Flight :=
  ((g.outputs f).filter (·.stack.isFailed)).map fun o => ⟨f.node, o.stack⟩

/-- The stacks that are recorded for a flight, with its node. -/
def recording : List (Int × Stack) := (g.outputs f).map fun o => (f.node, o.stack)

def traffic : List Event :=
  match g.node? f.node with
  | none => []
  | some n =>
    [.enter { id := n.id, kind := n.kind, joint := n.joint },
      .leave { id := n.id, kind := n.kind, joint := n.joint, outputs := (g.outputs f).length }]

/-- The events of a step from a frontier. -/
def report (fs : List Flight) : List Event :=
  fs.flatMap g.traffic ++
    (fs.flatMap g.ending).map (fun f => .finished (Valve.pathEvent f.stack)) ++
    (fs.flatMap g.failing).map fun f => .failed (Valve.pathEvent f.stack)

def jointAt (id : Int) : Bool := (g.node? id).any (·.kind == .joint)

end Graph

/-- The flights that have flowed when a step was made from each of the valves. -/
def flown (us : List Valve) : List Flight := us.flatMap (·.frontier)

@[simp] theorem flown_append (us ws : List Valve) : flown (us ++ ws) = flown us ++ flown ws :=
  List.flatMap_append

@[simp] theorem flown_single (u : Valve) : flown [u] = u.frontier := by
  simp [flown]

section Outputs

variable {g : Graph} {f : Flight} {n : Node} {s : Stack} {outs : List Flight}

theorem flow_length (flowed : flow n s = .ok outs) :
    outs.length = if n.kind == .joint then 2 else 1 := by
  rcases flow_cases flowed with ⟨tube, _, _, rfl⟩ | ⟨joint, _, _, _, _, _, _, _, rfl⟩
  · simp [tube]
  · simp [joint]

/-- A flight whose node could be flowed through. -/
def Graph.Flowed (g : Graph) (f : Flight) : Prop :=
  ∃ n, g.node? f.node = some n ∧ flow n f.stack = .ok (g.outputs f)

theorem Graph.Flowed.length (flowed : g.Flowed f) :
    (g.outputs f).length = if g.jointAt f.node then 2 else 1 := by
  obtain ⟨n, found, flowed⟩ := flowed
  rw [flow_length flowed, Graph.jointAt, found]
  rfl

theorem length_outputs (g : Graph) (f : Flight) :
    (g.going f).length + (g.ending f).length + (g.failing f).length = (g.outputs f).length := by
  simp only [Graph.going, Graph.ending, Graph.failing, List.length_map]
  induction g.outputs f with
  | nil => rfl
  | cons o os ih =>
    cases failed : o.stack.isFailed <;> by_cases ended : o.node = noNode <;>
      simp [failed, ended] <;> omega

end Outputs

/-! ## One step -/

section Steps

variable {g : Graph} {v v' : Valve} {canceled : Nat → Bool} {entries : List Entry}

/-- What a step does to the books, if no flight of the frontier has ended already. -/
structure Books (g : Graph) (v v' : Valve) (events : List Event) : Prop where
  frontier : v'.frontier = v.frontier.flatMap g.going
  finished : v'.finished.toList = v.finished.toList ++ v.frontier.flatMap g.ending
  failed : v'.failed.toList = v.failed.toList ++ v.frontier.flatMap g.failing
  memo : ∀ id, v'.memoAt id = v.memoAt id ++ stacksOf id (v.frontier.flatMap g.recording)
  recorded : v'.recorded = v.recorded + (v.frontier.flatMap g.recording).length
  events : events = g.report v.frontier
  flowed : ∀ f ∈ v.frontier, g.Flowed f

theorem flowed_of_passage {f : Flight} {p : Valve.Passage} (active : f.node ≠ noNode)
    (passed : v.passage f = .ok p) :
    ∃ n, v.graph.node? f.node = some n ∧ flow n f.stack = .ok (v.graph.outputs f) ∧
      p = .through f.node n (v.graph.outputs f) := by
  rcases Valve.passage_ok passed with ⟨ended, _⟩ | ⟨n, outs, _, found, flowed, rfl⟩
  · exact absurd ended active
  · have same : v.graph.outputs f = outs := by simp only [Graph.outputs, found, flowed]
    rw [same]
    exact ⟨n, found, flowed, rfl⟩

theorem advance_books (same : v.graph = g) (active : ∀ f ∈ v.frontier, f.node ≠ noNode)
    (accepted : v.advance canceled = .ok (v', entries)) : Books g v v' (eventsOf entries) := by
  subst same
  obtain ⟨ps, passed, commits⟩ := Valve.advance_commit accepted
  have behind : v' = (v.commit ps).1 := (congrArg Prod.fst commits).symm
  have reported : entries = (v.commit ps).2 := (congrArg Prod.snd commits).symm
  subst behind
  have parts : ∀ {β : Type} (part : Valve.Passage → List β) (of : Flight → List β),
      (∀ f n, v.graph.node? f.node = some n →
        part (.through f.node n (v.graph.outputs f)) = of f) →
      ps.flatMap part = v.frontier.flatMap of := by
    intro β part of agree
    apply flatMap_passages passed
    intro f member p crossed
    obtain ⟨n, found, _, rfl⟩ := flowed_of_passage (active f member) crossed
    exact agree f n found
  have finished := parts Valve.Passage.finished v.graph.ending fun _ _ _ => rfl
  have failed := parts Valve.Passage.failed v.graph.failing fun _ _ _ => rfl
  have recorded := parts Valve.Passage.recorded v.graph.recording fun _ _ _ => rfl
  constructor
  · exact parts _ _ fun _ _ _ => rfl
  · change (v.finished ++ ps.flatMap Valve.Passage.finished).toList = _
    rw [Array.toList_appendList, finished]
  · change (v.failed ++ ps.flatMap Valve.Passage.failed).toList = _
    rw [Array.toList_appendList, failed]
  · intro id
    rw [Valve.memoAt_commit passed, recorded]
  · rw [← recorded]
    rfl
  · have traffic := parts Valve.Passage.events v.graph.traffic fun f n found => by
      simp only [Valve.Passage.events, Graph.traffic, found]
    rw [reported, Valve.commit_events, traffic, finished, failed]
    rfl
  · intro f member
    obtain ⟨p, crossed⟩ := Valve.advance_passes accepted member
    obtain ⟨n, found, flowed, _⟩ := flowed_of_passage (active f member) crossed
    exact ⟨n, found, flowed⟩

theorem passages_budget {fs : List Flight} {done ps : Array Valve.Passage} {count : Nat}
    (positive : 0 < v.maxStacks) (counted : count = (done.toList.flatMap (·.recorded)).length)
    (fits : (v.recorded + count : Int) ≤ v.maxStacks)
    (accepted : v.passages canceled fs done count = .ok ps) :
    (v.recorded + (ps.toList.flatMap (·.recorded)).length : Int) ≤ v.maxStacks := by
  induction fs generalizing done count with
  | nil =>
    cases accepted
    rw [← counted]
    exact fits
  | cons f fs ih =>
    unfold Valve.passages at accepted
    split at accepted
    · contradiction
    · split at accepted
      · contradiction
      · dsimp only at accepted
        split at accepted
        · contradiction
        · rename_i p _ within
          have room : (v.recorded + (count + p.recorded.length : Nat) : Int) ≤ v.maxStacks := by
            cases p with
            | ended f => simpa [Valve.Passage.recorded] using fits
            | through id n outs =>
              simp only [Valve.overdrawn, Bool.and_eq_true, decide_eq_true_eq, not_and,
                Int.not_lt] at within
              exact within positive
          refine ih ?_ room accepted
          rw [counted]
          simp

theorem advance_budget (positive : 0 < v.maxStacks) (fits : (v.recorded : Int) ≤ v.maxStacks)
    (accepted : v.advance canceled = .ok (v', entries)) : (v'.recorded : Int) ≤ v.maxStacks := by
  rw [Valve.advance_eq] at accepted
  split at accepted
  · rename_i ps passed
    cases accepted
    have room := passages_budget positive (by simp) (by simpa using fits) passed
    exact_mod_cast room
  · contradiction

theorem advance_maxStacks (accepted : v.advance canceled = .ok (v', entries)) :
    v'.maxStacks = v.maxStacks := by
  obtain ⟨ps, _, rfl⟩ := Valve.advance_ok accepted
  rfl

end Steps

/-! ## All steps -/

/-- The books after steps from each of the valves `us`, with all that was reported. -/
structure Booked (g : Graph) (initial : Stack) (budget : Int) (us : List Valve) (v : Valve)
    (events : List Event) : Prop where
  graph : v.graph = g
  active : ∀ f ∈ v.frontier, f.node ≠ noNode
  flowed : ∀ f ∈ flown us, g.Flowed f
  queue : flown us ++ v.frontier = ⟨g.root, initial⟩ :: (flown us).flatMap g.going
  finished : v.finished.toList = (flown us).flatMap g.ending
  failed : v.failed.toList = (flown us).flatMap g.failing
  memo : ∀ id, v.memoAt id = stacksOf id ((flown us).flatMap g.recording)
  recorded : v.recorded = ((flown us).flatMap g.recording).length
  events : events = us.flatMap fun u => g.report u.frontier
  maxStacks : v.maxStacks = budget
  budget : 0 < budget → (v.recorded : Int) ≤ budget

section Booked

variable {g : Graph} {initial : Stack} {budget : Int} {tag : String} {us : List Valve}
  {v v' : Valve} {events : List Event}

theorem booked_opened (root : (g.node? g.root).isSome) :
    Booked g initial budget [] (Valve.opened g initial budget tag) [] := by
  have inside : g.root ≠ noNode := by
    intro outside
    rw [outside] at root
    cases root
  refine ⟨rfl, ?_, by simp [flown], rfl, rfl, rfl, fun _ => rfl, rfl, rfl, rfl, Int.le_of_lt⟩
  intro f member
  cases List.mem_singleton.mp member
  exact inside

theorem going_active {f o : Flight} (member : o ∈ g.going f) : o.node ≠ noNode := by
  simp only [Graph.going, List.mem_filter, Bool.and_eq_true, bne_iff_ne] at member
  exact member.2.2

theorem booked_advance {canceled : Nat → Bool} {entries : List Entry}
    (books : Booked g initial budget us v events)
    (accepted : v.advance canceled = .ok (v', entries)) :
    Booked g initial budget (us ++ [v]) v' (events ++ eventsOf entries) := by
  have step := advance_books books.graph books.active accepted
  have kept := advance_maxStacks accepted
  constructor
  · obtain ⟨ps, _, rfl⟩ := Valve.advance_ok accepted
    exact books.graph
  · intro f member
    rw [step.frontier] at member
    obtain ⟨_, _, went⟩ := List.mem_flatMap.mp member
    exact going_active went
  · intro f member
    rw [flown_append, flown_single, List.mem_append] at member
    exact member.elim (books.flowed f) (step.flowed f)
  · rw [flown_append, flown_single, step.frontier, List.flatMap_append, books.queue]
    rfl
  · rw [flown_append, flown_single, step.finished, books.finished, List.flatMap_append]
  · rw [flown_append, flown_single, step.failed, books.failed, List.flatMap_append]
  · intro id
    rw [flown_append, flown_single, step.memo, books.memo, List.flatMap_append, stacksOf_append]
  · rw [flown_append, flown_single, step.recorded, books.recorded, List.flatMap_append,
      List.length_append]
  · rw [books.events, step.events, List.flatMap_append, List.flatMap_singleton]
  · rw [kept, books.maxStacks]
  · intro positive
    have before := books.budget positive
    rw [← books.maxStacks] at positive before ⊢
    exact advance_budget positive before accepted

theorem booked_unbroken {es : List Entry} (root : (g.node? g.root).isSome)
    (steps : Valve.Unbroken (Valve.opened g initial budget tag) us es v) :
    Booked g initial budget us v (eventsOf es) := by
  induction steps with
  | none => exact booked_opened root
  | step _ accepted ih =>
    rw [eventsOf_append]
    exact booked_advance ih accepted

end Booked

/-! ## Visits -/

theorem visits_lookup (v : Valve) (id : Int) :
    (v.visits.lookup id).getD 0 = (v.memoAt id).length := v.memo.sizes_lookup id

theorem visits_sum (v : Valve) : (v.visits.map (·.2)).sum = v.memo.all.length := by
  simpa [Valve.visits] using v.memo.sizes_sum fun _ => true

/-! ## Events -/

namespace Event

/-- A stack enters a node with the number `x`. -/
def enters (x : Int) : Event → Bool
  | .enter e => e.id == x
  | _ => false

def leaves (x : Int) : Event → Bool
  | .leave e => e.id == x
  | _ => false

def outputs : Event → Nat
  | .leave e => e.outputs
  | _ => 0

def isFinished : Event → Bool
  | .finished _ => true
  | _ => false

def isFailed : Event → Bool
  | .failed _ => true
  | _ => false

def ofFinished (f : Flight) : Event := .finished (Valve.pathEvent f.stack)

def ofFailed (f : Flight) : Event := .failed (Valve.pathEvent f.stack)

end Event

section Events

variable {g : Graph} {fs : List Flight} {us : List Valve}

theorem reports_perm (g : Graph) (us : List Valve) :
    (us.flatMap fun u => g.report u.frontier).Perm
      ((flown us).flatMap g.traffic ++ (((flown us).flatMap g.ending).map Event.ofFinished ++
        ((flown us).flatMap g.failing).map Event.ofFailed)) := by
  induction us with
  | nil => exact .nil
  | cons u us ih =>
    have split : flown (u :: us) = u.frontier ++ flown us := rfl
    simp only [List.flatMap_cons, split, List.flatMap_append, List.map_append]
    refine (ih.append_left _).trans ?_
    unfold Graph.report
    simp only [List.append_assoc]
    refine List.Perm.append_left _ ?_
    refine ((List.perm_append_comm_assoc _ _ _).append_left _).trans ?_
    refine (List.perm_append_comm_assoc _ _ _).trans ?_
    refine List.Perm.append_left _ (List.Perm.append_left _ ?_)
    exact List.perm_append_comm_assoc _ _ _

/-- Whether the node that a flight enters has the number `x`. -/
def Graph.numbered (g : Graph) (x : Int) (f : Flight) : Bool := (g.node? f.node).any (·.id == x)

theorem traffic_of_flowed {f : Flight} (flowed : g.Flowed f) :
    ∃ n, g.node? f.node = some n ∧ g.traffic f =
      [.enter { id := n.id, kind := n.kind, joint := n.joint },
        .leave { id := n.id, kind := n.kind, joint := n.joint, outputs := (g.outputs f).length }] := by
  obtain ⟨n, found, _⟩ := flowed
  refine ⟨n, found, ?_⟩
  rw [Graph.traffic, found]

/-- Events of which each node that is flowed through reports at most one. -/
theorem traffic_countP {p : Event → Bool} {q : Flight → Bool}
    (each : ∀ f ∈ fs, (g.traffic f).countP p = if q f then 1 else 0) :
    (fs.flatMap g.traffic).countP p = fs.countP q := by
  induction fs with
  | nil => rfl
  | cons f fs ih =>
    have rest := ih fun o member => each o (List.mem_cons_of_mem f member)
    rw [List.flatMap_cons, List.countP_append, each f List.mem_cons_self, rest, List.countP_cons,
      Nat.add_comm]

theorem traffic_enters (x : Int) (flowed : ∀ f ∈ fs, g.Flowed f) :
    (fs.flatMap g.traffic).countP (Event.enters x) = fs.countP (g.numbered x) := by
  apply traffic_countP
  intro f member
  obtain ⟨n, found, reported⟩ := traffic_of_flowed (flowed f member)
  simp [reported, Graph.numbered, found, List.countP_cons, Event.enters]

theorem traffic_leaves (x : Int) (flowed : ∀ f ∈ fs, g.Flowed f) :
    (fs.flatMap g.traffic).countP (Event.leaves x) = fs.countP (g.numbered x) := by
  apply traffic_countP
  intro f member
  obtain ⟨n, found, reported⟩ := traffic_of_flowed (flowed f member)
  simp [reported, Graph.numbered, found, List.countP_cons, Event.leaves]

theorem traffic_paths (flowed : ∀ f ∈ fs, g.Flowed f) :
    (fs.flatMap g.traffic).countP Event.isFinished = 0 ∧
      (fs.flatMap g.traffic).countP Event.isFailed = 0 := by
  have silent (p : Event → Bool) (enter : ∀ e, p (.enter e) = false)
      (leave : ∀ e, p (.leave e) = false) : (fs.flatMap g.traffic).countP p = 0 := by
    rw [List.countP_eq_zero]
    intro e member
    obtain ⟨f, among, here⟩ := List.mem_flatMap.mp member
    obtain ⟨n, _, reported⟩ := traffic_of_flowed (flowed f among)
    rw [reported, List.mem_pair] at here
    rcases here with rfl | rfl
    · simp [enter]
    · simp [leave]
  exact ⟨silent _ (fun _ => rfl) fun _ => rfl, silent _ (fun _ => rfl) fun _ => rfl⟩

theorem traffic_outputs (flowed : ∀ f ∈ fs, g.Flowed f) :
    ((fs.flatMap g.traffic).map Event.outputs).sum = (fs.flatMap g.outputs).length := by
  induction fs with
  | nil => rfl
  | cons f fs ih =>
    obtain ⟨n, _, reported⟩ := traffic_of_flowed (flowed f List.mem_cons_self)
    have rest := ih fun o member => flowed o (List.mem_cons_of_mem f member)
    simp [reported, rest, Event.outputs]

end Events

/-! ## The balance -/

def Valve.jointEntries (v : Valve) : Nat := v.memo.all.countP fun entry => v.graph.jointAt entry.1

/-- The counts that agree after steps from each of the valves `us`, with all events reported. -/
structure Balanced (g : Graph) (budget : Int) (us : List Valve) (events : List Event)
    (v : Valve) : Prop where
  recorded : v.recorded = v.memo.all.length
  visited : v.recorded = (v.visits.map (·.2)).sum
  visits : ∀ id, (v.visits.lookup id).getD 0 = (v.memoAt id).length
  budget : 0 < budget → (v.recorded : Int) ≤ budget
  /-- Every stack that a joint puts out beside the first one is one more path. -/
  paths : v.frontier.length + v.finished.size + v.failed.size = 1 + v.jointEntries / 2
  pairs : 2 ∣ v.jointEntries
  /-- What came to a node has flowed through it or is about to. -/
  flows : ∀ id, (g.node? id).isSome →
    (flown us).countP (·.node == id) + v.frontier.countP (·.node == id) =
      (if g.root = id then 1 else 0) +
        ((flown us).flatMap g.outputs).countP fun o => !o.stack.isFailed && o.node == id
  enters : ∀ x, events.countP (Event.enters x) = (flown us).countP (g.numbered x)
  leaves : ∀ x, events.countP (Event.leaves x) = (flown us).countP (g.numbered x)
  /-- An event names the position of its node unless another node has the same number. -/
  numbers : ∀ id n, g.node? id = some n →
    (∀ id' n', g.node? id' = some n' → n'.id = n.id → id' = id) →
    (flown us).countP (g.numbered n.id) = (flown us).countP (·.node == id)
  outputs : (events.map Event.outputs).sum = v.recorded
  finished : events.countP Event.isFinished = v.finished.size
  failed : events.countP Event.isFailed = v.failed.size

section Balance

variable {g : Graph} {initial : Stack} {budget : Int} {us : List Valve} {v : Valve}
  {events : List Event} {fs : List Flight}

theorem length_flatMap_outputs (g : Graph) (fs : List Flight) :
    (fs.flatMap g.going).length + (fs.flatMap g.ending).length + (fs.flatMap g.failing).length =
      (fs.flatMap g.outputs).length := by
  induction fs with
  | nil => rfl
  | cons f fs ih =>
    have here := length_outputs g f
    simp only [List.flatMap_cons, List.length_append]
    omega

theorem length_recording (g : Graph) (fs : List Flight) :
    (fs.flatMap g.recording).length = (fs.flatMap g.outputs).length := by
  simp [List.length_flatMap, Graph.recording]

theorem length_outputs_joints (flowed : ∀ f ∈ fs, g.Flowed f) :
    (fs.flatMap g.outputs).length = fs.length + fs.countP fun f => g.jointAt f.node := by
  induction fs with
  | nil => rfl
  | cons f fs ih =>
    have here := (flowed f List.mem_cons_self).length
    have rest := ih fun o member => flowed o (List.mem_cons_of_mem f member)
    rw [List.flatMap_cons, List.length_append, here, rest, List.countP_cons, List.length_cons]
    split <;> omega

theorem countP_recording_joints (flowed : ∀ f ∈ fs, g.Flowed f) :
    (fs.flatMap g.recording).countP (fun entry => g.jointAt entry.1) =
      2 * fs.countP fun f => g.jointAt f.node := by
  induction fs with
  | nil => rfl
  | cons f fs ih =>
    have here := (flowed f List.mem_cons_self).length
    have rest := ih fun o member => flowed o (List.mem_cons_of_mem f member)
    have all : (g.recording f).countP (fun entry => g.jointAt entry.1) =
        if g.jointAt f.node then (g.outputs f).length else 0 := by
      rw [Graph.recording, List.countP_map]
      cases joint : g.jointAt f.node <;> simp [Function.comp_def, joint]
    rw [List.flatMap_cons, List.countP_append, all, here, rest, List.countP_cons]
    split <;> omega

theorem countP_going {id : Int} (inside : id ≠ noNode) (fs : List Flight) :
    (fs.flatMap g.going).countP (·.node == id) =
      (fs.flatMap g.outputs).countP fun o => !o.stack.isFailed && o.node == id := by
  induction fs with
  | nil => rfl
  | cons f fs ih =>
    rw [List.flatMap_cons, List.flatMap_cons, List.countP_append, List.countP_append, ih,
      Graph.going, List.countP_filter]
    congr 1
    apply List.countP_congr
    intro o _
    by_cases here : o.node = id
    · simp [here, inside]
    · simp [here]

theorem booked_balanced (books : Booked g initial budget us v events) :
    Balanced g budget us events v := by
  have queue := congrArg List.length books.queue
  have split := length_flatMap_outputs g (flown us)
  have twice := length_outputs_joints books.flowed
  have held : v.memo.all.Perm ((flown us).flatMap g.recording) :=
    Memo.perm_of_stacksOf fun id => (v.memo.stacksOf_all id).trans (books.memo id)
  have recorded : v.recorded = ((flown us).flatMap g.outputs).length := by
    rw [books.recorded, length_recording]
  have finished : v.finished.size = ((flown us).flatMap g.ending).length := by
    rw [← books.finished, Array.length_toList]
  have failed : v.failed.size = ((flown us).flatMap g.failing).length := by
    rw [← books.failed, Array.length_toList]
  have joints : v.jointEntries = 2 * (flown us).countP fun f => g.jointAt f.node := by
    rw [Valve.jointEntries, held.countP_eq, books.graph, countP_recording_joints books.flowed]
  have perm := books.events ▸ reports_perm g us
  obtain ⟨unfinished, unfailed⟩ := traffic_paths books.flowed
  constructor
  · rw [books.recorded, held.length_eq]
  · rw [visits_sum, books.recorded, held.length_eq]
  · exact visits_lookup v
  · exact books.budget
  · rw [List.length_append, List.length_cons] at queue
    omega
  · exact ⟨_, joints⟩
  · intro id inside
    have apart : id ≠ noNode := by
      rintro rfl
      cases inside
    have counted := congrArg (List.countP (·.node == id)) books.queue
    rw [List.countP_append, List.countP_cons, countP_going apart] at counted
    rw [counted, Nat.add_comm]
    simp
  · intro x
    rw [perm.countP_eq, List.countP_append, traffic_enters x books.flowed]
    simp [List.countP_map, Function.comp_def, Event.ofFinished, Event.ofFailed, Event.enters]
  · intro x
    rw [perm.countP_eq, List.countP_append, traffic_leaves x books.flowed]
    simp [List.countP_map, Function.comp_def, Event.ofFinished, Event.ofFailed, Event.leaves]
  · intro id n found alone
    apply List.countP_congr
    intro f member
    obtain ⟨m, at_, _⟩ := books.flowed f member
    rw [Graph.numbered, at_]
    simp only [Option.any_some, beq_iff_eq]
    constructor
    · intro same
      exact alone f.node m at_ same
    · intro same
      rw [same, found] at at_
      rw [Option.some.inj at_]
  · rw [(perm.map Event.outputs).sum_nat, List.map_append, List.sum_append,
      traffic_outputs books.flowed, recorded]
    simp [Function.comp_def, Event.ofFinished, Event.ofFailed, Event.outputs]
  · rw [perm.countP_eq, List.countP_append, unfinished, finished]
    simp [List.countP_map, Function.comp_def, Event.ofFinished, Event.ofFailed, Event.isFinished]
  · rw [perm.countP_eq, List.countP_append, unfailed, failed]
    simp [List.countP_map, Function.comp_def, Event.ofFinished, Event.ofFailed, Event.isFailed]

end Balance

/-- Whatever steps and runs are tried on a graph whose root is one of its nodes, under any budget and
any cancellations: the books of the valve balance, and so do the events. -/
theorem books_balance {g : Graph} {initial : Stack} {budget : Int} {tag : String}
    {calls : List Valve.Call} {v : Valve} {t : Array Entry} (root : (g.node? g.root).isSome)
    (history : History (Valve.opened g initial budget tag) #[] calls v t) :
    ∃ us es, Valve.Unbroken (Valve.opened g initial budget tag) us es v ∧
      eventsOf t.toList = eventsOf es ∧ Balanced g budget us (eventsOf t.toList) v := by
  obtain ⟨us, es, steps, events⟩ := Valve.history_unbroken history
  have same : eventsOf t.toList = eventsOf es := by simpa using events
  refine ⟨us, es, steps, same, ?_⟩
  rw [same]
  exact booked_balanced (booked_unbroken root steps)

def roomyValve : Valve :=
  Valve.opened forkedPaths { visible := [.ofText Ty.bool "guard"] } 4 ""

/-- A run that is canceled behind the fork, and one more step. -/
theorem forked_books_balance :
    ∃ v t, History roomyValve #[] [.run (.afterLeaves 1) 0, .advance .never] v t ∧
      v.recorded = 4 ∧ v.finished.size = 2 ∧
      ∃ us, us.length = 2 ∧ Balanced forkedPaths 4 us (eventsOf t.toList) v := by
  have history : ∃ v t, History roomyValve #[] [.run (.afterLeaves 1) 0, .advance .never] v t ∧
      v.recorded = 4 ∧ v.finished.size = 2 ∧ v.steps = 2 :=
    ⟨_, _, .call (.call .start (@Valve.Call.Gives.run _ _ _ _ 2 _
      ((Valve.run_ok rfl rfl (Valve.advance_eq.trans rfl)).trans
        (Valve.run_error rfl rfl (Valve.advance_eq.trans rfl)))))
      (Valve.gives_ok (Valve.advance_eq.trans rfl)), rfl, rfl, rfl⟩
  obtain ⟨v, t, history, recorded, finished, steps⟩ := history
  obtain ⟨us, es, unbroken, _, balanced⟩ := books_balance rfl history
  have count := Valve.unbroken_steps unbroken
  have zero : roomyValve.steps = 0 := rfl
  have two : us.length = 2 := by
    change v.steps = roomyValve.steps + us.length at count
    omega
  exact ⟨v, t, history, recorded, finished, us, two, balanced⟩

end StackFlow
