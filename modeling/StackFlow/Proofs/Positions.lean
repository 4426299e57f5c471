import StackFlow.Proofs.Courses
import StackFlow.Proofs.Layout
import StackFlow.Proofs.Settled

/-!
Courses that start at a position, within a tube or in front of a node. From a position at which code
is laid out a course runs the first instruction of the code, after it has entered the tubes in front
of it.
-/

namespace StackFlow

open Micheline (Instruction Code)

/-- A stack that leaves a tube, if it was in one. -/
def leave (here : Option Int) (s : Stack) : Stack :=
  match here with
  | none => s
  | some id => s.visit id

/-- `Path g n here code next s r`: a course in the tube `here` with the code `code` left in it. -/
def Path (g : Graph) (n : Nat) (here : Option Int) (code : Code) (next : Int) (s : Stack)
    (r : Option Stack) : Prop :=
  match runCode code s with
  | .error _ => r = none
  | .ok s' => Course g n ⟨next, leave here s'⟩ r

section Stacks

variable {s : Stack}

theorem leave_eq (here : Option Int) (s : Stack) : ∃ l, leave here s = { s with trail := l } := by
  cases here with
  | none => exact ⟨s.trail, rfl⟩
  | some id => exact ⟨id :: s.trail, rfl⟩

theorem Settled.withTrail (settled : Settled s) (l : List Int) : Settled { s with trail := l } :=
  ⟨settled.within, settled.narrow, settled.hidden, settled.visible⟩

theorem Settled.leave (settled : Settled s) (here : Option Int) : Settled (leave here s) := by
  obtain ⟨l, same⟩ := leave_eq here s
  rw [same]
  exact settled.withTrail l

end Stacks

/-! ## Moves of a course -/

section Moves

variable {g : Graph} {n : Nat} {here : Option Int} {code : Code} {next id : Int} {s t : Stack}
  {r : Option Stack} {i : Instruction} {node : Node}

theorem path_nil : Path g n here [] next s r ↔ Course g n ⟨next, leave here s⟩ r := Iff.rfl

theorem path_cons (alive : s.isFailed = false) :
    Path g n here (i :: code) next s r ↔
      match (Stack.step i).run s with
      | .error _ _ => r = none
      | .ok _ s' => Path g n here code next s' r := by
  unfold Path
  rw [runCode, if_neg (by simp [alive])]
  cases (Stack.step i).run s <;> rfl

theorem path_failed (fails : s.isFailed = true) (path : Path g n here code next s (some t)) :
    t = leave here s := by
  unfold Path at path
  rw [runCode_failed fails] at path
  have fails : (leave here s).isFailed = true := by
    obtain ⟨l, same⟩ := leave_eq here s
    rw [same]
    exact fails
  cases path with
  | failed => rfl
  | ended => rfl
  | flow alive => simp [fails] at alive

theorem path_of_failed (fails : s.isFailed = true) :
    Path g 0 here code next s (some (leave here s)) := by
  unfold Path
  rw [runCode_failed fails]
  refine .failed ?_
  obtain ⟨l, same⟩ := leave_eq here s
  rw [same]
  exact fails

theorem course_enter (alive : s.isFailed = false) (found : g.node? id = some node)
    (tube : node.kind = .tube) (course : Course g n ⟨id, s⟩ (some t)) :
    ∃ m < n, Path g m (some node.id) node.code node.next s (some t) := by
  cases course with
  | failed fails => simp [alive] at fails
  | ended _ ends =>
    dsimp only at ends
    simp [ends, node?_noNode] at found
  | @flow m _ o _ outs _ _ there flowed member rest =>
    cases Option.some.inj (found.symm.trans there)
    simp only [flow, tube, flowTube] at flowed
    split at flowed
    · rename_i s' ran
      cases flowed
      rw [List.mem_singleton.mp member] at rest
      refine ⟨m, Nat.lt_succ_self m, ?_⟩
      rw [Path, ran]
      exact rest
    · cases flowed

theorem course_of_tube (alive : s.isFailed = false) (found : g.node? id = some node)
    (tube : node.kind = .tube) (path : Path g n (some node.id) node.code node.next s r) :
    ∃ m, Course g m ⟨id, s⟩ r := by
  unfold Path at path
  split at path
  · rename_i fault ran
    obtain ⟨i, e⟩ := fault
    subst path
    exact ⟨0, .broken alive found (by simp only [flow, tube, flowTube, ran]; rfl)⟩
  · rename_i s' ran
    refine ⟨n + 1, .flow alive found ?_ (List.mem_singleton_self _) path⟩
    simp only [flow, tube, flowTube, ran]
    rfl

theorem course_branch {name : String} {a b : Int} (alive : s.isFailed = false)
    (found : g.node? id = some (.fork id name [a, b])) (course : Course g n ⟨id, s⟩ (some t)) :
    ∃ m < n, ∃ x y u, (Stack.split name).run s = .ok (x, y) u ∧
      (Course g m ⟨a, x⟩ (some t) ∨ Course g m ⟨b, y⟩ (some t)) := by
  cases course with
  | failed fails => simp [alive] at fails
  | ended _ ends =>
    dsimp only at ends
    simp [ends, node?_noNode] at found
  | @flow m _ o _ outs _ _ there flowed member rest =>
    cases Option.some.inj (found.symm.trans there)
    simp only [flow, flowJoint, Node.fork] at flowed
    split at flowed
    · cases flowed
    · rename_i x y u branched
      cases flowed
      refine ⟨m, Nat.lt_succ_self m, x, y, u, branched, ?_⟩
      rcases List.mem_pair.mp member with rfl | rfl
      · exact .inl rest
      · exact .inr rest

theorem course_of_branch {name : String} {a b : Int} {x y u : Stack} (alive : s.isFailed = false)
    (found : g.node? id = some (.fork id name [a, b]))
    (branched : (Stack.split name).run s = .ok (x, y) u)
    (rest : Course g n ⟨a, x⟩ r ∨ Course g n ⟨b, y⟩ r) : Course g (n + 1) ⟨id, s⟩ r := by
  have flowed : flow (.fork id name [a, b]) s = .ok [⟨a, x⟩, ⟨b, y⟩] := by
    simp [flow, flowJoint, Node.fork, branched]
  rcases rest with rest | rest
  · exact .flow alive found flowed (by simp) rest
  · exact .flow alive found flowed (by simp) rest

theorem course_of_refusal {name : String} {a b : Int} {u : Stack} {e : Fault}
    (alive : s.isFailed = false) (found : g.node? id = some (.fork id name [a, b]))
    (refused : (Stack.split name).run s = .error e u) : Course g 0 ⟨id, s⟩ none := by
  have broken : flow (.fork id name [a, b]) s = .error (.joint id e) := by
    simp [flow, flowJoint, Node.fork, refused]
  exact .broken alive found broken

end Moves

/-! ## Where code is laid out -/

/-- A course enters the tubes in front of code. -/
theorem path_ready {g : Graph} {flat pending : Code} {last next : Int} {n : Nat} {here : Option Int}
    {s t : Stack} (settled : Settled s) (path : Path g n here pending next s (some t)) :
    Laid g flat last pending next → ∃ m ≤ n, ∃ here' pending' next' l,
      Ready g flat last pending' next' ∧
      Path g m here' pending' next' { s with trail := l } (some t)
  | .ready ready => ⟨n, Nat.le_refl n, here, pending, next, s.trail, ready, path⟩
  | .enter found tube inner => by
    have moved := settled.leave here
    obtain ⟨m, fewer, path⟩ := course_enter moved.not_failed found tube path
    obtain ⟨m', fewer', here', pending', next', l, ready, path⟩ := path_ready moved path inner
    obtain ⟨l', same⟩ := leave_eq here s
    rw [same] at path
    exact ⟨m', by omega, here', pending', next', l, ready, path⟩

/-- A course from here, of any length, leads to an end that is `good`. -/
def Onward (g : Graph) (here : Option Int) (code : Code) (next : Int) (s : Stack)
    (good : Option Stack → Prop) : Prop :=
  ∃ n r, Path g n here code next s r ∧ good r

theorem onward_of_ready {g : Graph} {flat pending : Code} {last next : Int} {here : Option Int}
    {s : Stack} {good : Option Stack → Prop} (settled : Settled s)
    (go : ∀ here' pending' next' l, Ready g flat last pending' next' →
      Onward g here' pending' next' { s with trail := l } good) :
    Laid g flat last pending next → Onward g here pending next s good
  | .ready ready => go here pending next s.trail ready
  | .enter found tube inner => by
    have moved := settled.leave here
    obtain ⟨l', same⟩ := leave_eq here s
    obtain ⟨n, r, path, ends⟩ := onward_of_ready moved (by rw [same]; exact go) inner
    obtain ⟨m, course⟩ := course_of_tube moved.not_failed found tube path
    exact ⟨m, r, course, ends⟩

section Ready

variable {g : Graph} {flat pending : Code} {last next : Int} {n : Nat} {here : Option Int}
  {i : Instruction} {s t : Stack}

/-- A course through straight-line code takes its next step. -/
theorem path_step (settled : Settled s) (straight : Joint.ofName? i.name = none)
    (laid : Laid g (i :: flat) last pending next) (path : Path g n here pending next s (some t)) :
    ∃ m ≤ n, ∃ here' pending' next' l s', (Stack.step i).run { s with trail := l } = .ok () s' ∧
      Laid g flat last pending' next' ∧ Path g m here' pending' next' s' (some t) := by
  obtain ⟨m, fewer, here', pending', next', l, ready, path⟩ := path_ready settled path laid
  cases ready with
  | run _ rest =>
    rw [path_cons (settled.withTrail l).not_failed] at path
    split at path
    · contradiction
    · rename_i s' stepped
      exact ⟨m, fewer, here', _, next', l, s', stepped, rest, path⟩
  | fork found => simp [straight] at found
  | loop found => simp [straight] at found

/-- Behind all code a course stands in front of the node where the code goes on. -/
theorem path_done (settled : Settled s) (laid : Laid g [] last pending next)
    (path : Path g n here pending next s (some t)) :
    ∃ m ≤ n, ∃ l, Course g m ⟨last, { s with trail := l }⟩ (some t) := by
  obtain ⟨m, fewer, here', pending', next', l, ready, path⟩ := path_ready settled path laid
  cases ready with
  | done =>
    obtain ⟨l', same⟩ := leave_eq here' { s with trail := l }
    rw [path_nil, same] at path
    exact ⟨m, fewer, l', path⟩

theorem onward_step {good : Option Stack → Prop} (settled : Settled s) (breaks : good none)
    (straight : Joint.ofName? i.name = none) (laid : Laid g (i :: flat) last pending next)
    (go : ∀ here' pending' next' l s', (Stack.step i).run { s with trail := l } = .ok () s' →
      Laid g flat last pending' next' → Onward g here' pending' next' s' good) :
    Onward g here pending next s good := by
  refine onward_of_ready settled (fun here' pending' next' l ready => ?_) laid
  have alive := (settled.withTrail l).not_failed
  cases ready with
  | run _ rest =>
    cases stepped : (Stack.step i).run { s with trail := l } with
    | error e u =>
      refine ⟨0, none, ?_, breaks⟩
      rw [path_cons alive, stepped]
    | ok _ s' =>
      obtain ⟨n, r, path, ends⟩ := go here' _ next' l s' stepped rest
      refine ⟨n, r, ?_, ends⟩
      rw [path_cons alive, stepped]
      exact path
  | fork found => simp [straight] at found
  | loop found => simp [straight] at found

theorem onward_done {good : Option Stack → Prop} (settled : Settled s)
    (laid : Laid g [] last pending next)
    (go : ∀ l, ∃ n r, Course g n ⟨last, { s with trail := l }⟩ r ∧ good r) :
    Onward g here pending next s good := by
  refine onward_of_ready settled (fun here' pending' next' l ready => ?_) laid
  cases ready with
  | done =>
    obtain ⟨l', same⟩ := leave_eq here' { s with trail := l }
    obtain ⟨n, r, course, ends⟩ := go l'
    refine ⟨n, r, ?_, ends⟩
    rw [path_nil, same]
    exact course

end Ready

end StackFlow
