import StackFlow.Proofs.Courses
import StackFlow.Proofs.Cursors
import StackFlow.Proofs.Parting

/-!
What the path of a stack tells. A path lists the tubes on the walk of its stack, and joints leave no
trace in it. But where the edges of every joint lead to two tubes, the next tube tells which of them
was taken. Main statement: in a graph of compiled code the paths of what has ended or failed are
different, since the tubes of a walk determine the walk.
-/

namespace StackFlow

open Micheline (Instruction Code)

/-- The targets of the outputs of a node, in order. -/
def Node.exits (n : Node) : List Int :=
  match n.kind with
  | .tube => [n.next]
  | .joint => n.edges
  | .other => []

namespace Graph

def exits (g : Graph) (id : Int) : List Int := ((g.node? id).map Node.exits).getD []

/-- The target of output `i` of the node at `id`. -/
def exit (g : Graph) (id : Int) (i : Nat) : Int := (g.exits id).getD i noNode

/-- The nodes that are passed from `id` on when output `w[i]` is taken at the `i`-th. -/
def nodesOn (g : Graph) (id : Int) : List Nat → List Int
  | [] => []
  | i :: w => id :: g.nodesOn (g.exit id i) w

def tubesOn (g : Graph) (id : Int) (w : List Nat) : List Int := (g.nodesOn id w).filter g.isTube

/-- Every node that is passed has the output that is taken at it. -/
def Takes (g : Graph) (id : Int) : List Nat → Prop
  | [] => True
  | i :: w => i < (g.exits id).length ∧ g.Takes (g.exit id i) w

/-- The node that is passed last, if there is one, is a tube. -/
def EndsInTube (g : Graph) (id : Int) (w : List Nat) : Prop :=
  ∀ t ∈ (g.nodesOn id w).getLast?, g.isTube t = true

section Ways

variable {g : Graph} {id : Int} {w w' : List Nat} {i : Nat}

theorem nodesOn_snoc : g.nodesOn id (w ++ [i]) = g.nodesOn id w ++ [w.foldl g.exit id] := by
  induction w generalizing id with
  | nil => rfl
  | cons k w ih => simp [nodesOn, ih]

theorem tubesOn_snoc :
    g.tubesOn id (w ++ [i]) = g.tubesOn id w ++ [w.foldl g.exit id].filter g.isTube := by
  rw [tubesOn, nodesOn_snoc, List.filter_append, tubesOn]

theorem takes_snoc (takes : g.Takes id w) (last : i < (g.exits (w.foldl g.exit id)).length) :
    g.Takes id (w ++ [i]) := by
  induction w generalizing id with
  | nil => exact ⟨last, trivial⟩
  | cons k w ih => exact ⟨takes.1, ih takes.2 last⟩

theorem tubesOn_cons (tube : g.isTube id = true) :
    g.tubesOn id (i :: w) = id :: g.tubesOn (g.exit id i) w := by
  simp [tubesOn, nodesOn, tube]

theorem endsInTube_tail (ends : g.EndsInTube id (i :: w)) : g.EndsInTube (g.exit id i) w := by
  intro t last
  refine ends t ?_
  rw [nodesOn, List.getLast?_cons, Option.mem_def.mp last]
  rfl

theorem tubesOn_empty (ends : g.EndsInTube id w) (none : g.tubesOn id w = []) : w = [] := by
  cases w with
  | nil => rfl
  | cons i w =>
    have last : (g.nodesOn id (i :: w)).getLast? =
        some ((g.nodesOn (g.exit id i) w).getLast?.getD id) := by
      rw [nodesOn, List.getLast?_cons]
    have member := List.mem_filter.mpr ⟨List.mem_of_getLast? last, ends _ last⟩
    rw [← tubesOn, none] at member
    cases member

/-- A joint leaves no trace, and it is not passed last: the first tube is the one behind it. -/
theorem tubesOn_joint (joint : g.isTube id = false) (behind : g.isTube (g.exit id i) = true)
    (ends : g.EndsInTube id (i :: w)) :
    g.tubesOn id (i :: w) = g.tubesOn (g.exit id i) w ∧
      (g.tubesOn (g.exit id i) w).head? = some (g.exit id i) := by
  refine ⟨by simp [tubesOn, nodesOn, joint], ?_⟩
  cases w with
  | nil =>
    have tube := ends id rfl
    simp [joint] at tube
  | cons k w => rw [tubesOn_cons behind, List.head?_cons]

/-- The two exits of a joint are tubes and tell the outputs apart. -/
theorem exit_joint (parted : g.Parted) {n : Node} (found : g.node? id = some n)
    (kind : n.kind = .joint) (small : i < (g.exits id).length) :
    g.isTube (g.exit id i) = true ∧
      ∀ k < (g.exits id).length, g.exit id i = g.exit id k → i = k := by
  obtain ⟨p, q, edges, apart, first, second⟩ := parted id n found kind
  have exits : g.exits id = [p, q] := by simp [exits, found, Node.exits, kind, edges]
  have zero : g.exit id 0 = p := by simp [exit, exits]
  have one : g.exit id 1 = q := by simp [exit, exits]
  have two : (g.exits id).length = 2 := by simp [exits]
  rw [two] at small ⊢
  interval_cases i
  · refine ⟨by rw [zero, first], fun k small meet => ?_⟩
    interval_cases k <;> simp_all
  · refine ⟨by rw [one, second], fun k small meet => ?_⟩
    interval_cases k <;> simp_all

/-- The tubes tell which outputs were taken: that of a tube is the only one, and that of a joint is
the one behind which the next tube lies. -/
theorem tubesOn_inj (parted : g.Parted) (takes : g.Takes id w) (takes' : g.Takes id w')
    (ends : g.EndsInTube id w) (ends' : g.EndsInTube id w')
    (same : g.tubesOn id w = g.tubesOn id w') : w = w' := by
  induction w generalizing id w' with
  | nil => exact (tubesOn_empty ends' same.symm).symm
  | cons i w ih =>
    cases w' with
    | nil => exact tubesOn_empty ends same
    | cons i' w' =>
      have tail := endsInTube_tail ends
      have tail' := endsInTube_tail ends'
      obtain ⟨small, takes⟩ := takes
      obtain ⟨small', takes'⟩ := takes'
      cases found : g.node? id with
      | none => simp [exits, found] at small
      | some n =>
        cases kind : n.kind with
        | other => simp [exits, found, Node.exits, kind] at small
        | tube =>
          have tube : g.isTube id = true := by simp [isTube, found, kind]
          have one : (g.exits id).length = 1 := by simp [exits, found, Node.exits, kind]
          obtain rfl : i = 0 := by omega
          obtain rfl : i' = 0 := by omega
          rw [tubesOn_cons tube, tubesOn_cons tube] at same
          rw [ih takes takes' tail tail' (List.cons.inj same).2]
        | joint =>
          have joint : g.isTube id = false := by simp [isTube, found, kind]
          obtain ⟨behind, apart⟩ := exit_joint parted found kind small
          obtain ⟨behind', _⟩ := exit_joint parted found kind small'
          obtain ⟨front, head⟩ := tubesOn_joint joint behind ends
          obtain ⟨front', head'⟩ := tubesOn_joint joint behind' ends'
          rw [front, front'] at same
          rw [same, head'] at head
          obtain rfl : i = i' := apart i' small' (Option.some.inj head).symm
          rw [ih takes takes' tail tail' same]

end Ways

end Graph

/-! ## What a node does to a stack -/

section Nodes

variable {s s' : Stack} {i : Instruction} {code : Code} {name : String} {x y t : Stack}

/-- An instruction that runs is a failure, a marker, or one of a rule that keeps to the visible
items. -/
theorem step_sort {u : Unit} (stepped : (Stack.step i).run s = .ok u s') : i.name = "FAILWITH" ∨
    isMarker i = true ∨ ∃ r, Rule.ofName? i.name = some r ∧ r.isPlain = true ∧
      Stack.step i = r.run i := by
  by_cases fails : i.name = "FAILWITH"
  · exact .inl fails
  · cases marks : isMarker i with
    | true => exact .inr (.inl rfl)
    | false =>
      unfold Stack.step at stepped ⊢
      cases found : Rule.ofName? i.name with
      | none =>
        rw [found] at stepped
        cases stepped
      | some r =>
        have entry := table_plain _ (ofName?_mem found)
        have marker : (i.name == "CURSOR") = false := marks
        exact .inr (.inr ⟨r, rfl, by simpa [bne, marker, beq_false_of_ne fails] using entry, rfl⟩)

theorem step_failed {u : Unit} (within : s.beyond = 0) (fails : i.name = "FAILWITH")
    (stepped : (Stack.step i).run s = .ok u s') :
    ∃ reason rest, s.visible = reason :: rest ∧ s' = s.failWith reason := by
  rw [step_failWith fails] at stepped
  cases shown : s.visible with
  | nil => cases (run_failWith_empty within shown).symm.trans stepped
  | cons reason rest =>
    cases (run_failWith within shown).symm.trans stepped
    exact ⟨reason, rest, rfl, rfl⟩

/-- An instruction changes the visible items only, or it moves the boundary, or it fails. What is
kept by all that straight-line instructions make is kept by the visible items. -/
theorem step_cases {P : Item → Prop} {T : Ty → Prop} (closed : Closed P T) (admits : Admits T i)
    (within : s.beyond = 0) (good : ∀ x ∈ s.visible, P x) {u : Unit}
    (stepped : (Stack.step i).run s = .ok u s') :
    (∃ v, s' = { s with visible := v } ∧ ∀ x ∈ v, P x) ∨
    (isMarker i ∧ (Action.shift (markerDelta i)).run s = .ok u s') ∨
    i.name = "FAILWITH" ∧ ∃ reason rest, s.visible = reason :: rest ∧ s' = s.failWith reason := by
  rcases step_sort stepped with fails | marks | ⟨r, found, plain, same⟩
  · exact .inr (.inr ⟨fails, step_failed within fails stepped⟩)
  · rw [step_marker_rule marks] at stepped
    exact .inr (.inl ⟨marks, stepped⟩)
  · obtain ⟨result, v, run, _, kept, _⟩ :=
      run_plain closed admits found plain s s within within rfl rfl good
    rw [same] at stepped
    cases result with
    | ok _ =>
      cases run.symm.trans stepped
      exact .inl ⟨v, rfl, kept⟩
    | error e => cases run.symm.trans stepped

/-- A joint pops its guard and pushes what its edges push; an iteration hides the rest of the
collection for its body. -/
theorem split_cases (within : s.beyond = 0) (branched : (Stack.split name).run s = .ok (x, y) t) :
    ∃ j guard rest, Joint.ofName? name = some j ∧ s.visible = guard :: rest ∧
      ((x = Joint.pushAll { s with visible := rest } (j.payloads guard).1 ∧
          y = Joint.pushAll { s with visible := rest } (j.payloads guard).2) ∨
        ∃ inner, (Action.shift 1).run { s with
            visible := Joint.payload "ITER.rest" guard.ty guard :: rest, beyond := 0 } =
              .ok () inner ∧
          x = { inner with
            visible :=
              Joint.payload "ITER.elem" (Joint.elementTy guard.ty) guard :: inner.visible } ∧
          y = { s with visible := rest }) := by
  unfold Stack.split at branched
  cases found : Joint.ofName? name with
  | none =>
    rw [found] at branched
    cases branched
  | some j =>
    rw [found] at branched
    dsimp only at branched
    cases shown : s.visible with
    | nil => cases (Joint.run_branch_empty j within shown).symm.trans branched
    | cons guard rest =>
      refine ⟨j, guard, rest, rfl, rfl, ?_⟩
      by_cases iter : j = .iter
      · subst iter
        rw [Joint.run_branch_iter within shown, Joint.run_beside] at branched
        cases entered : (Joint.enterBody guard).run { s with visible := rest } with
        | error e u =>
          rw [entered] at branched
          cases branched
        | ok u made =>
          rw [entered] at branched
          cases branched
          obtain ⟨inner, shifted, rfl⟩ := Joint.enterBody_ok entered within
          have kept : inner.beyond = 0 := by rw [(shift_ok shifted).2.2]
          exact .inr ⟨inner, shifted, by rw [← kept], rfl⟩
      · cases (Joint.run_branch within shown iter).symm.trans branched
        exact .inl ⟨rfl, rfl⟩

theorem shift_trail {delta : Int} {u : Unit} (accepted : (Action.shift delta).run s = .ok u s') :
    s'.trail = s.trail := by
  rw [(shift_ok accepted).2.2]

theorem runCode_trail (within : s.beyond = 0) (ran : runCode code s = .ok s') :
    s'.trail = s.trail := by
  induction code generalizing s with
  | nil =>
    cases ran
    rfl
  | cons i is ih =>
    unfold runCode at ran
    split at ran
    · cases ran
      rfl
    · split at ran
      · rename_i t stepped
        have inside := step_within (i := i) within
        rw [stepped] at inside
        rw [ih inside ran]
        rcases step_cases (i := i) closed_true (fun _ _ _ _ => trivial) within
          (fun _ _ => trivial) stepped with ⟨v, rfl, _⟩ | ⟨_, shifted⟩ | ⟨_, _, _, _, rfl⟩
        · rfl
        · exact shift_trail shifted
        · rfl
      · cases ran

theorem split_trail (within : s.beyond = 0) (branched : (Stack.split name).run s = .ok (x, y) t) :
    x.trail = s.trail ∧ y.trail = s.trail := by
  obtain ⟨j, guard, rest, _, _, ⟨rfl, rfl⟩ | ⟨inner, shifted, rfl, rfl⟩⟩ :=
    split_cases within branched
  · exact ⟨rfl, rfl⟩
  · have kept := shift_trail shifted
    exact ⟨kept, rfl⟩

end Nodes

/-! ## Invariants of items -/

/-- An invariant of items holds of all items of the stack, and its boundary lies within them. -/
structure Stack.All (P : Item → Prop) (s : Stack) : Prop where
  within : s.beyond = 0
  items : ∀ x ∈ s.items, P x

namespace Stack.All

variable {P : Item → Prop} {s s' : Stack}

theorem visible (all : s.All P) : ∀ x ∈ s.visible, P x :=
  fun x member => all.items x (List.mem_append_right _ member)

theorem withVisible (all : s.All P) {v : List Item} (good : ∀ x ∈ v, P x) :
    ({ s with visible := v } : Stack).All P := by
  refine ⟨all.within, fun x member => ?_⟩
  rcases List.mem_append.mp member with hidden | shown
  · exact all.items x (List.mem_append_left _ hidden)
  · exact good x shown

theorem shift {delta : Int} {u : Unit} (all : s.All P)
    (accepted : (Action.shift delta).run s = .ok u s') : s'.All P := by
  obtain ⟨_, _, rfl⟩ := shift_ok accepted
  refine ⟨rfl, fun x member => all.items x ?_⟩
  simpa [Stack.items] using member

end Stack.All

/-- What joints make for a guard keeps an invariant of items. -/
structure Joint.Preserves (P : Item → Prop) : Prop where
  payloads : ∀ guard, P guard → ∀ j : Joint,
    (∀ x ∈ (j.payloads guard).1, P x) ∧ ∀ x ∈ (j.payloads guard).2, P x
  elem : ∀ guard, P guard → P (Joint.payload "ITER.elem" (Joint.elementTy guard.ty) guard)
  rest : ∀ guard, P guard → P (Joint.payload "ITER.rest" guard.ty guard)

theorem split_all {P : Item → Prop} {s x y t : Stack} {name : String} (keeps : Joint.Preserves P)
    (all : s.All P) (branched : (Stack.split name).run s = .ok (x, y) t) : x.All P ∧ y.All P := by
  obtain ⟨j, guard, rest, _, shown, made⟩ := split_cases all.within branched
  have good := all.visible
  rw [shown, List.forall_mem_cons] at good
  obtain ⟨own, behind⟩ := good
  rcases made with ⟨rfl, rfl⟩ | ⟨inner, shifted, rfl, rfl⟩
  · obtain ⟨first, second⟩ := keeps.payloads guard own j
    have pushed {xs : List Item} (new : ∀ x ∈ xs, P x) :
        ({ s with visible := xs.reverse ++ rest } : Stack).All P := by
      refine all.withVisible fun x member => ?_
      rcases List.mem_append.mp member with new' | old
      · exact new x (List.mem_reverse.mp new')
      · exact behind x old
    exact ⟨pushed first, pushed second⟩
  · have closed : ({ s with
        visible := Joint.payload "ITER.rest" guard.ty guard :: rest, beyond := 0 } : Stack).All P :=
      ⟨rfl, (all.withVisible (List.forall_mem_cons.mpr ⟨keeps.rest guard own, behind⟩)).items⟩
    have inside := closed.shift shifted
    exact ⟨inside.withVisible (List.forall_mem_cons.mpr ⟨keeps.elem guard own, inside.visible⟩),
      all.withVisible behind⟩

/-! ## Paths of walks -/

section Walks

variable {g : Graph} {seed f f' o : Flight} {w w' : List Nat} {via via' : Option Int} {i : Nat}

/-- What a node puts out goes to its targets, and only a tube leaves its number behind. -/
theorem flow_exits {id : Int} {n : Node} {s : Stack} {outs : List Flight} (proper : n.Proper g id)
    (within : s.beyond = 0) (flowed : flow n s = .ok outs) (taken : outs[i]? = some o) :
    i < n.exits.length ∧ o.node = n.exits.getD i noNode ∧ o.stack.beyond = 0 ∧
      o.stack.trail = [id].filter (fun _ => n.kind == .tube) ++ s.trail := by
  obtain ⟨_, kept⟩ := flow_outputs within flowed
  have inside := (kept o (List.mem_of_getElem? taken)).1
  cases proper with
  | @tube code next _ _ =>
    obtain ⟨_, s', ran, rfl⟩ | ⟨joint, _⟩ := flow_cases flowed
    · have small : i < 1 := (List.getElem?_eq_some_iff.mp taken).1
      obtain rfl : i = 0 := by omega
      cases taken
      have same := runCode_trail within ran
      exact ⟨Nat.one_pos, rfl, inside, congrArg (id :: ·) same⟩
    · cases joint
  | @joint j p q _ _ =>
    obtain ⟨tube, _⟩ | ⟨_, x, y, t, _, _, branched, edges, rfl⟩ := flow_cases flowed
    · cases tube
    · obtain ⟨first, second⟩ := split_trail within branched
      cases edges
      have small : i < 2 := (List.getElem?_eq_some_iff.mp taken).1
      interval_cases i
      · cases taken
        exact ⟨small, rfl, inside, first⟩
      · cases taken
        exact ⟨small, rfl, inside, second⟩

theorem outputs_exits (nodes : ∀ id n, g.node? id = some n → n.Proper g id)
    (within : f.stack.beyond = 0) (taken : (g.outputs f)[i]? = some o) :
    i < (g.exits f.node).length ∧ o.node = g.exit f.node i ∧ o.stack.beyond = 0 ∧
      o.stack.path = f.stack.path ++ [f.node].filter g.isTube := by
  unfold Graph.outputs at taken
  split at taken
  · simp at taken
  · rename_i n found
    split at taken
    · rename_i outs flowed
      obtain ⟨small, target, inside, trail⟩ :=
        flow_exits (nodes f.node n found) within flowed taken
      have exits : g.exits f.node = n.exits := by simp [Graph.exits, found]
      have tube : g.isTube f.node = (n.kind == .tube) := by simp [Graph.isTube, found]
      refine ⟨by rw [exits]; exact small, by rw [Graph.exit, exits, target], inside, ?_⟩
      cases kind : n.kind == .tube <;> simp [Stack.path, trail, tube, kind]
    · simp at taken

/-- Where a walk leads, and what it leaves behind on the way. -/
structure Graph.Follows (g : Graph) (seed : Flight) (w : List Nat) (via : Option Int)
    (f : Flight) : Prop where
  takes : g.Takes seed.node w
  target : w.foldl g.exit seed.node = f.node
  last : (g.nodesOn seed.node w).getLast? = via
  within : f.stack.beyond = 0
  path : f.stack.path = seed.stack.path ++ g.tubesOn seed.node w

/-- The path of a stack lists the tubes on its walk. -/
theorem walk_follows (nodes : ∀ id n, g.node? id = some n → n.Proper g id)
    (within : seed.stack.beyond = 0) (walk : Walk g seed w via f) : g.Follows seed w via f := by
  induction walk with
  | start => exact ⟨trivial, rfl, rfl, within, by simp [Graph.tubesOn, Graph.nodesOn]⟩
  | @flow w via f o i _ _ _ taken ih =>
    obtain ⟨takes, target, last, inside, path⟩ := ih
    obtain ⟨small, target', inside', path'⟩ := outputs_exits nodes inside taken
    rw [← target] at small path'
    refine ⟨Graph.takes_snoc takes small, ?_, ?_, inside', ?_⟩
    · rw [List.foldl_append, target]
      exact target'.symm
    · rw [Graph.nodesOn_snoc, List.getLast?_concat, target]
    · rw [path', path, Graph.tubesOn_snoc, List.append_assoc]

/-- The outputs that are taken determine a walk. -/
theorem walk_unique (walk : Walk g seed w via f) (walk' : Walk g seed w via' f') :
    via = via' ∧ f = f' := by
  induction walk generalizing via' f' with
  | start =>
    obtain ⟨rfl, rfl⟩ := walk_nil walk'
    exact ⟨rfl, rfl⟩
  | flow _ _ _ taken ih =>
    obtain ⟨_, _, before, _, _, taken', rfl⟩ := walk_snoc walk'
    obtain ⟨_, rfl⟩ := ih before
    exact ⟨rfl, Option.some.inj (taken.symm.trans taken')⟩

/-- The node that is passed last has the last word in the path, if it is a tube. -/
theorem path_last {id : Int} (follows : g.Follows seed w (some id) f) (tube : g.isTube id = true) :
    f.stack.path.getLast? = some id := by
  obtain ⟨front, nodes⟩ := List.getLast?_eq_some_iff.mp follows.last
  rw [follows.path, Graph.tubesOn, nodes]
  simp [tube]

/-- The tubes on two walks that come through a tube last tell the walks apart. -/
theorem walk_of_path {id id' : Int} (parted : g.Parted)
    (nodes : ∀ id n, g.node? id = some n → n.Proper g id) (within : seed.stack.beyond = 0)
    (walk : Walk g seed w (some id) f) (walk' : Walk g seed w' (some id') f')
    (tube : g.isTube id = true) (tube' : g.isTube id' = true)
    (same : f.stack.path = f'.stack.path) : w = w' := by
  have follows := walk_follows nodes within walk
  have follows' := walk_follows nodes within walk'
  rw [follows.path, follows'.path] at same
  refine Graph.tubesOn_inj parted follows.takes follows'.takes ?_ ?_ (List.append_cancel_left same)
  · intro t last
    cases follows.last.symm.trans last
    exact tube
  · intro t last
    cases follows'.last.symm.trans last
    exact tube'

end Walks

/-! ## Where walks end -/

/-- A node that is reached and in which paths end. -/
def Graph.IsEnding (g : Graph) (id : Int) : Prop :=
  g.Reaches id ∧ ∃ code, g.node? id = some (.tube id code noNode)

section Endings

variable {g : Graph} {initial : Stack} {f : Flight} {w : List Nat} {via : Option Int}

theorem walk_reaches (wellFormed : g.WellFormed) (within : initial.beyond = 0)
    (walk : Walk g ⟨g.root, initial⟩ w via f) (active : f.node ≠ noNode) : g.Reaches f.node := by
  generalize start : (⟨g.root, initial⟩ : Flight) = seed at walk
  induction walk with
  | start =>
    subst start
    exact .root
  | @flow w via f o i before active' _ taken ih =>
    have reached := ih active'
    subst start
    have inside := (walk_follows wellFormed.nodes within before).within
    unfold Graph.outputs at taken
    split at taken
    · simp at taken
    · rename_i n found
      split at taken
      · rename_i outs flowed
        obtain ⟨_, kept⟩ := flow_outputs inside flowed
        exact .step reached found ((kept o (List.mem_of_getElem? taken)).2 active)
      · simp at taken

/-- A walk that has ended came through the ending node last. -/
theorem walk_ending (wellFormed : g.WellFormed) (within : initial.beyond = 0)
    (walk : Walk g ⟨g.root, initial⟩ w via f) (ends : f.node = noNode) :
    ∃ x, via = some x ∧ g.IsEnding x := by
  cases walk with
  | start =>
    obtain ⟨code, next, root⟩ := wellFormed.root
    have none : g.root = noNode := ends
    rw [none, node?_noNode] at root
    cases root
  | @flow w via f' _ i before active _ taken =>
    have reached := walk_reaches wellFormed within before active
    have inside := (walk_follows wellFormed.nodes within before).within
    obtain ⟨small, target, _⟩ := outputs_exits wellFormed.nodes inside taken
    rw [ends] at target
    refine ⟨f'.node, rfl, reached, ?_⟩
    cases found : g.node? f'.node with
    | none => simp [Graph.exits, found] at small
    | some n =>
      cases wellFormed.nodes f'.node n found with
      | @tube code next _ _ =>
        have one : i = 0 := by simpa [Graph.exits, found, Node.exits, Node.tube] using small
        have last : next = noNode := by
          simpa [Graph.exit, Graph.exits, found, Node.exits, Node.tube, one] using target.symm
        exact ⟨code, by rw [last]⟩
      | @joint j p q first second =>
        -- the edges of a joint lead to nodes of the graph
        have edge : ∀ t ∈ g.exits f'.node, (g.node? t).isSome := by
          simp [Graph.exits, found, Node.exits, Node.fork, first, second]
        have present := edge noNode (by
          rw [target, Graph.exit, List.getD_eq_getElem _ _ small]
          exact List.getElem_mem small)
        rw [node?_noNode] at present
        cases present

end Endings

/-! ## The books of a valve -/

theorem enumerates_nodup {α β : Type} {before : List Nat → List Nat → Prop}
    {P : List Nat → α → Prop} {xs : List α} (irrefl : ∀ w, ¬ before w w)
    (listed : Enumerates before P xs) (key : α → β)
    (tells : ∀ w w' x x', P w x → P w' x' → key x = key x' → w = w') : (xs.map key).Nodup := by
  obtain ⟨ps, rfl, sorted, members⟩ := listed
  rw [List.map_map, List.Nodup, List.pairwise_map]
  refine sorted.imp_of_mem ?_
  intro p q hp hq earlier same
  have one := tells p.1 q.1 p.2 q.2 ((members _ _).mp hp) ((members _ _).mp hq) same
  rw [one] at earlier
  exact irrefl _ earlier

/-- What the paths in the books of a valve tell about the walks from `initial`. -/
structure Graph.PathsTell (g : Graph) (initial : Stack) (v : Valve) : Prop where
  frontier : ∀ f ∈ v.frontier, ∃ w via, Walk g ⟨g.root, initial⟩ w via f ∧
    f.stack.path = g.tubesOn g.root w
  finished : ∀ f ∈ v.finished, ∃ w via, Walk g ⟨g.root, initial⟩ w via f ∧
    f.stack.path = g.tubesOn g.root w
  failed : ∀ f ∈ v.failed, ∃ w o, Walk g ⟨g.root, initial⟩ w (some f.node) o ∧
    o.stack = f.stack ∧ f.stack.path = g.tubesOn g.root w
  ending : ∃ x, (∀ id, g.IsEnding id ↔ id = x) ∧ ∀ f ∈ v.finished, f.stack.path.getLast? = some x
  failing : ∀ f ∈ v.failed, g.isTube f.node = true → f.stack.path.getLast? = some f.node
  apart : ((v.finished.toList ++ v.failed.toList.filter fun f => g.isTube f.node).map
    fun f => f.stack.path).Nodup
  decisions : ∀ w w' id id' f f', Walk g ⟨g.root, initial⟩ w (some id) f →
    Walk g ⟨g.root, initial⟩ w' (some id') f' → g.isTube id = true → g.isTube id' = true →
    f.stack.path = f'.stack.path → w = w'

section Books

variable {g : Graph} {initial : Stack} {k : Nat} {v : Valve} {f : Flight} {w : List Nat} {x : Int}
  (wellFormed : g.WellFormed) (within : initial.beyond = 0)

include wellFormed within

theorem walk_path {via : Option Int} (fresh : initial.path = [])
    (walk : Walk g ⟨g.root, initial⟩ w via f) : f.stack.path = g.tubesOn g.root w := by
  rw [(walk_follows wellFormed.nodes within walk).path, fresh, List.nil_append]

/-- A path that ended came through the only ending node last. -/
theorem ended_walk (only : ∀ y, g.IsEnding y → y = x) (walk : Ended g ⟨g.root, initial⟩ k w f) :
    Walk g ⟨g.root, initial⟩ w (some x) f ∧ f.stack.isFailed = false := by
  obtain ⟨_, _, via, walk, sound, ends⟩ := walk
  obtain ⟨y, rfl, last⟩ := walk_ending wellFormed within walk ends
  rw [only y last] at walk sound
  exact ⟨walk, by simpa [Fails] using sound⟩

/-- No two paths that ended or failed in tubes are the same. -/
theorem paths_apart (parted : g.Parted) (books : Exact g ⟨g.root, initial⟩ k v)
    (ending : g.IsEnding x) (only : ∀ y, g.IsEnding y → y = x) :
    ((v.finished.toList ++ v.failed.toList.filter fun f => g.isTube f.node).map
      fun f => f.stack.path).Nodup := by
  have decisions {w w' id id' f f'} := @walk_of_path g ⟨g.root, initial⟩ f f' w w' id id' parted
    wellFormed.nodes within
  have exits : g.isTube x = true := by
    obtain ⟨_, code, found⟩ := ending
    exact isTube_of_node found
  have inTubes : Enumerates ByLength
      (fun w f => Broken g ⟨g.root, initial⟩ k w f ∧ g.isTube f.node = true)
      (v.failed.toList.filter fun f => g.isTube f.node) := by
    rw [filter_eq_filterMap]
    refine enumerates_congr ?_ (enumerates_filterMap books.failed _)
    intro w f
    simp
  rw [List.map_append, List.nodup_append]
  refine ⟨?_, ?_, ?_⟩
  · refine enumerates_nodup (fun _ => irrefl _) books.finished _ ?_
    intro w w' f f' walk walk' same
    obtain ⟨walk, _⟩ := ended_walk wellFormed within only walk
    obtain ⟨walk', _⟩ := ended_walk wellFormed within only walk'
    exact decisions walk walk' exits exits same
  · refine enumerates_nodup (fun _ => irrefl _) inTubes _ ?_
    rintro w w' f f' ⟨⟨_, o, walk, _, stack⟩, tube⟩ ⟨⟨_, o', walk', _, stack'⟩, tube'⟩ same
    exact decisions walk walk' tube tube' (by rw [stack, stack', same])
  · intro one finished other failed same
    obtain ⟨f, member, rfl⟩ := List.mem_map.mp finished
    obtain ⟨f', member', rfl⟩ := List.mem_map.mp failed
    obtain ⟨w, walk⟩ := (enumerates_mem books.finished f).mp member
    obtain ⟨w', ⟨_, o, walk', failed, stack⟩, tube⟩ := (enumerates_mem inTubes f').mp member'
    obtain ⟨walk, alive⟩ := ended_walk wellFormed within only walk
    -- both are the end of one walk, which did not fail and failed
    rw [← stack] at same
    have one := decisions walk walk' exits tube same
    subst one
    obtain ⟨_, rfl⟩ := walk_unique walk walk'
    rw [alive] at failed
    cases failed

end Books

/-- In the graph of code whose branching instructions all have blocks, paths tell walks: a path is
the list of the tubes on its walk, what has ended or failed in a tube ends in that tube, no two of
these have one path, and the tubes on a walk determine every decision on it. -/
theorem paths_tell_walks {code : Code} (armed : Armed code) {initial : Stack}
    (fresh : initial.path = []) (bare : initial.cursor = 0) {budget : Int} {tag : String} {k : Nat}
    {v : Valve} (run : Valve.Advances k (Valve.opened (Graph.build code) initial budget tag) v) :
    (Graph.build code).PathsTell initial v := by
  have wellFormed := build_wellFormed code
  have parted := build_parted armed
  generalize Graph.build code = g at run wellFormed parted ⊢
  have books := exact_advances run
  have within : initial.beyond = 0 := by
    unfold Stack.cursor at bare
    omega
  obtain ⟨x, ending, only⟩ := wellFormed.ending
  have finished {f : Flight} (member : f ∈ v.finished) :
      ∃ w, Walk g ⟨g.root, initial⟩ w (some x) f := by
    obtain ⟨w, walk⟩ := (enumerates_mem books.finished f).mp (Array.mem_toList_iff.mpr member)
    exact ⟨w, (ended_walk wellFormed within only walk).1⟩
  have failed {f : Flight} (member : f ∈ v.failed) : ∃ w o,
      Walk g ⟨g.root, initial⟩ w (some f.node) o ∧ o.stack = f.stack := by
    obtain ⟨w, _, o, walk, _, same⟩ :=
      (enumerates_mem books.failed f).mp (Array.mem_toList_iff.mpr member)
    exact ⟨w, o, walk, same⟩
  constructor
  · intro f member
    obtain ⟨w, _, via, walk, _⟩ := (enumerates_mem books.frontier f).mp member
    exact ⟨w, via, walk, walk_path wellFormed within fresh walk⟩
  · intro f member
    obtain ⟨w, walk⟩ := finished member
    exact ⟨w, some x, walk, walk_path wellFormed within fresh walk⟩
  · intro f member
    obtain ⟨w, o, walk, same⟩ := failed member
    exact ⟨w, o, walk, same, same ▸ walk_path wellFormed within fresh walk⟩
  · refine ⟨x, fun id => ⟨only id, fun same => same ▸ ending⟩, fun f member => ?_⟩
    obtain ⟨w, walk⟩ := finished member
    obtain ⟨_, code, found⟩ := ending
    exact path_last (walk_follows wellFormed.nodes within walk) (isTube_of_node found)
  · intro f member tube
    obtain ⟨w, o, walk, same⟩ := failed member
    exact same ▸ path_last (walk_follows wellFormed.nodes within walk) tube
  · exact paths_apart wellFormed within parted books ending only
  · intro w w' id id' f f' walk walk' tube tube' same
    exact walk_of_path parted wellFormed.nodes within walk walk' tube tube' same

/-! ## An iteration that a guard may end -/

def flagGuard : Instruction := .op "IF" [] [.code [], .code [.op "FAILWITH" [] []]]

def guardedLoop : Code := [.op "ITER" [] [.code [flagGuard]]]

def flagsStack : Stack :=
  { visible := [.placeholder (.app "list" [Ty.bool]) ["flags"], .ofText (.leaf "string") "reason"] }

theorem guardedLoop_nested {r : Int} {c : Code} (nested : Nested guardedLoop r c) :
    c = [] ∨ c = guardedLoop ∨ c = [flagGuard] ∨ c = [.op "FAILWITH" [] []] := by
  induction nested with
  | whole => simp
  | rest _ ih =>
    left
    rcases ih with h | h | h | h <;> cases h <;> rfl
  | group _ group ih => rcases ih with h | h | h | h <;> cases h <;> cases group
  | dip _ dip ih =>
    rcases ih with h | h | h | h <;> cases h <;> exact absurd dip (by decide)
  | @arm _ _ _ _ k _ found branches small ih =>
    rcases ih with h | h | h | h <;> cases h <;> cases found
    · cases branches
    · match k, small with
      | 0, _ => exact .inl rfl
      | 1, _ => exact .inr (.inr (.inr rfl))
  | turn _ found loops ih =>
    rcases ih with h | h | h | h <;> cases h <;> cases found
    · exact .inr (.inr (.inl rfl))
    · cases loops

theorem guardedLoop_armed : Armed guardedLoop := by
  intro r i is nested joint
  rcases guardedLoop_nested nested with h | h | h | h <;> cases h
  · simp [Instruction.codeArgs, Instruction.args, Micheline.Arg.code?]
  · simp [flagGuard, Instruction.codeArgs, Instruction.args, Micheline.Arg.code?]
  · cases joint

theorem build_guardedLoop : Graph.build guardedLoop =
    { nodes := #[.tube 0 [] noNode, .tube 1 [] 2, .fork 2 "ITER" [5, 0], .tube 3 [marker (-1)] 2,
        .tube 4 [] 3, .tube 5 [] 6, .fork 6 "IF" [7, 8], .tube 7 [] 4,
        .tube 8 [.op "FAILWITH" [] []] 4],
      root := 1 } := by
  cbv

/-- After five steps one path has left the iteration and one has failed in its first turn. -/
theorem guarded_paths_tell_walks :
    ∃ v, Valve.Advances 5 (Valve.opened (Graph.build guardedLoop) flagsStack 0 "") v ∧
      v.finished.toList.map (fun f => f.stack.path) = [[1, 0]] ∧
      v.failed.toList.map (fun f => f.stack.path) = [[1, 5, 8]] ∧
      (Graph.build guardedLoop).PathsTell flagsStack v := by
  have run : ∃ v, Valve.Advances 5 (Valve.opened (Graph.build guardedLoop) flagsStack 0 "") v ∧
      v.finished.toList.map (fun f => f.stack.path) = [[1, 0]] ∧
      v.failed.toList.map (fun f => f.stack.path) = [[1, 5, 8]] := by
    rw [build_guardedLoop]
    exact ⟨_, .next (.next (.next (.next (.next .none rfl) rfl) rfl) rfl) rfl, rfl, rfl⟩
  obtain ⟨v, steps, finished, failed⟩ := run
  exact ⟨v, steps, finished, failed, paths_tell_walks guardedLoop_armed rfl rfl steps⟩

end StackFlow
