import StackFlow.Proofs.Coherence
import StackFlow.Proofs.Locality

/-!
Items at the bottom of a stack. Instructions and joints are local, and a failure drops all items, so
two runs whose first stacks differ in items at the bottom take the same steps. Main statement: with
further items at the bottom a run has the same nodes, paths and cursors, each stack keeps the items
at its bottom until it fails, and failed stacks are the same.
-/

namespace StackFlow

open Micheline (Code Instruction)

/-! ## Stacks with no visible items -/

/-- From a stack whose boundary lies behind its last item the action gets nowhere. -/
def Refuses {α : Type} (a : Action α) : Prop :=
  ∀ s : Stack, 0 < s.beyond → s.visible = [] → ∀ x t, a.run s ≠ .ok x t

namespace Refuses

variable {α β : Type}

theorem throw (e : Fault) : Refuses (MonadExcept.throw e : Action α) := by
  rintro s _ _ x t ⟨⟩

theorem bind {a : Action α} {f : α → Action β} (first : Refuses a) : Refuses (a >>= f) := by
  intro s outside none x t ran
  rw [Action.run_bind] at ran
  cases done : a.run s with
  | ok y u => exact first s outside none y u done
  | error e u =>
    rw [done] at ran
    cases ran

theorem get {f : Stack → Action α} (rest : ∀ s, Refuses (f s)) : Refuses (get >>= f) :=
  fun s => rest s s

theorem ofExcept {r : Except Fault α} {f : α → Action β} (rest : ∀ x, Refuses (f x)) :
    Refuses (Rule.ofExcept r >>= f) := by
  cases r with
  | ok x => exact rest x
  | error e => exact bind (throw e)

theorem underflow (i : Int) : Refuses (Action.underflow i : Action α) := by
  rintro s _ _ x t ⟨⟩

theorem peek (i : Int) : Refuses (Action.peek i) := by
  intro s _ none x t ran
  rw [Action.run_peek, none] at ran
  split at ran <;> cases ran

theorem popAt (i : Int) : Refuses (Action.popAt i) := bind (peek i)

theorem pop (n : Int) : Refuses (Action.pop n) := by
  intro s outside none x t ran
  have shallow : s.depth < 0 := by simp [Stack.depth, none, outside]
  have refused : (n < 0 || s.depth < n) = true := by
    simp only [Bool.or_eq_true, decide_eq_true_eq]
    omega
  rw [Action.run_pop, if_pos refused] at ran
  cases ran

theorem push (x : Item) : Refuses (Action.push x) := by
  intro s outside none y t ran
  rw [Action.run_push, if_pos (by simp [Stack.depth, none, outside])] at ran
  cases ran

theorem runOperator (i : Instruction) (arity : Nat) (result : ResultTy) :
    Refuses (Rule.runOperator i arity result) := bind (pop _)

theorem runPush (i : Instruction) : Refuses (Rule.runPush i) := by
  unfold Rule.runPush
  split
  · exact ofExcept fun t => ofExcept fun x => push _
  · exact throw _

/-- Every rule but the one of markers begins with the visible items, or it pushes. -/
theorem run {r : Rule} (i : Instruction) (other : r ≠ .cursor) : Refuses (r.run i) := by
  cases r with
  | cursor => contradiction
  | dup =>
    simp only [Rule.run]
    split
    · exact bind (throw _)
    · exact bind (peek _)
  | drop => exact bind (pop _)
  | swap => exact bind (pop _)
  | dig => exact bind (popAt _)
  | dug =>
    refine get fun s => ?_
    split
    · exact bind (underflow _)
    · exact bind (popAt _)
  | failWith => exact bind (pop _)
  | push => exact runPush i
  | unit => exact push _
  | lambda => exact ofExcept fun arg => ofExcept fun ret => push _
  | empty container arity literal => exact ofExcept fun args => push _
  | read t field => exact get fun s => push _
  | project side => exact bind (pop _)
  | unpair => exact bind (pop _)
  | pair => exact bind (pop _)
  | some => exact bind (pop _)
  | inject side => exact ofExcept fun other => bind (pop _)
  | cast => exact ofExcept fun t => bind (peek _)
  | rename => exact bind (peek _)
  | operator arity result => exact runOperator i arity result
  | concat => exact bind (peek _)
  | createContract => exact bind (pop _)

theorem split (name : String) : Refuses (Stack.split name) := by
  unfold Stack.split
  split
  · exact bind (pop _)
  · exact throw _

end Refuses

/-! ## Stacks -/

/-- Nothing in the stack has to do with the type that marks failed stacks; its boundary may lie
behind the last item. -/
structure Stack.Sound (s : Stack) : Prop where
  items : ∀ x ∈ s.items, x.FailFree
  place : s.beyond = 0 ∨ 0 < s.beyond ∧ s.visible = []

def Stack.arranged (s : Stack) (xs : List Item) (cursor : Nat) : Stack :=
  { Stack.ofItems xs cursor with trail := s.trail, env := s.env }

/-- What becomes of a stack if there were further items at the bottom: a failure has dropped them. -/
def Stack.deeper (below : List Item) (s : Stack) : Stack :=
  if s.isFailed then s else s.arranged (s.items ++ below) s.cursor

def Flight.deeper (below : List Item) (f : Flight) : Flight :=
  { f with stack := f.stack.deeper below }

section Stacks

variable {s s' t x y : Stack} {below : List Item}

theorem Stack.Sound.not_failed (sound : s.Sound) : s.isFailed = false :=
  not_failed_of_items sound.items

theorem Stack.Clean.sound (clean : s.Clean) : s.Sound := ⟨clean.items, .inl clean.within⟩

@[simp] theorem items_arranged (s : Stack) (xs : List Item) (cursor : Nat) :
    (s.arranged xs cursor).items = xs := List.take_append_drop cursor xs

@[simp] theorem cursor_arranged (s : Stack) (xs : List Item) (cursor : Nat) :
    (s.arranged xs cursor).cursor = cursor := by
  simp only [Stack.arranged, Stack.ofItems, Stack.cursor, List.length_take]
  omega

@[simp] theorem arranged_arranged (s : Stack) (xs ys : List Item) (cursor place : Nat) :
    (s.arranged xs cursor).arranged ys place = s.arranged ys place := rfl

theorem arranged_place (s : Stack) (xs : List Item) (cursor : Nat) :
    (s.arranged xs cursor).beyond = 0 ∨
      0 < (s.arranged xs cursor).beyond ∧ (s.arranged xs cursor).visible = [] := by
  by_cases inside : cursor ≤ xs.length
  · exact .inl (Nat.sub_eq_zero_of_le inside)
  · have outside := Nat.lt_of_not_le inside
    exact .inr ⟨Nat.sub_pos_of_lt outside, List.drop_of_length_le outside.le⟩

theorem sound_arranged {xs : List Item} (free : ∀ x ∈ xs, x.FailFree) (s : Stack) (cursor : Nat) :
    (s.arranged xs cursor).Sound :=
  ⟨by rwa [items_arranged], arranged_place s xs cursor⟩

theorem deeper_of_failed (failed : s.isFailed = true) : s.deeper below = s := if_pos failed

theorem deeper_of_alive (alive : s.isFailed = false) :
    s.deeper below = s.arranged (s.items ++ below) s.cursor :=
  if_neg (by simp [alive])

theorem over_of_within (within : s.beyond = 0) :
    s.over below = s.arranged (s.items ++ below) s.cursor := by
  cases s
  subst within
  simp [Stack.arranged, Stack.ofItems, Stack.over, Stack.cursor, Stack.items]

theorem deeper_of_clean (clean : s.Clean) : s.deeper below = s.over below := by
  rw [deeper_of_alive clean.not_failed, over_of_within clean.within]

@[simp] theorem deeper_visit (s : Stack) (id : Int) :
    (s.visit id).deeper below = (s.deeper below).visit id := by
  have same : (s.visit id).isFailed = s.isFailed := rfl
  unfold Stack.deeper
  rw [same]
  split <;> rfl

theorem isFailed_deeper (free : ∀ x ∈ below, x.FailFree) (s : Stack) :
    (s.deeper below).isFailed = s.isFailed := by
  cases alive : s.isFailed with
  | true => rw [deeper_of_failed alive, alive]
  | false =>
    have items : (s.deeper below).items = s.items ++ below := by
      rw [deeper_of_alive alive, items_arranged]
    rw [Stack.isFailed] at alive ⊢
    rw [items]
    cases top : s.items with
    | cons x xs =>
      rw [top] at alive
      exact alive
    | nil =>
      -- the topmost item is now one of those below
      exact not_failed_of_items (s := { visible := below }) free

end Stacks

/-! ## Nodes -/

section Nodes

variable {s s' t x y : Stack} {below : List Item} {i : Instruction} {code : Code} {n : Node}

theorem shift_arranged {delta : Int} {u : Unit}
    (accepted : (Action.shift delta).run s = .ok u s') :
    ∃ m : Nat, wrap (s.cursor + delta) = m ∧ m ≤ s.items.length ∧ s' = s.arranged s.items m := by
  obtain ⟨lower, upper, rfl⟩ := shift_ok accepted
  obtain ⟨m, moved⟩ := Int.eq_ofNat_of_zero_le lower
  rw [moved] at upper ⊢
  refine ⟨m, rfl, by omega, ?_⟩
  have short : m - s.items.length = 0 := by omega
  simp [Stack.arranged, Stack.ofItems, short]

theorem run_shift_arranged {delta : Int} {m : Nat} (moved : wrap (s.cursor + delta) = m)
    (upper : m ≤ s.items.length) :
    (Action.shift delta).run s = .ok () (s.arranged s.items m) := by
  have short : m - s.items.length = 0 := by omega
  rw [Action.run_shift, moved, if_neg (by simp [upper])]
  simp [Stack.arranged, Stack.ofItems, short]

/-- Further items leave a boundary that moves the same room. -/
theorem shift_append {delta : Int} {u : Unit} (accepted : (Action.shift delta).run s = .ok u s')
    (below : List Item) :
    (Action.shift delta).run (s.arranged (s.items ++ below) s.cursor) =
      .ok u (s'.arranged (s'.items ++ below) s'.cursor) := by
  obtain ⟨m, moved, upper, rfl⟩ := shift_arranged accepted
  rw [run_shift_arranged (m := m)]
  · simp
  · rw [cursor_arranged, moved]
  · rw [items_arranged, List.length_append]
    omega

theorem shift_over {delta : Int} {u : Unit} (within : s.beyond = 0)
    (accepted : (Action.shift delta).run s = .ok u s') (below : List Item) :
    (Action.shift delta).run (s.over below) = .ok u (s'.over below) := by
  have within' : s'.beyond = 0 := by rw [(shift_ok accepted).2.2]
  rw [over_of_within within, over_of_within within']
  exact shift_append accepted below

theorem shift_deeper {delta : Int} {u : Unit} (alive : s.isFailed = false)
    (accepted : (Action.shift delta).run s = .ok u s') (below : List Item) :
    (Action.shift delta).run (s.deeper below) = .ok u (s'.deeper below) := by
  have alive' : s'.isFailed = false := by
    obtain ⟨m, _, _, rfl⟩ := shift_arranged accepted
    rw [← alive, Stack.isFailed, items_arranged, Stack.isFailed]
  rw [deeper_of_alive alive, deeper_of_alive alive']
  exact shift_append accepted below

/-- Where nothing is visible because the boundary lies too deep, only a marker gets anywhere. -/
theorem step_stranded (outside : 0 < s.beyond) (none : s.visible = []) {u : Unit}
    (stepped : (Stack.step i).run s = .ok u s') :
    isMarker i ∧ (Action.shift (markerDelta i)).run s = .ok u s' := by
  rcases step_sort stepped with fails | marks | ⟨r, _, plain, same⟩
  · rw [step_failWith fails] at stepped
    exact absurd stepped (Refuses.run (r := .failWith) i nofun s outside none u s')
  · rw [step_marker_rule marks] at stepped
    exact ⟨marks, stepped⟩
  · rw [same] at stepped
    refine absurd stepped (Refuses.run i ?_ s outside none u s')
    rintro rfl
    cases plain

theorem step_sound (admits : Admits Ty.FailFree i) (sound : s.Sound) {u : Unit}
    (stepped : (Stack.step i).run s = .ok u s') :
    s'.Clean ∨ i.name = "FAILWITH" ∧ ∃ reason, FailedWith reason s' := by
  rcases sound.place with within | ⟨outside, none⟩
  · exact step_clean admits ⟨within, sound.items⟩ stepped
  · obtain ⟨m, _, _, rfl⟩ := shift_arranged (step_stranded outside none stepped).2
    refine .inl ⟨?_, by simpa using sound.items⟩
    simp [Stack.arranged, Stack.ofItems]
    omega

theorem step_deeper (admits : Admits Ty.FailFree i) (sound : s.Sound) {u : Unit}
    (stepped : (Stack.step i).run s = .ok u s') (below : List Item) :
    (Stack.step i).run (s.deeper below) = .ok u (s'.deeper below) := by
  rcases sound.place with within | ⟨outside, none⟩
  · have clean : s.Clean := ⟨within, sound.items⟩
    rw [deeper_of_clean clean]
    rcases step_clean admits clean stepped with clean' | ⟨fails, _⟩
    · rw [deeper_of_clean clean']
      rcases step_local (formed_true.yields i) within (fun _ _ => trivial) stepped with
        ⟨v, _, _, same⟩ | ⟨marks, shifted⟩ | ⟨_, reason, rest, _, rfl⟩
      · exact same below
      · rw [step_marker_rule marks]
        exact shift_over within shifted below
      · cases clean'.not_failed
    · -- the failure drops the items below with all others
      obtain ⟨reason, rest, shown, rfl⟩ := step_failed within fails stepped
      have shown' : (s.over below).visible = reason :: (rest ++ below) := by
        simp [Stack.over, shown]
      rw [step_failWith fails, run_failWith (s := s.over below) within shown', deeper_of_failed rfl]
      rfl
  · obtain ⟨marks, shifted⟩ := step_stranded outside none stepped
    rw [step_marker_rule marks]
    exact shift_deeper sound.not_failed shifted below

theorem runCode_sound (admits : ∀ i ∈ code, Admits Ty.FailFree i) (sound : s.Sound)
    (ran : runCode code s = .ok s') : s'.Sound ∨ s'.isFailed = true := by
  induction code generalizing s with
  | nil =>
    cases ran
    exact .inl sound
  | cons i is ih =>
    obtain ⟨first, others⟩ := List.forall_mem_cons.mp admits
    unfold runCode at ran
    rw [sound.not_failed, if_neg (by decide)] at ran
    split at ran
    · rename_i t stepped
      rcases step_sound first sound stepped with clean | ⟨_, reason, left⟩
      · exact ih others clean.sound ran
      · cases (runCode_failed left.isFailed is).symm.trans ran
        exact .inr left.isFailed
    · cases ran

theorem runCode_deeper (free : ∀ x ∈ below, x.FailFree) (admits : ∀ i ∈ code, Admits Ty.FailFree i)
    (sound : s.Sound) (ran : runCode code s = .ok s') :
    runCode code (s.deeper below) = .ok (s'.deeper below) := by
  induction code generalizing s with
  | nil =>
    cases ran
    rfl
  | cons i is ih =>
    obtain ⟨first, others⟩ := List.forall_mem_cons.mp admits
    unfold runCode at ran ⊢
    rw [isFailed_deeper free]
    rw [sound.not_failed, if_neg (by decide)] at ran ⊢
    split at ran
    · rename_i t stepped
      rw [step_deeper first sound stepped below]
      dsimp only
      rcases step_sound first sound stepped with clean | ⟨_, reason, left⟩
      · exact ih others clean.sound ran
      · cases (runCode_failed left.isFailed is).symm.trans ran
        rw [deeper_of_failed left.isFailed, runCode_failed left.isFailed]
    · cases ran

theorem push_over (x : Item) (below : List Item) :
    ({ s.over below with visible := x :: (s.over below).visible, beyond := 0 } : Stack) =
      ({ s with visible := x :: s.visible, beyond := 0 } : Stack).over below := rfl

theorem enterBody_over {coll : Item} {u : Unit} (entered : (Joint.enterBody coll).run s = .ok u s')
    (within : s.beyond = 0) (below : List Item) :
    (Joint.enterBody coll).run (s.over below) = .ok u (s'.over below) := by
  obtain ⟨inner, shifted, rfl⟩ := Joint.enterBody_ok entered within
  have entered := enterBody_of_shift (push_over _ below) within (shift_over rfl shifted below)
  rw [entered, push_over]

theorem beside_ok {a : Action Unit} {u : Unit} (ran : a.run s = .ok u s') :
    (Joint.beside a).run s = .ok (s', s) s := by
  rw [Joint.run_beside, ran]

theorem split_over {name : String} (within : s.beyond = 0)
    (branched : (Stack.split name).run s = .ok (x, y) t) (below : List Item) :
    ∃ t', (Stack.split name).run (s.over below) = .ok (x.over below, y.over below) t' := by
  unfold Stack.split at branched ⊢
  cases found : Joint.ofName? name with
  | none =>
    rw [found] at branched
    cases branched
  | some j =>
    rw [found] at branched
    dsimp only at branched ⊢
    cases shown : s.visible with
    | nil => cases (Joint.run_branch_empty j within shown).symm.trans branched
    | cons guard rest =>
      have shown' : (s.over below).visible = guard :: (rest ++ below) := by
        simp [Stack.over, shown]
      have within' : (s.over below).beyond = 0 := within
      by_cases iter : j = .iter
      · subst iter
        rw [Joint.run_branch_iter within shown, Joint.run_beside] at branched
        rw [Joint.run_branch_iter within' shown']
        cases entered : (Joint.enterBody guard).run { s with visible := rest } with
        | error e u =>
          rw [entered] at branched
          cases branched
        | ok u made =>
          rw [entered] at branched
          cases branched
          exact ⟨_, beside_ok (enterBody_over entered within below)⟩
      · cases (Joint.run_branch within shown iter).symm.trans branched
        rw [Joint.run_branch within' shown' iter]
        exact ⟨_, by simp [Joint.pushAll, Stack.over]; rfl⟩

theorem clean_of_split {name : String} (sound : s.Sound)
    (branched : (Stack.split name).run s = .ok (x, y) t) : s.Clean := by
  rcases sound.place with within | ⟨outside, none⟩
  · exact ⟨within, sound.items⟩
  · exact absurd branched (Refuses.split name s outside none (x, y) t)

theorem flow_sound (admits : ∀ i ∈ n.code, Admits Ty.FailFree i) (sound : s.Sound)
    {outs : List Flight} (flowed : flow n s = .ok outs) :
    ∀ o ∈ outs, o.stack.Sound ∨ o.stack.isFailed = true := by
  intro o member
  rcases flow_cases flowed with ⟨_, s', ran, rfl⟩ | ⟨_, x, y, t, a, b, branched, _, rfl⟩
  · rw [List.mem_singleton.mp member]
    exact (runCode_sound admits sound ran).imp_left fun kept => ⟨kept.items, kept.place⟩
  · obtain ⟨first, second⟩ := split_clean (clean_of_split sound branched) branched
    rcases List.mem_pair.mp member with rfl | rfl
    · exact .inl first.sound
    · exact .inl second.sound

/-- What a node puts out keeps the items at the bottom, except in a failure. -/
theorem flow_deeper (free : ∀ x ∈ below, x.FailFree) (admits : ∀ i ∈ n.code, Admits Ty.FailFree i)
    (sound : s.Sound) {outs : List Flight} (flowed : flow n s = .ok outs) :
    flow n (s.deeper below) = .ok (outs.map (Flight.deeper below)) := by
  rcases flow_cases flowed with ⟨tube, s', ran, rfl⟩ | ⟨joint, x, y, t, a, b, branched, edges, rfl⟩
  · rw [flow_tube tube (runCode_deeper free admits sound ran)]
    simp [Flight.deeper]
  · have clean := clean_of_split sound branched
    obtain ⟨first, second⟩ := split_clean clean branched
    obtain ⟨t', branched'⟩ := split_over clean.within branched below
    rw [deeper_of_clean clean, flow_joint joint edges branched']
    simp [Flight.deeper, deeper_of_clean first, deeper_of_clean second]

end Nodes

/-! ## Steps -/

namespace Valve

def Passage.deeper (below : List Item) : Passage → Passage
  | .ended f => .ended (f.deeper below)
  | .through id n outs => .through id n (outs.map (Flight.deeper below))

/-- What becomes of the valve if its first stack had further items at the bottom. -/
def deeper (below : List Item) (v : Valve) : Valve :=
  { v with
    frontier := v.frontier.map (Flight.deeper below)
    finished := v.finished.map (Flight.deeper below)
    failed := v.failed.map (Flight.deeper below)
    memo := v.memo.map (Stack.deeper below) }

section Passages

variable {below : List Item}

theorem recorded_deeper (p : Passage) : (p.deeper below).recorded =
    p.recorded.map fun entry => (entry.1, entry.2.deeper below) := by
  cases p <;> simp [Passage.deeper, Passage.recorded, Flight.deeper, Function.comp_def]

theorem maps_deeper (p : Passage) : p.Maps (Stack.deeper below) (p.deeper below) := by
  cases p with
  | ended f => exact .ended
  | through id n outs => exact .through (by simp [Flight.deeper, Function.comp_def])

theorem overdrawn_deeper (v : Valve) (count : Nat) (p : Passage) :
    (v.deeper below).overdrawn count (p.deeper below) = v.overdrawn count p := by
  cases p <;> rfl

theorem flatMap_deeper {α : Type} {f : Passage → List α} {h : α → α}
    (each : ∀ p : Passage, f (p.deeper below) = (f p).map h) (ps : List Passage) :
    (ps.map (Passage.deeper below)).flatMap f = (ps.flatMap f).map h := by
  rw [List.flatMap_map, List.map_flatMap]
  simp only [each]

variable (free : ∀ x ∈ below, x.FailFree)

include free

theorem next_deeper (p : Passage) : (p.deeper below).next = p.next.map (Flight.deeper below) := by
  cases p <;> simp [Passage.deeper, Passage.next, Flight.deeper, List.filter_map,
    Function.comp_def, isFailed_deeper free]

theorem finished_deeper (p : Passage) :
    (p.deeper below).finished = p.finished.map (Flight.deeper below) := by
  cases p <;> simp [Passage.deeper, Passage.finished, Flight.deeper, List.filter_map,
    Function.comp_def, isFailed_deeper free]

theorem failed_deeper (p : Passage) :
    (p.deeper below).failed = p.failed.map (Flight.deeper below) := by
  cases p <;> simp [Passage.deeper, Passage.failed, Flight.deeper, List.filter_map,
    Function.comp_def, isFailed_deeper free]

theorem commit_deeper (v : Valve) (ps : List Passage) :
    ((v.deeper below).commit (ps.map (Passage.deeper below))).1 =
      ((v.commit ps).1).deeper below := by
  simp only [commit, deeper, map_appendList, flatMap_deeper (next_deeper free),
    flatMap_deeper (finished_deeper free), flatMap_deeper (failed_deeper free),
    flatMap_deeper recorded_deeper, Draft.record_map maps_deeper, List.length_map]

end Passages

section Steps

variable {below : List Item} (free : ∀ x ∈ below, x.FailFree)
variable {v : Valve} (admits : ∀ id n, v.graph.node? id = some n → ∀ i ∈ n.code, Admits Ty.FailFree i)

include free admits

theorem passage_deeper {f : Flight} {p : Passage} (sound : f.stack.Sound)
    (crossed : v.passage f = .ok p) :
    (v.deeper below).passage (f.deeper below) = .ok (p.deeper below) := by
  rcases passage_ok crossed with ⟨ended, rfl⟩ | ⟨n, outs, active, found, flowed, rfl⟩
  · exact if_pos ended
  · have flowed' := flow_deeper free (admits f.node n found) sound flowed
    have found' : (v.deeper below).graph.node? (f.deeper below).node = some n := found
    have shown : (f.deeper below).stack = f.stack.deeper below := rfl
    unfold passage
    rw [if_neg (show (f.deeper below).node ≠ noNode from active), found']
    dsimp only
    rw [shown, flowed']
    rfl

theorem passages_deeper {canceled : Nat → Bool} {fs : List Flight} {done ps : Array Passage}
    {count : Nat} (sound : ∀ f ∈ fs, f.stack.Sound)
    (accepted : v.passages canceled fs done count = .ok ps) :
    (v.deeper below).passages canceled (fs.map (Flight.deeper below))
      (done.map (Passage.deeper below)) count = .ok (ps.map (Passage.deeper below)) := by
  induction fs generalizing done count with
  | nil =>
    cases accepted
    rfl
  | cons f fs ih =>
    obtain ⟨first, others⟩ := List.forall_mem_cons.mp sound
    unfold passages at accepted
    rw [List.map_cons, passages, Array.size_map]
    split at accepted
    · cases accepted
    · rename_i goes
      rw [if_neg goes]
      cases crossed : v.passage f with
      | error a =>
        rw [crossed] at accepted
        cases accepted
      | ok p =>
        rw [crossed] at accepted
        rw [passage_deeper free admits first crossed]
        dsimp only at accepted ⊢
        rw [recorded_deeper, List.length_map, overdrawn_deeper]
        split at accepted
        · cases accepted
        · rename_i fits
          rw [if_neg fits, ← Array.map_push]
          exact ih others accepted

theorem advance_deeper {v' : Valve} {canceled : Nat → Bool} {entries : List Entry}
    (sound : ∀ f ∈ v.frontier, f.stack.Sound) (accepted : v.advance canceled = .ok (v', entries)) :
    ∃ entries', (v.deeper below).advance canceled = .ok (v'.deeper below, entries') := by
  rw [advance_eq] at accepted ⊢
  split at accepted
  · rename_i ps passed
    have passed' := passages_deeper free admits sound passed
    have same : v' = (v.commit ps.toList).1 := (congrArg Prod.fst (Except.ok.inj accepted)).symm
    rw [same, ← commit_deeper free, ← Array.toList_map]
    rw [Array.map_empty] at passed'
    have start : (v.deeper below).frontier = v.frontier.map (Flight.deeper below) := rfl
    rw [start, passed']
    exact ⟨_, rfl⟩
  · cases accepted

end Steps

/-! ## Runs -/

section Runs

variable {g : Graph} {initial : Stack} {below : List Item} {budget : Int} {tag : String} {k : Nat}
  {v : Valve}
  (admits : ∀ id n, g.node? id = some n → ∀ i ∈ n.code, Admits Ty.FailFree i)
  (sound : initial.Sound)

include admits sound

theorem frontier_sound (run : Advances k (opened g initial budget tag) v) :
    ∀ f ∈ v.frontier, f.stack.Sound := by
  have kept := advances_flights (P := fun f => f.stack.Sound) (Q := fun _ => True) sound
    (fun _ _ _ => trivial) ?_ run
  · exact kept.1
  · intro f n outs o before found flowed member alive
    refine ⟨fun _ => ?_, fun _ => trivial⟩
    rcases flow_sound (admits f.node n found) before flowed o member with after | failed
    · exact after
    · rw [failed] at alive
      cases alive

theorem advances_deeper (free : ∀ x ∈ below, x.FailFree)
    (run : Advances k (opened g initial budget tag) v) :
    Advances k (opened g (initial.deeper below) budget tag) (v.deeper below) := by
  generalize start : opened g initial budget tag = v₀ at run
  induction run with
  | none =>
    subst start
    have same : (opened g initial budget tag).deeper below =
        opened g (initial.deeper below) budget tag := by
      simp [opened, Valve.start, deeper, Flight.deeper]
    rw [same]
    exact .none
  | step before accepted ih =>
    subst start
    have graph : _ = g := advances_graph before
    have front := frontier_sound admits sound before
    obtain ⟨_, accepted'⟩ := advance_deeper free (by rwa [graph]) front accepted
    exact .step (ih rfl) accepted'

end Runs

end Valve

/-! ## Main statement -/

/-- A run over more items at the bottom, with the same cursor, is the same run with these items at
the bottom of every stack that has not failed. -/
theorem bottom_unseen {g : Graph} {items below : List Item} {cursor : Nat} {trail : List Int}
    {env : Option Env} (admits : ∀ id n, g.node? id = some n → ∀ i ∈ n.code, Admits Ty.FailFree i)
    (free : ∀ x ∈ items ++ below, x.FailFree) {budget : Int} {tag : String} {k : Nat} {v : Valve}
    (run : Valve.Advances k
      (Valve.opened g { Stack.ofItems items cursor with trail, env } budget tag) v) :
    Valve.Advances k
      (Valve.opened g { Stack.ofItems (items ++ below) cursor with trail, env } budget tag)
      (v.deeper below) := by
  obtain ⟨own, further⟩ := List.forall_mem_append.mp free
  have sound := sound_arranged own { trail, env } cursor
  have longer := Valve.advances_deeper admits sound further run
  rw [deeper_of_alive sound.not_failed, items_arranged, cursor_arranged, arranged_arranged] at longer
  exact longer

/-- Hides the topmost item, then fails if the next one holds, with the one after it. -/
def guardBelow : Graph :=
  { nodes := #[.tube 0 [] noNode, .tube 1 [marker (-1)] noNode, .tube 2 [marker 1] 3,
      .fork 3 "IF" [4, 1], .tube 4 [.op "FAILWITH" [] []] 1]
    root := 2 }

theorem guardBelow_admits : ∀ id n, guardBelow.node? id = some n →
    ∀ i ∈ n.code, Admits Ty.FailFree i := by
  have all : ∀ n ∈ guardBelow.nodes.toList, ∀ i ∈ n.code, i.typesFailFree = true := by decide
  intro id n found i member
  exact typesFailFree_admits (all n (Graph.mem_of_node? found) i member)

def topItem : Item := .ofText Ty.int "1"

def causeItem : Item := .ofText (.leaf "string") "reason"

def lastItem : Item := .ofText Ty.nat "2"

def flagItems : List Item := [topItem, .placeholder Ty.bool ["flag"], causeItem]

/-- One path keeps what is at the bottom, the other one drops it. -/
theorem last_item_unseen : (∀ x ∈ flagItems ++ [lastItem], x.FailFree) ∧
    ∃ v, Valve.Advances 3 (Valve.opened guardBelow
        { Stack.ofItems flagItems 0 with trail := [], env := some Env.default } 0 "") v ∧
      v.finished.toList.map (fun f => f.stack.items) = [[topItem, causeItem]] ∧
      v.failed.toList.map (fun f => f.stack.items) = [[.failure causeItem]] ∧
      Valve.Advances 3 (Valve.opened guardBelow
        { Stack.ofItems (flagItems ++ [lastItem]) 0 with trail := [], env := some Env.default } 0 "")
        (v.deeper [lastItem]) := by
  have run : ∃ v, Valve.Advances 3 (Valve.opened guardBelow
        { Stack.ofItems flagItems 0 with trail := [], env := some Env.default } 0 "") v ∧
      v.finished.toList.map (fun f => f.stack.items) = [[topItem, causeItem]] ∧
      v.failed.toList.map (fun f => f.stack.items) = [[.failure causeItem]] :=
    ⟨_, .next (.next (.next .none rfl) rfl) rfl, rfl, rfl⟩
  have free : ∀ x ∈ flagItems ++ [lastItem], x.FailFree := by decide
  obtain ⟨v, steps, finished, failed⟩ := run
  exact ⟨free, v, steps, finished, failed, bottom_unseen guardBelow_admits free steps⟩

end StackFlow
