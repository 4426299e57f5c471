import StackFlow.Proofs.Blindness

/-!
What a failure leaves behind. Operands are taken off the stack before all else is known to be right,
so the order of checks decides what is lost: nothing, except for three instructions that check an
argument after they took their operand. Main statement: the stack after a failed step or a failed
split, and the boundary after a step that succeeds.
-/

namespace StackFlow

open Micheline (Instruction)

theorem ofItems_within {items : List Item} {cursor : Nat} :
    (Stack.ofItems items cursor).beyond = 0 ↔ cursor ≤ items.length := by
  simp [Stack.ofItems, Nat.sub_eq_zero_iff_le]

/-! ## Actions that fail without a trace -/

section Actions

variable {α β : Type}

/-- The stack is the same at the end, whichever end it is. -/
def Unmoved (s : Stack) : EStateM.Result Fault Stack α → Prop
  | .ok _ s' | .error _ s' => s' = s

/-- The boundary lies within the items after a success, and a failure leaves the stack as it was. -/
def Traceless (s : Stack) : EStateM.Result Fault Stack α → Prop
  | .ok _ s' => s'.beyond = 0
  | .error _ s' => s' = s

/-- Changes no stack. -/
def Looks (a : Action α) : Prop := ∀ s, Unmoved s (a.run s)

/-- Succeeds wherever the boundary lies within the items, and keeps it there. -/
def Sure (a : Action α) : Prop :=
  ∀ s, s.beyond = 0 → ∃ x s', a.run s = .ok x s' ∧ s'.beyond = 0

/-- Fails without a trace where the boundary lies within the items, and else keeps it there. -/
def Atomic (a : Action α) : Prop := ∀ s, s.beyond = 0 → Traceless s (a.run s)

namespace Looks

theorem throw (e : Fault) : Looks (MonadExcept.throw e : Action α) := fun _ => rfl

theorem ofExcept (r : Except Fault α) : Looks (Rule.ofExcept r) := by
  intro s
  cases r <;> rfl

theorem peek (k : Int) : Looks (Action.peek k) := by
  intro s
  rw [Action.run_peek]
  split
  · rfl
  · cases s.visible[k.toNat]? <;> rfl

end Looks

namespace Sure

theorem pure (x : α) : Sure (Pure.pure x) := fun s within => ⟨x, s, rfl, within⟩

theorem push (x : Item) : Sure (Action.push x) := fun _ within =>
  ⟨(), _, Action.run_push_within x within, rfl⟩

theorem fail (reason : Item) : Sure (Action.fail reason) := fun _ _ => ⟨(), _, rfl, rfl⟩

theorem removeAt (k : Nat) :
    Sure (modify fun s : Stack => { s with visible := s.visible.eraseIdx k }) := fun _ within =>
  ⟨(), _, rfl, within⟩

theorem readEnv {k : Option Env → Action α} (rest : ∀ env, Sure (k env)) :
    Sure (get >>= fun s => k s.env) := fun s => rest s.env s

theorem bind {a : Action α} {f : α → Action β} (first : Sure a) (rest : ∀ x, Sure (f x)) :
    Sure (a >>= f) := by
  intro s within
  obtain ⟨x, t, run, kept⟩ := first s within
  obtain ⟨y, u, run', kept'⟩ := rest x t kept
  exact ⟨y, u, by rw [Action.run_bind, run]; exact run', kept'⟩

theorem atomic {a : Action α} (sure : Sure a) : Atomic a := by
  intro s within
  obtain ⟨x, t, run, kept⟩ := sure s within
  rw [run]
  exact kept

end Sure

namespace Atomic

/-- What only looked at the stack may be followed by what fails. -/
theorem look {a : Action α} {f : α → Action β} (first : Looks a) (rest : ∀ x, Atomic (f x)) :
    Atomic (a >>= f) := by
  intro s within
  rw [Action.run_bind]
  have same := first s
  cases run : a.run s with
  | error e t =>
    rw [run] at same
    exact same
  | ok x t =>
    rw [run] at same
    subst same
    exact rest x t within

/-- What changed the stack may be followed by what cannot fail. -/
theorem andSure {a : Action α} {f : α → Action β} (first : Atomic a) (rest : ∀ x, Sure (f x)) :
    Atomic (a >>= f) := by
  intro s within
  rw [Action.run_bind]
  have kept := first s within
  cases run : a.run s with
  | error e t =>
    rw [run] at kept
    exact kept
  | ok x t =>
    rw [run] at kept
    obtain ⟨y, u, run', kept'⟩ := rest x t kept
    change Traceless s ((f x).run t)
    rw [run']
    exact kept'

theorem pop (n : Int) : Atomic (Action.pop n) := by
  intro s within
  rw [Action.run_pop]
  split
  · rfl
  · exact within

theorem replace (k : Int) (x : Item) : Atomic (Action.replace k x) := by
  intro s within
  rw [Action.run_replace]
  split
  · rfl
  · exact within

theorem shift (delta : Int) : Atomic (Action.shift delta) := by
  intro s within
  rw [Action.run_shift]
  split <;> rfl

theorem popAt (k : Int) : Atomic (Action.popAt k) :=
  .look (.peek k) fun x => (Sure.bind (.removeAt k.toNat) fun _ => .pure x).atomic

end Atomic

end Actions

/-! ## The rules -/

/-- The result takes its type from an argument. -/
def ResultTy.takesType : ResultTy → Bool
  | .optionOfArg | .contractOfArg => true
  | _ => false

/-- An argument is checked when the operand is gone already. -/
def Rule.checksLate : Rule → Bool
  | .dug => true
  | .operator _ result => result.takesType
  | _ => false

theorem table_late : ∀ entry ∈ Rule.table,
    entry.2.checksLate = (["UNPACK", "CONTRACT", "DUG"].contains entry.1) := by
  decide

section Rules

variable {s : Stack} {i : Instruction}

theorem compute_untyped {result : ResultTy} (untyped : result.takesType = false)
    (ops : List Item) : ∃ t, result.compute i ops = .ok t := by
  cases result with
  | optionOfArg | contractOfArg => cases untyped
  | _ => exact ⟨_, rfl⟩

theorem compute_typed {result : ResultTy} (typed : result.takesType = true) (ops : List Item) :
    match typeArg i 0 with
    | .ok _ => ∃ t, result.compute i ops = .ok t
    | .error e => result.compute i ops = .error e := by
  cases result with
  | optionOfArg | contractOfArg =>
    rw [ResultTy.compute]
    cases typeArg i 0 with
    | error e => rfl
    | ok t => exact ⟨_, rfl⟩
  | _ => cases typed

theorem runOperator_atomic (arity : Nat) {result : ResultTy} (untyped : result.takesType = false) :
    Atomic (Rule.runOperator i arity result) := by
  refine .andSure (.pop arity) fun ops => ?_
  obtain ⟨t, computed⟩ := compute_untyped (i := i) untyped ops
  rw [computed]
  exact .bind (.pure t) fun _ => .push _

theorem runPush_atomic : Atomic (Rule.runPush i) := by
  unfold Rule.runPush
  split
  · exact .look (.ofExcept _) fun _ => .look (.ofExcept _) fun _ => (Sure.push _).atomic
  · exact fun _ _ => rfl

theorem run_atomic {r : Rule} (early : r.checksLate = false) : Atomic (r.run i) := by
  cases r with
  | dup =>
    simp only [Rule.run]
    split
    · exact .look (.throw _) fun _ => .look (.peek _) fun _ => (Sure.push _).atomic
    · exact .look (.peek _) fun _ => (Sure.push _).atomic
  | drop => exact .andSure (.pop _) fun _ => .pure ()
  | swap => exact .andSure (.pop 2) fun _ => .bind (.push _) fun _ => .push _
  | dig => exact .andSure (.popAt _) fun _ => .push _
  | dug => cases early
  | cursor => exact .shift _
  | failWith => exact .andSure (.pop 1) fun _ => .fail _
  | push => exact runPush_atomic
  | unit => exact (Sure.push _).atomic
  | lambda =>
    exact .look (.ofExcept _) fun _ => .look (.ofExcept _) fun _ => (Sure.push _).atomic
  | empty => exact .look (.ofExcept _) fun _ => (Sure.push _).atomic
  | read t field =>
    exact (Sure.readEnv (k := fun env => Action.push
      (annotate i (.ofText t (field.read (env.getD Env.default))))) fun _ => .push _).atomic
  | project => exact .andSure (.pop 1) fun _ => .push _
  | unpair => exact .andSure (.pop 1) fun _ => .bind (.push _) fun _ => .push _
  | pair => exact .andSure (.pop 2) fun _ => .push _
  | some => exact .andSure (.pop 1) fun _ => .push _
  | inject => exact .look (.ofExcept _) fun _ => .andSure (.pop 1) fun _ => .push _
  | cast => exact .look (.ofExcept _) fun _ => .look (.peek 0) fun _ => .replace 0 _
  | rename => exact .look (.peek 0) fun _ => .replace 0 _
  | operator arity result => exact runOperator_atomic arity early
  | concat =>
    refine .look (.peek 0) fun x => ?_
    split
    · exact runOperator_atomic 1 rfl
    · exact runOperator_atomic 2 rfl
  | createContract => exact .andSure (.pop 3) fun _ => .bind (.push _) fun _ => .push _

/-- An operator with a type argument takes its operand first. -/
theorem runOperator_typed {result : ResultTy} (typed : result.takesType = true) {x : Item}
    {rest : List Item} (within : s.beyond = 0) (shown : s.visible = x :: rest) :
    match typeArg i 0 with
    | .ok _ => ∃ s', (Rule.runOperator i 1 result).run s = .ok () s' ∧ s'.beyond = 0
    | .error e => (Rule.runOperator i 1 result).run s = .error e { s with visible := rest } := by
  have popped : (Action.pop (1 : Nat)).run s = .ok [x] { s with visible := rest } :=
    run_pop_one within shown
  have computed := compute_typed (i := i) typed [x]
  unfold Rule.runOperator
  rw [Action.run_bind, popped]
  cases read : typeArg i 0 with
  | error e =>
    rw [read] at computed
    dsimp only at computed ⊢
    rw [computed]
    rfl
  | ok t =>
    rw [read] at computed
    obtain ⟨t', computed⟩ := computed
    dsimp only
    rw [computed]
    exact ⟨_, Action.run_push_within _ within, rfl⟩

theorem run_dug_deep (deep : s.depth ≤ i.intArg 0 0) :
    (Rule.run i .dug).run s = .error (.underflow (i.intArg 0 0) s.depth) s := by
  change EStateM.run (if s.depth ≤ i.intArg 0 0 then _ else _) s = _
  rw [if_pos deep]
  rfl

theorem run_dug_empty (shown : s.visible = []) (shallow : ¬ s.depth ≤ i.intArg 0 0) :
    (Rule.run i .dug).run s = .error (.underflow 0 s.depth) s := by
  change EStateM.run (if s.depth ≤ i.intArg 0 0 then _ else _) s = _
  rw [if_neg shallow, Action.run_bind, Action.popAt, Action.run_bind, Action.run_peek,
    if_neg (by decide), shown]
  rfl

/-- The topmost item is put back at a position among the others. -/
theorem run_dug {x : Item} {rest : List Item} (shown : s.visible = x :: rest)
    (shallow : ¬ s.depth ≤ i.intArg 0 0) :
    (Rule.run i .dug).run s =
      (Action.pushAt (i.intArg 0 0) x).run { s with visible := rest } := by
  have taken : (Action.popAt 0).run s = .ok x { s with visible := rest } := by
    rw [Action.popAt, Action.run_bind, Action.run_peek, if_neg (by decide), shown]
    change EStateM.Result.ok x { s with visible := s.visible.eraseIdx 0 } = _
    rw [shown]
    rfl
  change EStateM.run (if s.depth ≤ i.intArg 0 0 then _ else _) s = _
  rw [if_neg shallow, Action.run_bind, taken]

end Rules

/-! ## Steps -/

section Steps

variable {s : Stack} {i : Instruction}

/-- Where the instruction fails, it has taken the topmost item, if there is one. -/
def losesTop (i : Instruction) : Bool :=
  ((i.name == "UNPACK" || i.name == "CONTRACT") && !(typeArg i 0).isOk) ||
    (i.name == "DUG" && i.intArg 0 0 < 0)

/-- The boundary lies within the items after a success. A failure leaves the stack as it was, or
without its topmost item if that is `lost`, and then there is no success. -/
def Damages (s : Stack) (lost : Bool) : EStateM.Result Fault Stack Unit → Prop
  | .ok _ s' => lost = false ∧ s'.beyond = 0
  | .error _ s' => s' = if lost then { s with visible := s.visible.tail } else s

theorem damages_traceless {r : EStateM.Result Fault Stack Unit} (traceless : Traceless s r) :
    Damages s false r := by
  cases r with
  | ok _ s' => exact ⟨rfl, traceless⟩
  | error _ s' => exact traceless

theorem damages_empty {lost : Bool} (shown : s.visible = []) (e : Fault) :
    Damages s lost (.error e s) := by
  cases lost with
  | false => rfl
  | true =>
    change s = { s with visible := s.visible.tail }
    rw [shown, List.tail_nil, ← shown]

theorem typed_damages {result : ResultTy} (typed : result.takesType = true)
    (within : s.beyond = 0) :
    Damages s (!(typeArg i 0).isOk) ((Rule.run i (.operator 1 result)).run s) := by
  cases shown : s.visible with
  | nil =>
    have popped : (Action.pop (1 : Nat)).run s = .error (.underflow 0 0) s :=
      run_pop_one_empty within shown
    rw [Rule.run, Rule.runOperator, Action.run_bind, popped]
    exact damages_empty shown _
  | cons x rest =>
    have ran := runOperator_typed (i := i) typed within shown
    rw [Rule.run]
    cases read : typeArg i 0 with
    | error e =>
      rw [read] at ran
      rw [ran]
      change _ = { s with visible := s.visible.tail }
      rw [shown]
      rfl
    | ok t =>
      rw [read] at ran
      obtain ⟨s', ran, kept⟩ := ran
      rw [ran]
      exact ⟨rfl, kept⟩

theorem dug_damages (within : s.beyond = 0) :
    Damages s (i.intArg 0 0 < 0) ((Rule.run i .dug).run s) := by
  by_cases deep : s.depth ≤ i.intArg 0 0
  · have high : ¬ i.intArg 0 0 < 0 := by
      rw [Stack.depth, within] at deep
      omega
    rw [run_dug_deep deep, decide_eq_false high]
    rfl
  · cases shown : s.visible with
    | nil =>
      rw [run_dug_empty shown deep]
      exact damages_empty shown _
    | cons x rest =>
      rw [run_dug shown deep, Action.run_pushAt]
      by_cases below : i.intArg 0 0 < 0
      · rw [if_pos (by simp [below]), decide_eq_true below]
        change _ = { s with visible := s.visible.tail }
        rw [shown]
        rfl
      · have length : s.depth = rest.length + 1 := by simp [Stack.depth, within, shown]
        rw [if_neg, decide_eq_false below]
        · exact ⟨rfl, within⟩
        · simp [Stack.depth, within]
          omega

theorem step_damages (within : s.beyond = 0) :
    Damages s (losesTop i) ((Stack.step i).run s) := by
  have rule {r : Rule} (found : Rule.ofName? i.name = some r) : Stack.step i = r.run i := by
    rw [Stack.step, found]
  by_cases late : i.name = "UNPACK" ∨ i.name = "CONTRACT" ∨ i.name = "DUG"
  · rcases late with name | name | name
    · have lost : losesTop i = !(typeArg i 0).isOk := by simp [losesTop, name]
      rw [rule (r := .operator 1 .optionOfArg) (by rw [name]; rfl), lost]
      exact typed_damages rfl within
    · have lost : losesTop i = !(typeArg i 0).isOk := by simp [losesTop, name]
      rw [rule (r := .operator 1 .contractOfArg) (by rw [name]; rfl), lost]
      exact typed_damages rfl within
    · have lost : losesTop i = decide (i.intArg 0 0 < 0) := by simp [losesTop, name]
      rw [rule (r := .dug) (by rw [name]; rfl), lost]
      exact dug_damages within
  · have lost : losesTop i = false := by
      simp only [not_or] at late
      simp [losesTop, late]
    rw [lost]
    cases found : Rule.ofName? i.name with
    | none =>
      rw [Stack.step, found]
      rfl
    | some r =>
      have early : r.checksLate = false := by
        rw [table_late _ (ofName?_mem found)]
        simpa using late
      rw [rule found]
      exact damages_traceless (run_atomic early s within)

end Steps

/-! ## Splits -/

section Splits

variable {s s' : Stack} {e : Fault}

theorem split_error {name : String} (within : s.beyond = 0)
    (fits : name = Joint.iter.name → (s.items.length : Int) ≤ greatestWord)
    (failed : (Stack.split name).run s = .error e s') : s' = s := by
  unfold Stack.split at failed
  cases found : Joint.ofName? name with
  | none =>
    rw [found] at failed
    cases failed
    rfl
  | some j =>
    rw [found] at failed
    cases shown : s.visible with
    | nil =>
      rw [Joint.run_branch_empty j within shown] at failed
      cases failed
      rfl
    | cons guard rest =>
      by_cases iter : j = .iter
      · subst iter
        have counted : ((s.hidden.length + 1 : Nat) : Int) ≤ greatestWord := by
          have length := fits (Joint.ofName?_name found).symm
          simp only [Stack.items, shown, List.length_append, List.length_cons] at length
          omega
        have arranged : { s with visible := rest } =
            s.arranged (s.hidden ++ rest) s.hidden.length := by
          rw [arranged_split, ← within]
        rw [Joint.run_branch_iter within shown, Joint.run_beside, arranged,
          enterBody_arranged counted] at failed
        cases failed
      · rw [Joint.run_branch within shown iter] at failed
        cases failed

end Splits

/-- With the boundary within the items, a failed instruction leaves the stack as it was, except that
`UNPACK` and `CONTRACT` without a type and `DUG` to a position below zero lose the topmost visible
item, and no failed joint loses anything. An instruction that succeeds keeps the boundary within the
items. An iteration hides one more item, so its items are as many as a word can count. -/
theorem damage_bounded (s : Stack) (within : s.beyond = 0) :
    (∀ i, match (Stack.step i).run s with
      | .ok _ s' => losesTop i = false ∧ s'.beyond = 0
      | .error _ s' => s' = if losesTop i then { s with visible := s.visible.tail } else s) ∧
    ∀ name, (name = Joint.iter.name → (s.items.length : Int) ≤ greatestWord) →
      ∀ e s', (Stack.split name).run s = .error e s' → s' = s := by
  constructor
  · intro i
    have damages := step_damages (i := i) within
    cases run : (Stack.step i).run s <;> rwa [run] at damages
  · intro name fits e s' failed
    exact split_error within fits failed

def coveredBytes : Stack := Stack.ofItems [.ofText Ty.nat "1", .ofText Ty.bytes "packed"] 1

/-- One protected item and one visible item: the visible one is gone when nothing tells what to
unpack it to, and an iteration that then finds no collection leaves the protected one alone. -/
theorem unpack_without_type_loses_operand :
    (∃ e, (Stack.step (.op "UNPACK" [] [])).run coveredBytes =
      .error e { coveredBytes with visible := [] }) ∧
    ∃ e, (Stack.split "ITER").run { coveredBytes with visible := [] } =
      .error e { coveredBytes with visible := [] } := by
  have within : coveredBytes.beyond = 0 := ofItems_within.mpr (by decide)
  obtain ⟨steps, _⟩ := damage_bounded coveredBytes within
  obtain ⟨_, splits⟩ := damage_bounded { coveredBytes with visible := [] } within
  constructor
  · obtain ⟨e, t, run⟩ : ∃ e t, (Stack.step (.op "UNPACK" [] [])).run coveredBytes = .error e t :=
      ⟨_, _, rfl⟩
    have left := steps (.op "UNPACK" [] [])
    rw [run] at left
    exact ⟨e, by rw [run, left]; rfl⟩
  · obtain ⟨e, t, run⟩ : ∃ e t, (Stack.split "ITER").run { coveredBytes with visible := [] } =
        .error e t := ⟨_, _, rfl⟩
    exact ⟨e, by rw [run, splits "ITER" (fun _ => by decide) e t run]⟩

end StackFlow
