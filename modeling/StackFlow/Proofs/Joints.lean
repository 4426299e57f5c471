import StackFlow.Proofs.Rules

/-!
What an instruction can do to a stack whose boundary lies within its items, the two rules that reach
beyond the visible items and the joints included. The boundary stays within the items, and only a
name that no table holds is unsupported.
-/

namespace StackFlow

open Micheline (Instruction)

variable {s s' : Stack} {i : Instruction}

theorem closed_true : Closed (fun _ => True) (fun _ => True) where
  absent := trivial
  unknown := trivial
  node := fun _ _ _ _ _ _ _ => trivial
  ty := fun _ _ => trivial
  operand := fun _ _ _ _ => trivial
  app := fun _ _ _ _ => trivial
  part := fun _ _ _ _ _ => trivial

/-! ## The two tables -/

theorem Joint.ofName?_name {name : String} {j : Joint} (found : Joint.ofName? name = some j) :
    j.name = name := by
  have same := List.find?_some found
  exact eq_of_beq same

theorem Joint.name_ne_iter {name : String} {j : Joint} (found : Joint.ofName? name = some j)
    (other : j ≠ .iter) : (name == Joint.iter.name) = false := by
  rw [← Joint.ofName?_name found]
  cases j with
  | iter => exact absurd rfl other
  | _ => decide

theorem joint_not_rule {name : String} (branching : (Joint.ofName? name).isSome) :
    Rule.ofName? name = none := by
  obtain ⟨j, found⟩ := Option.isSome_iff_exists.mp branching
  rw [← Joint.ofName?_name found]
  cases j <;> decide

theorem rule_not_joint {name : String} (straight : (Rule.ofName? name).isSome) :
    Joint.ofName? name = none := by
  cases found : Joint.ofName? name with
  | none => rfl
  | some j =>
    have none : Rule.ofName? name = none := joint_not_rule (by simp [found])
    simp [none] at straight

/-! ## The two rules that reach beyond the visible items -/

theorem run_pop_one_empty (within : s.beyond = 0) (shown : s.visible = []) :
    (Action.pop 1).run s = .error (.underflow 0 0) s := by
  have zero : wrap (1 - 1) = 0 := by decide
  rw [Action.run_pop, if_pos (by simp [Stack.depth, within, shown]), zero]
  simp [Stack.depth, within, shown]

theorem run_pop_one {x : Item} {rest : List Item} (within : s.beyond = 0)
    (shown : s.visible = x :: rest) :
    (Action.pop 1).run s = .ok [x] { s with visible := rest } := by
  have deep : ¬ (rest.length : Int) + 1 < 1 := by omega
  rw [Action.run_pop, if_neg (by simp [Stack.depth, within, shown, deep]), shown]
  rfl

theorem run_failWith_empty (within : s.beyond = 0) (shown : s.visible = []) :
    (Rule.run i .failWith).run s = .error (.underflow 0 0) s := by
  simp only [Rule.run]
  rw [Action.run_bind, run_pop_one_empty within shown]

theorem run_failWith {reason : Item} {rest : List Item} (within : s.beyond = 0)
    (shown : s.visible = reason :: rest) :
    (Rule.run i .failWith).run s = .ok () (s.failWith reason) := by
  simp only [Rule.run]
  rw [Action.run_bind, run_pop_one within shown]
  rfl

theorem shift_ok {delta : Int} {x : Unit} (accepted : (Action.shift delta).run s = .ok x s') :
    0 ≤ wrap (s.cursor + delta) ∧ wrap (s.cursor + delta) ≤ s.items.length ∧
      s' = { s with
        hidden := s.items.take (wrap (s.cursor + delta)).toNat
        visible := s.items.drop (wrap (s.cursor + delta)).toNat
        beyond := 0 } := by
  rw [Action.run_shift] at accepted
  split at accepted
  · cases accepted
  · rename_i inside
    simp only [Bool.or_eq_true, decide_eq_true_eq, not_or, Int.not_lt] at inside
    cases accepted
    exact ⟨inside.1, inside.2, rfl⟩

theorem shift_error {delta : Int} {e : Fault} (refused : (Action.shift delta).run s = .error e s') :
    e = .underflow (wrap (s.cursor + delta)) s.items.length ∧ s' = s := by
  rw [Action.run_shift] at refused
  split at refused
  · cases refused
    exact ⟨rfl, rfl⟩
  · cases refused

/-! ## The joints -/

namespace Joint

/-- Pushes before and after an action that leaves the boundary within the items. -/
theorem run_between (x y : Item) {a : Action Unit} (within : s.beyond = 0)
    (stays : ∀ t u w, a.run t = .ok u w → w.beyond = 0) :
    (do Action.push x; a; Action.push y : Action Unit).run s =
      match a.run { s with visible := x :: s.visible, beyond := 0 } with
      | .ok _ s' => .ok () { s' with visible := y :: s'.visible, beyond := 0 }
      | .error e s' => .error e s' := by
  rw [Action.run_bind, Action.run_push_within x within]
  change ((a >>= fun _ => Action.push y).run _) = _
  rw [Action.run_bind]
  cases ran : a.run _ with
  | error e t => rfl
  | ok u t => exact Action.run_push_within y (stays _ _ _ ran)

theorem run_enterBody (coll : Item) (within : s.beyond = 0) : (enterBody coll).run s =
    match (Action.shift 1).run
      { s with visible := payload "ITER.rest" coll.ty coll :: s.visible, beyond := 0 } with
    | .ok _ s' =>
      .ok () { s' with
        visible := payload "ITER.elem" (elementTy coll.ty) coll :: s'.visible, beyond := 0 }
    | .error e s' => .error e s' := by
  rw [enterBody, run_between _ _ within]
  intro t u w shifted
  rw [(shift_ok shifted).2.2]

theorem enterBody_ok {coll : Item} {x : Unit}
    (accepted : (enterBody coll).run s = .ok x s') (within : s.beyond = 0) :
    ∃ t, (Action.shift 1).run
        { s with visible := payload "ITER.rest" coll.ty coll :: s.visible, beyond := 0 } =
          .ok () t ∧
      s' = { t with
        visible := payload "ITER.elem" (elementTy coll.ty) coll :: t.visible, beyond := 0 } := by
  rw [run_enterBody coll within] at accepted
  split at accepted
  · rename_i t shifted
    cases accepted
    exact ⟨t, shifted, rfl⟩
  · cases accepted

theorem enterBody_error {coll : Item} {e : Fault}
    (refused : (enterBody coll).run s = .error e s') (within : s.beyond = 0) :
    (Action.shift 1).run
      { s with visible := payload "ITER.rest" coll.ty coll :: s.visible, beyond := 0 } =
        .error e s' := by
  rw [run_enterBody coll within] at refused
  split at refused
  · cases refused
  · rename_i shifted
    cases refused
    exact shifted

theorem run_branch_empty (j : Joint) (within : s.beyond = 0) (shown : s.visible = []) :
    j.branch.run s = .error (.underflow 0 0) s := by
  unfold branch
  rw [Action.run_bind, run_pop_one_empty within shown]

theorem run_branch {j : Joint} {guard : Item} {rest : List Item} (within : s.beyond = 0)
    (shown : s.visible = guard :: rest) (other : j ≠ .iter) :
    j.branch.run s = .ok (pushAll { s with visible := rest } (j.payloads guard).1,
      pushAll { s with visible := rest } (j.payloads guard).2) { s with visible := rest } := by
  unfold branch
  rw [Action.run_bind, run_pop_one within shown]
  cases j with
  | iter => contradiction
  | _ => rfl

theorem run_beside (a : Action Unit) : (beside a).run s =
    match a.run s with
    | .ok _ made => .ok (made, s) s
    | .error e _ => .error e s := by
  change EStateM.run (match a.run s with
    | .ok _ made => pure (made, s)
    | .error e _ => throw e) s = _
  cases a.run s <;> rfl

theorem run_branch_iter {guard : Item} {rest : List Item} (within : s.beyond = 0)
    (shown : s.visible = guard :: rest) :
    Joint.iter.branch.run s = (beside (enterBody guard)).run { s with visible := rest } := by
  unfold branch
  rw [Action.run_bind, run_pop_one within shown]
  rfl

end Joint

/-! ## What stays -/

/-- A straight-line instruction leaves the boundary within the items, and is unsupported only if no
rule has its name. -/
theorem step_within (within : s.beyond = 0) :
    match (Stack.step i).run s with
    | .ok _ s' => s'.beyond = 0
    | .error e _ => ∀ name, e = .unsupported name → Rule.ofName? i.name = none := by
  unfold Stack.step
  cases found : Rule.ofName? i.name with
  | none => exact fun _ _ => rfl
  | some r =>
    by_cases plain : r.isPlain
    · obtain ⟨result, v, run, _, _, _, known⟩ :=
        run_plain (i := i) closed_true (fun _ _ _ _ => trivial) found plain s s within
          within rfl rfl (fun _ _ => trivial)
      simp only [run]
      cases result with
      | ok _ => exact within
      | error e =>
        intro name same
        exact absurd (congrArg Except.error same) (known name)
    · cases r with
      | cursor =>
        cases result : (Rule.run i .cursor).run s with
        | ok _ s' => rw [(shift_ok result).2.2]
        | error e s' => rw [(shift_error result).1]; simp
      | failWith =>
        cases shown : s.visible with
        | nil => simp [run_failWith_empty within shown]
        | cons x rest => simp [run_failWith within shown, Stack.failWith]
      | _ => exact absurd rfl plain

/-- Both stacks behind a joint have their boundary within the items, and a joint is unsupported only
if it has no joint's name. -/
theorem split_within (name : String) (within : s.beyond = 0) :
    match (Stack.split name).run s with
    | .ok (first, second) _ => first.beyond = 0 ∧ second.beyond = 0
    | .error e _ => ∀ other, e = .unsupported other → Joint.ofName? name = none := by
  unfold Stack.split
  cases found : Joint.ofName? name with
  | none => exact fun _ _ => rfl
  | some j =>
    cases shown : s.visible with
    | nil => simp [Joint.run_branch_empty j within shown]
    | cons guard rest =>
      by_cases iter : j = .iter
      · subst iter
        dsimp only
        rw [Joint.run_branch_iter within shown, Joint.run_beside]
        cases result : (Joint.enterBody guard).run _ with
        | ok _ s' =>
          obtain ⟨t, _, rfl⟩ := Joint.enterBody_ok result within
          exact ⟨rfl, within⟩
        | error e s' =>
          rw [(shift_error (Joint.enterBody_error result within)).1]
          simp
      · simp [Joint.run_branch within shown iter, Joint.pushAll, within]

end StackFlow
