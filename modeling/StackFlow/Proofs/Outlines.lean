import StackFlow.Proofs.Joints

/-!
What instructions do to stacks that differ in texts only. An item without the texts of its literals
is an outline, and a stack over outlines forgets its environment too. Main statement: on stacks of
one outline every instruction, branching or not, has the same fault or leaves stacks of one outline.
-/

namespace StackFlow

open Micheline (Instruction Code)

/-! ## Outlines of items -/

def Literal.outline : Literal → Literal
  | .text _ => .text ""
  | l => l

namespace Item

mutual

/-- The item without the texts of its literals. -/
def outline : Item → Item
  | .absent => .absent
  | .node t annots producer literal ops =>
    .node t annots producer (literal.map Literal.outline) (outlines ops)

def outlines : List Item → List Item
  | [] => []
  | x :: xs => x.outline :: outlines xs

end

theorem outlines_eq_map (xs : List Item) : outlines xs = xs.map outline := by
  induction xs with
  | nil => rfl
  | cons x xs ih => rw [outlines, ih, List.map_cons]

variable (x : Item) (t : Ty) (xs : List Item) (k : Nat)

@[simp] theorem outline_absent : absent.outline = absent := by
  rw [outline]

@[simp] theorem outline_derived (producer : String) :
    (derived t producer xs).outline = derived t producer (xs.map outline) := by
  simp [derived, outline, outlines_eq_map]

@[simp] theorem outline_composite (tag : Option String) :
    (composite t tag xs).outline = composite t (tag.map fun _ => "") (xs.map outline) := by
  cases tag <;> simp [composite, outline, outlines_eq_map, Literal.outline]

@[simp] theorem outline_ofText (s : String) : (ofText t s).outline = ofText t "" := by
  simp [ofText, ofLiteral, outline, outlines_eq_map, Literal.outline]

@[simp] theorem ty_outline : x.outline.ty = x.ty := by
  cases x <;> rfl

@[simp] theorem operands_outline : x.outline.operands = x.operands.map outline := by
  cases x <;> simp [outline, operands, outlines_eq_map]

@[simp] theorem isFailure_outline : x.outline.isFailure = x.isFailure := by
  simp [isFailure]

@[simp] theorem isConcretePair_outline : x.outline.isConcretePair = x.isConcretePair := by
  cases x <;> simp [isConcretePair, outline, outlines_eq_map, producer, literal, operands, ty]

@[simp] theorem outline_failure : (failure x).outline = failure x.outline := by
  simp [failure]

@[simp] theorem outline_withTy : (x.withTy t).outline = x.outline.withTy t := by
  cases x <;> rfl

@[simp] theorem outline_withAnnots (annots : List String) :
    (x.withAnnots annots).outline = x.outline.withAnnots annots := by
  cases x <;> rfl

@[simp] theorem outline_getD : (xs.getD k absent).outline = (xs.map outline).getD k absent := by
  rw [List.getD_eq_getElem?_getD, List.getD_eq_getElem?_getD, List.getElem?_map]
  cases xs[k]? <;> simp

@[simp] theorem outline_headD : (xs.headD absent).outline = (xs.map outline).headD absent := by
  cases xs <;> simp

@[simp] theorem outline_annotate (i : Instruction) :
    (annotate i x).outline = annotate i x.outline := by
  unfold annotate
  split <;> simp

@[simp] theorem outline_project (name : String) (side : Side) :
    (project x name side).outline = project x.outline name side := by
  unfold project
  rw [isConcretePair_outline, operands_outline, ty_outline]
  split
  · exact outline_getD _ _
  · exact outline_derived _ _ _

theorem operandTy_outline : operandTy (xs.map outline) k = operandTy xs k := by
  rw [operandTy, ← outline_getD, ty_outline, operandTy]

theorem bothAre_outline (name : String) :
    ResultTy.bothAre (xs.map outline) name = ResultTy.bothAre xs name := by
  simp only [ResultTy.bothAre, operandTy_outline]

/-- The type of a result does not depend on texts. -/
theorem compute_outline (i : Instruction) (result : ResultTy) :
    result.compute i (xs.map outline) = result.compute i xs := by
  cases result <;> simp only [ResultTy.compute, bothAre_outline, operandTy_outline]

end Item

/-! ## Outlines of stacks -/

namespace Stack

/-- The stack without the texts in it, and without its environment. -/
def outline (s : Stack) : Stack :=
  { s with
    hidden := s.hidden.map Item.outline
    visible := s.visible.map Item.outline
    env := none }

theorem outline_eq_iff {s t : Stack} : s.outline = t.outline ↔
    s.hidden.map Item.outline = t.hidden.map Item.outline ∧
      s.visible.map Item.outline = t.visible.map Item.outline ∧
      s.beyond = t.beyond ∧ s.trail = t.trail := by
  simp [outline]

variable (s : Stack)

@[simp] theorem items_outline : s.outline.items = s.items.map Item.outline := by
  simp [items, outline]

@[simp] theorem depth_outline : s.outline.depth = s.depth := by
  simp [depth, outline]

@[simp] theorem cursor_outline : s.outline.cursor = s.cursor := by
  simp [cursor, outline]

@[simp] theorem isFailed_outline : s.outline.isFailed = s.isFailed := by
  simp [isFailed, Option.any_map]

@[simp] theorem path_outline : s.outline.path = s.path := rfl

@[simp] theorem outline_visit (id : Int) : (s.visit id).outline = s.outline.visit id := rfl

variable {s} {t : Stack}

theorem depth_of_outline (same : s.outline = t.outline) : s.depth = t.depth := by
  rw [← depth_outline, same, depth_outline]

theorem cursor_of_outline (same : s.outline = t.outline) : s.cursor = t.cursor := by
  rw [← cursor_outline, same, cursor_outline]

theorem isFailed_of_outline (same : s.outline = t.outline) : s.isFailed = t.isFailed := by
  rw [← isFailed_outline, same, isFailed_outline]

theorem items_of_outline (same : s.outline = t.outline) :
    s.items.map Item.outline = t.items.map Item.outline := by
  rw [← items_outline, same, items_outline]

theorem length_of_outline (same : s.outline = t.outline) : s.items.length = t.items.length := by
  simpa using congrArg List.length (items_of_outline same)

/-- Stacks with new visible items of one outline still have one outline. -/
theorem outline_withVisible (same : s.outline = t.outline) {v w : List Item}
    (items : v.map Item.outline = w.map Item.outline) :
    ({ s with visible := v } : Stack).outline = ({ t with visible := w } : Stack).outline := by
  obtain ⟨hidden, _, beyond, trail⟩ := outline_eq_iff.mp same
  exact outline_eq_iff.mpr ⟨hidden, items, beyond, trail⟩

end Stack

/-! ## Actions in lockstep -/

/-- How an action ends, its result seen through `v` and the stack in outline. -/
def ending {α β : Type} (v : α → β) : EStateM.Result Fault Stack α → Except Fault (β × Stack)
  | .ok x s => .ok (v x, s.outline)
  | .error e _ => .error e

/-- On stacks of one outline the actions end alike. -/
def Lockstep {α β : Type} (v : α → β) (a b : Action α) : Prop :=
  ∀ s t : Stack, s.outline = t.outline → ending v (a.run s) = ending v (b.run t)

/-- What ends alike has succeeded twice, or failed twice with one fault. -/
theorem ending_cases {α β : Type} {v : α → β} {r r' : EStateM.Result Fault Stack α}
    (same : ending v r = ending v r') :
    (∃ x y s t, r = .ok x s ∧ r' = .ok y t ∧ v x = v y ∧ s.outline = t.outline) ∨
      ∃ e s t, r = .error e s ∧ r' = .error e t := by
  cases r with
  | ok x s =>
    cases r' with
    | ok y t =>
      simp only [ending, Except.ok.injEq, Prod.mk.injEq] at same
      exact .inl ⟨x, y, s, t, rfl, rfl, same⟩
    | error e t => simp [ending] at same
  | error e s =>
    cases r' with
    | ok y t => simp [ending] at same
    | error e' t =>
      cases same
      exact .inr ⟨e, s, t, rfl, rfl⟩

namespace Lockstep

variable {α β γ δ : Type} {v : α → β} {w : γ → δ} {a b : Action α}

theorem pure {x y : α} (same : v x = v y) : Lockstep v (Pure.pure x) (Pure.pure y) := by
  intro s t shapes
  change Except.ok (v x, s.outline) = Except.ok (v y, t.outline)
  rw [same, shapes]

theorem throw (e : Fault) :
    Lockstep v (MonadExcept.throw e : Action α) (MonadExcept.throw e) :=
  fun _ _ _ => rfl

theorem bind {f g : α → Action γ} (first : Lockstep v a b)
    (rest : ∀ x y, v x = v y → Lockstep w (f x) (g y)) : Lockstep w (a >>= f) (b >>= g) := by
  intro s t shapes
  rw [Action.run_bind, Action.run_bind]
  rcases ending_cases (first s t shapes) with
    ⟨x, y, s', t', left, right, results, shapes'⟩ | ⟨e, s', t', left, right⟩
  · rw [left, right]
    exact rest x y results s' t' shapes'
  · rw [left, right]
    rfl

theorem depth {k : Int → Action α} (rest : ∀ d, Lockstep v (k d) (k d)) :
    Lockstep v (get >>= fun s => k s.depth) (get >>= fun s => k s.depth) := by
  intro s t shapes
  change ending v ((k s.depth).run s) = ending v ((k t.depth).run t)
  rw [Stack.depth_of_outline shapes]
  exact rest t.depth s t shapes

/-- What comes next may look at the environment, if it ends alike for any two of them. -/
theorem env {k : Option Env → Action α} (rest : ∀ e e', Lockstep v (k e) (k e')) :
    Lockstep v (get >>= fun s => k s.env) (get >>= fun s => k s.env) :=
  fun s t shapes => rest s.env t.env s t shapes

theorem reads {f g : Stack → α} (alike : ∀ s t, s.outline = t.outline → v (f s) = v (g t)) :
    Lockstep v (get >>= fun s => Pure.pure (f s)) (get >>= fun s => Pure.pure (g s)) :=
  fun s t shapes => pure (alike s t shapes) s t shapes

theorem ofExcept (r : Except Fault α) : Lockstep id (Rule.ofExcept r) (Rule.ofExcept r) := by
  cases r with
  | ok x => exact pure rfl
  | error e => exact throw e

theorem underflow (i : Int) : Lockstep v (Action.underflow i : Action α) (Action.underflow i) :=
  depth (k := fun d => MonadExcept.throw (Fault.underflow i d)) fun _ => throw _

theorem peek (i : Int) : Lockstep Item.outline (Action.peek i) (Action.peek i) := by
  intro s t shapes
  have visible := congrArg (·[i.toNat]?) (Stack.outline_eq_iff.mp shapes).2.1
  simp only [List.getElem?_map] at visible
  rw [Action.run_peek, Action.run_peek, Stack.depth_of_outline shapes]
  split
  · rfl
  · cases left : s.visible[i.toNat]? <;> cases right : t.visible[i.toNat]? <;>
      simp_all [ending]

/-- Operations that give up at some depths, and otherwise rewrite the visible items. -/
theorem guarded (refuses : Int → Bool) (index : Int) (f k : List Item → α)
    (g l : List Item → List Item)
    (left : ∀ s : Stack, a.run s =
      if refuses s.depth then .error (.underflow index s.depth) s
      else .ok (f s.visible) { s with visible := g s.visible })
    (right : ∀ s : Stack, b.run s =
      if refuses s.depth then .error (.underflow index s.depth) s
      else .ok (k s.visible) { s with visible := l s.visible })
    (alike : ∀ xs ys, xs.map Item.outline = ys.map Item.outline →
      v (f xs) = v (k ys) ∧ (g xs).map Item.outline = (l ys).map Item.outline) :
    Lockstep v a b := by
  intro s t shapes
  obtain ⟨results, items⟩ := alike _ _ (Stack.outline_eq_iff.mp shapes).2.1
  rw [left, right, Stack.depth_of_outline shapes]
  split
  · rfl
  · simp only [ending, results, Stack.outline_withVisible shapes items]

theorem pop (n : Int) : Lockstep (List.map Item.outline) (Action.pop n) (Action.pop n) := by
  refine guarded (fun d => n < 0 || d < n) (wrap (n - 1)) (List.take n.toNat) (List.take n.toNat)
    (List.drop n.toNat) (List.drop n.toNat) (Action.run_pop n) (Action.run_pop n) ?_
  intro xs ys same
  simp only [List.map_take, List.map_drop, same, and_self]

theorem popAt (i : Int) : Lockstep Item.outline (Action.popAt i) (Action.popAt i) := by
  refine bind (peek i) fun x y same => bind (v := id) ?_ fun _ _ _ => pure same
  refine guarded (fun _ => false) 0 (fun _ => ()) (fun _ => ()) (fun xs => xs.eraseIdx i.toNat)
    (fun xs => xs.eraseIdx i.toNat) (fun _ => rfl) (fun _ => rfl) ?_
  intro xs ys same
  exact ⟨rfl, by rw [← List.eraseIdx_map, same, List.eraseIdx_map]⟩

theorem shift (delta : Int) : Lockstep id (Action.shift delta) (Action.shift delta) := by
  intro s t shapes
  have items := Stack.items_of_outline shapes
  have cursor := Stack.cursor_of_outline shapes
  rw [Action.run_shift, Action.run_shift, cursor, Stack.length_of_outline shapes]
  split
  · rfl
  · have trail := (Stack.outline_eq_iff.mp shapes).2.2.2
    simp only [ending, Stack.outline, List.map_take, List.map_drop, items, trail]

theorem modify {f g : Stack → Stack}
    (alike : ∀ s t, s.outline = t.outline → (f s).outline = (g t).outline) :
    Lockstep id (modifyGet fun s => ((), f s) : Action Unit) (modifyGet fun s => ((), g s)) := by
  intro s t shapes
  change Except.ok ((), (f s).outline) = Except.ok ((), (g t).outline)
  rw [alike s t shapes]

variable {x y : Item} (items : x.outline = y.outline)

include items

theorem push : Lockstep id (Action.push x) (Action.push y) := by
  intro s t same
  obtain ⟨hidden, visible, _, trail⟩ := Stack.outline_eq_iff.mp same
  have after : ({ s with visible := x :: s.visible, beyond := 0 } : Stack).outline =
      ({ t with visible := y :: t.visible, beyond := 0 } : Stack).outline :=
    Stack.outline_eq_iff.mpr ⟨hidden, by simp [items, visible], rfl, trail⟩
  rw [Action.run_push, Action.run_push, Stack.depth_of_outline same, Stack.cursor_of_outline same,
    Stack.length_of_outline same]
  split
  · rfl
  · simp only [ending, after]

theorem fail : Lockstep id (Action.fail x) (Action.fail y) := by
  refine modify fun s t same => ?_
  obtain ⟨_, _, _, trail⟩ := Stack.outline_eq_iff.mp same
  exact Stack.outline_eq_iff.mpr ⟨rfl, by simp [Stack.failWith, items], rfl, trail⟩

theorem pushAt (i : Int) : Lockstep id (Action.pushAt i x) (Action.pushAt i y) := by
  refine guarded (fun d => i < 0 || d < i) i (fun _ => ()) (fun _ => ())
    (fun xs => xs.insertIdx i.toNat x) (fun xs => xs.insertIdx i.toNat y) (Action.run_pushAt i x)
    (Action.run_pushAt i y) ?_
  intro xs ys same
  exact ⟨rfl, by rw [List.map_insertIdx, same, items, List.map_insertIdx]⟩

theorem replace (i : Int) : Lockstep id (Action.replace i x) (Action.replace i y) := by
  refine guarded (fun d => i < 0 || d ≤ i) i (fun _ => ()) (fun _ => ())
    (fun xs => xs.set i.toNat x) (fun xs => xs.set i.toNat y) (Action.run_replace i x)
    (Action.run_replace i y) ?_
  intro xs ys same
  exact ⟨rfl, by rw [List.map_set, same, items, List.map_set]⟩

end Lockstep

/-! ## Instructions -/

section Rules

variable {i : Instruction} {x y : Item} {ops ops' : List Item}

theorem ty_of_outline (same : x.outline = y.outline) : x.ty = y.ty := by
  rw [← Item.ty_outline, same, Item.ty_outline]

theorem annotate_of_outline (same : x.outline = y.outline) :
    (annotate i x).outline = (annotate i y).outline := by
  rw [Item.outline_annotate, same, Item.outline_annotate]

theorem project_of_outline (same : x.outline = y.outline) (name : String) (side : Side) :
    (project x name side).outline = (project y name side).outline := by
  rw [Item.outline_project, same, Item.outline_project]

theorem compute_of_outline (result : ResultTy)
    (same : ops.map Item.outline = ops'.map Item.outline) :
    result.compute i ops = result.compute i ops' := by
  rw [← Item.compute_outline, same, Item.compute_outline]

theorem getD_of_outline (same : ops.map Item.outline = ops'.map Item.outline) (k : Nat) :
    (ops.getD k .absent).outline = (ops'.getD k .absent).outline := by
  rw [Item.outline_getD, same, Item.outline_getD]

theorem headD_of_outline (same : ops.map Item.outline = ops'.map Item.outline) :
    (ops.headD .absent).outline = (ops'.headD .absent).outline := by
  rw [Item.outline_headD, same, Item.outline_headD]

theorem derived_of_outline (t : Ty) (producer : String)
    (same : ops.map Item.outline = ops'.map Item.outline) :
    (Item.derived t producer ops).outline = (Item.derived t producer ops').outline := by
  rw [Item.outline_derived, same, Item.outline_derived]

theorem composite_of_outline (t : Ty) (tag : Option String)
    (same : ops.map Item.outline = ops'.map Item.outline) :
    (Item.composite t tag ops).outline = (Item.composite t tag ops').outline := by
  rw [Item.outline_composite, same, Item.outline_composite]

theorem runOperator_lockstep (arity : Nat) (result : ResultTy) :
    Lockstep id (Rule.runOperator i arity result) (Rule.runOperator i arity result) := by
  refine .bind (.pop arity) fun ops ops' same => ?_
  rw [compute_of_outline result same]
  refine .bind (.ofExcept _) ?_
  rintro t _ rfl
  exact .push (annotate_of_outline (derived_of_outline _ _ same))

theorem runPush_lockstep : Lockstep id (Rule.runPush i) (Rule.runPush i) := by
  unfold Rule.runPush
  split
  · refine .bind (.ofExcept _) ?_
    rintro t _ rfl
    refine .bind (.ofExcept _) ?_
    rintro x _ rfl
    exact .push rfl
  · exact .throw _

theorem runLambda_lockstep : Lockstep id (Rule.runLambda i) (Rule.runLambda i) := by
  refine .bind (.ofExcept _) ?_
  rintro arg _ rfl
  refine .bind (.ofExcept _) ?_
  rintro ret _ rfl
  exact .push rfl

theorem runInject_lockstep (side : Side) :
    Lockstep id (Rule.runInject i side) (Rule.runInject i side) := by
  refine .bind (.ofExcept _) ?_
  rintro other _ rfl
  refine .bind (.pop 1) fun ops ops' same => .push (annotate_of_outline ?_)
  have head := headD_of_outline same
  rw [ty_of_outline head]
  cases side with
  | left => exact composite_of_outline _ _ (by rw [List.map_singleton, head, List.map_singleton])
  | right => exact composite_of_outline _ _ (by rw [List.map_singleton, head, List.map_singleton])

/-- Every rule ends alike on stacks of one outline. -/
theorem run_lockstep (r : Rule) : Lockstep id (r.run i) (r.run i) := by
  cases r with
  | dup =>
    simp only [Rule.run]
    split
    · exact .bind (v := id) (.throw _) fun _ _ _ => .bind (.peek _) fun x y same => .push same
    · exact .bind (.peek _) fun x y same => .push same
  | drop => exact .bind (.pop _) fun _ _ _ => .pure rfl
  | swap =>
    refine .bind (.pop 2) fun ops ops' same => ?_
    exact .bind (.push (getD_of_outline same 0)) fun _ _ _ => .push (getD_of_outline same 1)
  | dig => exact .bind (.popAt _) fun x y same => .push same
  | dug =>
    refine .depth (k := fun d => if d ≤ i.intArg 0 0 then _ else _) fun d => ?_
    split
    · exact .bind (v := id) (.underflow _) fun _ _ _ =>
        .bind (.popAt 0) fun x y same => .pushAt same _
    · exact .bind (.popAt 0) fun x y same => .pushAt same _
  | cursor => exact .shift _
  | failWith => exact .bind (.pop 1) fun ops ops' same => .fail (headD_of_outline same)
  | push => exact runPush_lockstep
  | unit => exact .push rfl
  | lambda => exact runLambda_lockstep
  | empty container arity literal =>
    refine .bind (.ofExcept _) ?_
    rintro args _ rfl
    exact .push rfl
  | read t field =>
    -- the only rule that reads the environment puts it into the text of a literal
    refine .env (k := fun e => Action.push
      (annotate i (.ofText t (field.read (e.getD Env.default))))) fun e e' => ?_
    refine .push (annotate_of_outline ?_)
    rw [Item.outline_ofText, Item.outline_ofText]
  | project side =>
    refine .bind (.pop 1) fun ops ops' same => .push (annotate_of_outline ?_)
    exact project_of_outline (headD_of_outline same) _ _
  | unpair =>
    refine .bind (.pop 1) fun ops ops' same => ?_
    have head := headD_of_outline same
    exact .bind (.push (project_of_outline head _ _)) fun _ _ _ =>
      .push (project_of_outline head _ _)
  | pair =>
    refine .bind (.pop 2) fun ops ops' same => .push (annotate_of_outline ?_)
    have first := getD_of_outline same 0
    have second := getD_of_outline same 1
    rw [ty_of_outline first, ty_of_outline second]
    refine composite_of_outline _ _ ?_
    rw [List.map_cons, List.map_singleton, first, second, List.map_cons, List.map_singleton]
  | some =>
    refine .bind (.pop 1) fun ops ops' same => .push (annotate_of_outline ?_)
    have head := headD_of_outline same
    rw [ty_of_outline head]
    exact composite_of_outline _ _ (by rw [List.map_singleton, head, List.map_singleton])
  | inject side => exact runInject_lockstep side
  | cast =>
    refine .bind (.ofExcept _) ?_
    rintro t _ rfl
    refine .bind (.peek 0) fun x y same => .replace (annotate_of_outline ?_) 0
    rw [Item.outline_withTy, same, Item.outline_withTy, id]
  | rename =>
    refine .bind (.peek 0) fun x y same => .replace ?_ 0
    rw [Item.outline_withAnnots, same, Item.outline_withAnnots]
  | operator arity result => exact runOperator_lockstep arity result
  | concat =>
    refine .bind (.peek 0) fun x y same => ?_
    rw [ty_of_outline same]
    split
    · exact runOperator_lockstep 1 _
    · exact runOperator_lockstep 2 _
  | createContract =>
    refine .bind (.pop 3) fun ops ops' same => ?_
    exact .bind (.push (derived_of_outline _ _ same)) fun _ _ _ =>
      .push (annotate_of_outline (derived_of_outline _ _ same))

theorem step_lockstep (i : Instruction) : Lockstep id (Stack.step i) (Stack.step i) := by
  unfold Stack.step
  split
  · exact run_lockstep _
  · exact .throw _

end Rules

/-! ## Joints -/

section Joints

/-- Two stacks in outline. -/
def outlinePair (p : Stack × Stack) : Stack × Stack := (p.1.outline, p.2.outline)

theorem payload_of_outline {x y : Item} (same : x.outline = y.outline) (label : String) (t : Ty) :
    (Joint.payload label t x).outline = (Joint.payload label t y).outline :=
  derived_of_outline t label (by rw [List.map_singleton, same, List.map_singleton])

theorem payloads_of_outline {x y : Item} (same : x.outline = y.outline) (j : Joint) :
    (j.payloads x).1.map Item.outline = (j.payloads y).1.map Item.outline ∧
      (j.payloads x).2.map Item.outline = (j.payloads y).2.map Item.outline := by
  have parts := payload_of_outline same
  cases j <;> simp [Joint.payloads, parts, ty_of_outline same]

theorem pushAll_of_outline {s t : Stack} (shapes : s.outline = t.outline) {xs ys : List Item}
    (same : xs.map Item.outline = ys.map Item.outline) :
    (Joint.pushAll s xs).outline = (Joint.pushAll t ys).outline := by
  refine Stack.outline_withVisible shapes ?_
  simp [same, (Stack.outline_eq_iff.mp shapes).2.1]

theorem enterBody_lockstep {x y : Item} (same : x.outline = y.outline) :
    Lockstep id (Joint.enterBody x) (Joint.enterBody y) := by
  unfold Joint.enterBody
  rw [ty_of_outline same]
  refine .bind (.push (payload_of_outline same _ _)) fun _ _ _ => ?_
  exact .bind (.shift 1) fun _ _ _ => .push (payload_of_outline same _ _)

theorem beside_lockstep {a b : Action Unit} (same : Lockstep id a b) :
    Lockstep outlinePair (Joint.beside a) (Joint.beside b) := by
  intro s t shapes
  rw [Joint.run_beside, Joint.run_beside]
  rcases ending_cases (same s t shapes) with
    ⟨x, y, s', t', left, right, _, shapes'⟩ | ⟨e, s', t', left, right⟩
  · rw [left, right]
    simp only [ending, outlinePair, shapes', shapes]
  · rw [left, right]
    rfl

theorem branch_lockstep (j : Joint) : Lockstep outlinePair j.branch j.branch := by
  refine .bind (.pop 1) fun ops ops' same => ?_
  have guard := headD_of_outline same
  obtain ⟨first, second⟩ := payloads_of_outline guard j
  have pushes (s t : Stack) (shapes : s.outline = t.outline) :=
    congrArg₂ Prod.mk (pushAll_of_outline shapes first) (pushAll_of_outline shapes second)
  cases j with
  | iter => exact beside_lockstep (enterBody_lockstep guard)
  | _ => exact .reads pushes

theorem split_lockstep (name : String) :
    Lockstep outlinePair (Stack.split name) (Stack.split name) := by
  unfold Stack.split
  split
  · exact branch_lockstep _
  · exact .throw _

end Joints

end StackFlow
