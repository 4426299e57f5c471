import StackFlow.Proofs.Direct
import StackFlow.Proofs.Flatten
import StackFlow.Proofs.Joints

/-!
Settled stacks: the boundary lies within the items and within a word, and no item has to do with the
type that marks failed stacks. Code as contracts write it keeps a stack settled until it fails, and
does the same to it whatever is hidden.
-/

namespace StackFlow

open Micheline (Instruction Arg Code)

mutual

/-- Whether a type in an item is called `name`, at any depth. -/
def Item.mentions (name : String) : Item → Bool
  | .absent => false
  | .node t _ _ _ ops => t.mentions name || Item.anyMentions name ops

def Item.anyMentions (name : String) : List Item → Bool
  | [] => false
  | x :: xs => x.mentions name || Item.anyMentions name xs

end

/-- No type in an item is named like the mark of failed stacks. -/
def Item.FailFree (x : Item) : Prop := x.mentions Ty.failName = false

instance (x : Item) : Decidable x.FailFree := inferInstanceAs (Decidable (_ = _))

def Ty.FailFree (t : Ty) : Prop := t.mentions Ty.failName = false

instance (t : Ty) : Decidable t.FailFree := inferInstanceAs (Decidable (_ = _))

theorem Item.anyMentions_false {name : String} {xs : List Item} :
    Item.anyMentions name xs = false ↔ ∀ x ∈ xs, x.mentions name = false := by
  induction xs with
  | nil => simp [Item.anyMentions]
  | cons x xs ih => simp [Item.anyMentions, ih]

theorem Ty.anyMentions_false {name : String} {ts : List Ty} :
    Ty.anyMentions name ts = false ↔ ∀ t ∈ ts, t.mentions name = false := by
  induction ts with
  | nil => simp [Ty.anyMentions]
  | cons t ts ih => simp [Ty.anyMentions, ih]

theorem closed_failFree : Closed Item.FailFree Ty.FailFree where
  absent := rfl
  unknown := rfl
  node := by
    intro t annots producer literal ops type operands
    simp only [Item.FailFree, Item.mentions, Bool.or_eq_false_iff]
    exact ⟨type, Item.anyMentions_false.mpr operands⟩
  ty := by
    intro x free
    cases x with
    | absent => rfl
    | node t _ _ _ ops =>
      simp only [Item.FailFree, Item.mentions, Bool.or_eq_false_iff] at free
      exact free.1
  operand := by
    intro x free
    cases x with
    | absent => simp [Item.operands]
    | node t _ _ _ ops =>
      simp only [Item.FailFree, Item.mentions, Bool.or_eq_false_iff] at free
      exact Item.anyMentions_false.mp free.2
  app := by
    intro name args other parts
    simp only [Ty.FailFree, Ty.mentions, Bool.or_eq_false_iff]
    exact ⟨beq_false_of_ne other, Ty.anyMentions_false.mpr parts⟩
  part := by
    intro name args free
    simp only [Ty.FailFree, Ty.mentions, Bool.or_eq_false_iff] at free
    exact Ty.anyMentions_false.mp free.2

/-! ## Code as contracts write it -/

/-- Whether an instruction has no type named like the mark of failed stacks among its arguments. -/
def Micheline.Instruction.typesFailFree (i : Instruction) : Bool :=
  i.typeLiterals.all fun e =>
    match Ty.ofExpr e with
    | .ok t => decide t.FailFree
    | .error _ => true

mutual

/-- Whether an instruction and all code in it is free of markers, of negative levels and of types
named like the mark of failed stacks. -/
def Micheline.Instruction.isSource : Instruction → Bool
  | .op name annots args =>
    name != "CURSOR" && (name != "DIP" || decide (0 ≤ dipLevel (.op name annots args))) &&
      (Instruction.op name annots args).typesFailFree && Micheline.argsAreSource args
  | .group body => Micheline.isSource body

def Micheline.argsAreSource : List Arg → Bool
  | [] => true
  | .literal _ :: as => Micheline.argsAreSource as
  | .code body :: as => Micheline.isSource body && Micheline.argsAreSource as

/-- Whether all of a code list is as contracts write it. -/
def Micheline.isSource : List Instruction → Bool
  | [] => true
  | i :: is => i.isSource && Micheline.isSource is

end

section Source

variable {i : Instruction}

theorem isSource_cons {is : Code} (source : Micheline.isSource (i :: is)) :
    i.isSource ∧ Micheline.isSource is := by
  simpa [Micheline.isSource] using source

theorem isSource_body (source : i.isSource) : Micheline.isSource i.body := by
  cases i with
  | op name annots args => rfl
  | group body => simpa [Instruction.isSource, Instruction.body] using source

theorem argsAreSource_code {args : List Arg} {body : Code} (source : Micheline.argsAreSource args)
    (member : Arg.code body ∈ args) : Micheline.isSource body := by
  induction args with
  | nil => contradiction
  | cons a as ih =>
    cases a with
    | literal e =>
      refine ih source ?_
      simpa using member
    | code first =>
      simp only [Micheline.argsAreSource, Bool.and_eq_true] at source
      rcases List.mem_cons.mp member with same | member
      · cases same
        exact source.1
      · exact ih source.2 member

theorem isSource_codeArg (source : i.isSource) {code : Code} (member : code ∈ i.codeArgs) :
    Micheline.isSource code := by
  obtain ⟨a, among, same⟩ := List.mem_filterMap.mp member
  cases i with
  | group body => contradiction
  | op name annots args =>
    simp only [Instruction.isSource, Bool.and_eq_true] at source
    cases a with
    | literal e => contradiction
    | code body =>
      cases Option.some.inj same
      exact argsAreSource_code source.2 among

theorem isSource_dipBody (source : i.isSource) : Micheline.isSource (dipBody i) := by
  unfold dipBody
  cases found : i.codeArgs.getLast? with
  | none => rfl
  | some code => exact isSource_codeArg source (List.mem_of_getLast? found)

theorem isSource_arm (source : i.isSource) (k : Nat) : Micheline.isSource (arm i k) := by
  unfold arm
  cases found : i.codeArgs[k]? with
  | none => rfl
  | some code => exact isSource_codeArg source (List.mem_of_getElem? found)

theorem isSource_dipLevel (source : i.isSource) (dip : i.name = "DIP") : 0 ≤ dipLevel i := by
  cases i with
  | group body => simp [Instruction.name] at dip
  | op name annots args =>
    simp only [Instruction.name] at dip
    subst dip
    simp only [Instruction.isSource, Bool.and_eq_true] at source
    simpa using source.1.1.2

theorem isSource_name (source : i.isSource) : i.name ≠ "CURSOR" := by
  cases i with
  | group body => simp [Instruction.name]
  | op name annots args =>
    simp only [Instruction.isSource, Bool.and_eq_true] at source
    simpa [Instruction.name] using source.1.1.1

theorem typesFailFree_admits (free : i.typesFailFree) : Admits Ty.FailFree i := by
  intro e member t read
  have own := List.all_eq_true.mp free e member
  simpa [read] using own

theorem isSource_admits (source : i.isSource) : Admits Ty.FailFree i := by
  cases i with
  | group body =>
    intro e member
    simp [Instruction.typeLiterals, Instruction.literalArgs, Instruction.args,
      Instruction.name] at member
  | op name annots args =>
    simp only [Instruction.isSource, Bool.and_eq_true] at source
    exact typesFailFree_admits source.1.2

end Source

/-! ## Settled stacks -/

structure Settled (s : Stack) : Prop where
  within : s.beyond = 0
  narrow : (s.hidden.length : Int) ≤ greatestWord
  hidden : ∀ x ∈ s.hidden, x.FailFree
  visible : ∀ x ∈ s.visible, x.FailFree

/-- What is left of a stack when its hidden items and its trail are forgotten. -/
def Stack.shown (s : Stack) : Stack := { visible := s.visible, env := s.env }

section Stacks

variable {s s' : Stack} {i : Instruction}

theorem FailFree.not_failure {x : Item} (free : x.FailFree) : x.isFailure = false := by
  cases x with
  | absent => rfl
  | node t _ _ _ ops =>
    have type := closed_failFree.ty _ free
    cases t with
    | unknown => rfl
    | app name args =>
      simp only [Item.ty, Ty.FailFree, Ty.mentions, Bool.or_eq_false_iff] at type
      exact type.1

theorem Settled.not_failed (settled : Settled s) : s.isFailed = false := by
  unfold Stack.isFailed
  cases top : s.items.head? with
  | none => rfl
  | some x =>
    have member := List.mem_of_head? top
    rcases List.mem_append.mp member with member | member
    · exact FailFree.not_failure (settled.hidden x member)
    · exact FailFree.not_failure (settled.visible x member)

theorem failWith_failed (reason : Item) : (s.failWith reason).isFailed = true := rfl

theorem Settled.withVisible (settled : Settled s) {v : List Item} (free : ∀ x ∈ v, x.FailFree) :
    Settled { s with visible := v } :=
  ⟨settled.within, settled.narrow, settled.hidden, free⟩

theorem table_plain : ∀ entry ∈ Rule.table,
    entry.2.isPlain = (entry.1 != "CURSOR" && entry.1 != "FAILWITH") := by
  decide

/-- An instruction of a contract that does not end the path does the same on a settled stack as on
what the stack shows. -/
theorem step_alike (settled : Settled s) (source : i.isSource) (goes : i.name ≠ "FAILWITH") :
    ∃ r v, (Stack.step i).run s = s.finish v r ∧ (Stack.step i).run s.shown = s.shown.finish v r ∧
      ∀ x ∈ v, x.FailFree := by
  unfold Stack.step
  cases found : Rule.ofName? i.name with
  | none => exact ⟨.error (.unsupported i.name), s.visible, rfl, rfl, settled.visible⟩
  | some r =>
    have plain : r.isPlain := by
      have entry := table_plain _ (ofName?_mem found)
      simpa [bne, beq_false_of_ne (isSource_name source), beq_false_of_ne goes] using entry
    obtain ⟨result, v, run, alike, kept, _⟩ :=
      run_plain closed_failFree (isSource_admits source) found plain s s.shown
        settled.within rfl rfl rfl settled.visible
    exact ⟨result, v, run, alike, kept⟩

theorem step_failWith (name : i.name = "FAILWITH") : Stack.step i = Rule.run i .failWith := by
  have found : Rule.ofName? "FAILWITH" = some .failWith := rfl
  rw [Stack.step, name, found]

theorem step_marker {n : Int} (lower : leastWord ≤ n) (upper : n ≤ greatestWord) :
    Stack.step (marker n) = Action.shift n := by
  have found : Rule.ofName? (marker n).name = some .cursor := rfl
  rw [Stack.step, found]
  simp only [Rule.run, intArg_marker lower upper]

section Boundary

variable (within : s.beyond = 0) (narrow : (s.hidden.length : Int) ≤ greatestWord)

include within narrow

/-- A boundary that moves down hides the topmost visible items. -/
theorem shift_lower {n : Int} (natural : 0 ≤ n) (fits : n ≤ greatestWord) {x : Unit}
    (accepted : (Action.shift n).run s = .ok x s') :
    n ≤ s.visible.length ∧ s.hidden.length + n ≤ greatestWord ∧
      s' = { s with
        hidden := s.hidden ++ s.visible.take n.toNat
        visible := s.visible.drop n.toNat } := by
  obtain ⟨lower, upper, rfl⟩ := shift_ok accepted
  have cursor : (s.cursor : Int) = s.hidden.length := by simp [Stack.cursor, within]
  rw [cursor] at lower upper ⊢
  have straight : wrap (s.hidden.length + n) = s.hidden.length + n := by
    refine wrap_eq (by unfold leastWord; omega) ?_
    by_contra large
    have negative := wrap_above (n := s.hidden.length + n) (by omega) (by omega)
    omega
  have top := (wrap_bounds (s.hidden.length + n)).2
  rw [straight] at lower upper top ⊢
  have length : (s.items.length : Int) = s.hidden.length + s.visible.length := by
    simp [Stack.items]
  have split : (s.hidden.length + n : Int).toNat = s.hidden.length + n.toNat := by omega
  have hidden : s.items.take (s.hidden.length + n.toNat) = s.hidden ++ s.visible.take n.toNat := by
    rw [Stack.items, List.take_length_add_append]
  have visible : s.items.drop (s.hidden.length + n.toNat) = s.visible.drop n.toNat := by
    rw [Stack.items, List.drop_length_add_append]
  rw [split, hidden, visible]
  exact ⟨by omega, top, by simp [within]⟩

/-- A boundary that moves back up shows what it had hidden. -/
theorem shift_raise {deeper shown : List Item} (hidden : s.hidden = deeper ++ shown) :
    (Action.shift (-shown.length)).run s =
      .ok () { s with hidden := deeper, visible := shown ++ s.visible } := by
  have cursor : (s.cursor : Int) + -shown.length = deeper.length := by
    simp only [Stack.cursor, within, hidden, List.length_append]
    omega
  rw [hidden, List.length_append] at narrow
  have straight : wrap (s.cursor + -shown.length) = deeper.length := by
    rw [cursor]
    exact wrap_eq (by unfold leastWord; omega) (by omega)
  rw [Action.run_shift, straight, if_neg (by simp [Stack.items, hidden]; omega)]
  simp [Stack.items, hidden, within]

/-- The marker that closes a block shows the items that the block protected. -/
theorem step_raise {deeper shown : List Item} (hidden : s.hidden = deeper ++ shown) :
    (Stack.step (marker (wrap (-shown.length)))).run s =
      .ok () { s with hidden := deeper, visible := shown ++ s.visible } := by
  have short := narrow
  rw [hidden, List.length_append] at short
  unfold greatestWord at short
  have straight : wrap (-shown.length) = -shown.length :=
    wrap_eq (by unfold leastWord; omega) (by unfold greatestWord; omega)
  rw [straight, step_marker (by unfold leastWord; omega) (by unfold greatestWord; omega)]
  exact shift_raise within narrow hidden

end Boundary

theorem shift_hide (settled : Settled s) {n : Int} (natural : 0 ≤ n) (fits : n ≤ greatestWord)
    {x : Unit} (accepted : (Action.shift n).run s = .ok x s') :
    n ≤ s.visible.length ∧
      s' = { s with
        hidden := s.hidden ++ s.visible.take n.toNat
        visible := s.visible.drop n.toNat } ∧
      Settled s' := by
  obtain ⟨deep, short, rfl⟩ := shift_lower settled.within settled.narrow natural fits accepted
  refine ⟨deep, rfl, ⟨settled.within, ?_, ?_, ?_⟩⟩
  · simp only [List.length_append, List.length_take]
    omega
  · intro y member
    rcases List.mem_append.mp member with member | member
    · exact settled.hidden y member
    · exact settled.visible y (List.mem_of_mem_take member)
  · exact fun y member => settled.visible y (List.mem_of_mem_drop member)

theorem step_closing (settled : Settled s) {deeper shown : List Item}
    (hidden : s.hidden = deeper ++ shown) :
    (Stack.step (marker (wrap (-shown.length)))).run s =
      .ok () { s with hidden := deeper, visible := shown ++ s.visible } :=
  step_raise settled.within settled.narrow hidden

theorem Settled.reveal (settled : Settled s) {deeper shown : List Item}
    (hidden : s.hidden = deeper ++ shown) :
    Settled { s with hidden := deeper, visible := shown ++ s.visible } where
  within := settled.within
  narrow := by
    have narrow := settled.narrow
    rw [hidden, List.length_append] at narrow
    dsimp only
    omega
  hidden := fun x member => settled.hidden x (by rw [hidden]; exact List.mem_append_left _ member)
  visible := by
    intro x member
    rcases List.mem_append.mp member with member | member
    · exact settled.hidden x (by rw [hidden]; exact List.mem_append_right _ member)
    · exact settled.visible x member

/-! ## Joints on settled stacks -/

theorem payload_failFree {guard : Item} (free : guard.FailFree) {t : Ty} (type : t.FailFree)
    (label : String) : (Joint.payload label t guard).FailFree :=
  closed_failFree.node _ _ _ _ _ type (List.forall_mem_singleton.mpr free)

theorem elementTy_failFree {t : Ty} (type : t.FailFree) : (Joint.elementTy t).FailFree := by
  unfold Joint.elementTy
  split
  · exact closed_failFree.pair (closed_failFree.arg type 0) (closed_failFree.arg type 1)
  · exact closed_failFree.arg type 0

theorem payloads_failFree {guard : Item} (free : guard.FailFree) (j : Joint) :
    (∀ x ∈ (j.payloads guard).1, x.FailFree) ∧ ∀ x ∈ (j.payloads guard).2, x.FailFree := by
  have type := closed_failFree.ty guard free
  have left := closed_failFree.arg type 0
  have right := closed_failFree.arg type 1
  cases j <;> simp [Joint.payloads, payload_failFree, free, type, left, right]

/-- A joint other than an iteration does the same on a settled stack as on what the stack shows. -/
theorem split_alike (settled : Settled s) {name : String} {j : Joint}
    (found : Joint.ofName? name = some j) (other : j ≠ .iter) :
    (∃ e, (Stack.split name).run s = .error e s ∧
      (Stack.split name).run s.shown = .error e s.shown) ∨
    ∃ v w t t',
      (Stack.split name).run s = .ok ({ s with visible := v }, { s with visible := w }) t ∧
      (Stack.split name).run s.shown =
        .ok ({ s.shown with visible := v }, { s.shown with visible := w }) t' ∧
      (∀ x ∈ v, x.FailFree) ∧ ∀ x ∈ w, x.FailFree := by
  simp only [Stack.split, found]
  cases shown : s.visible with
  | nil =>
    refine .inl ⟨.underflow 0 0, Joint.run_branch_empty j settled.within shown, ?_⟩
    exact Joint.run_branch_empty j rfl shown
  | cons guard rest =>
    have free := settled.visible
    rw [shown, List.forall_mem_cons] at free
    obtain ⟨first, second⟩ := payloads_failFree free.1 j
    have run := Joint.run_branch settled.within shown other
    have alike := @Joint.run_branch s.shown j guard rest rfl shown other
    refine .inr ⟨(j.payloads guard).1.reverse ++ rest, (j.payloads guard).2.reverse ++ rest, _, _,
      run, alike, ?_, ?_⟩
    · intro x member
      rcases List.mem_append.mp member with member | member
      · exact first x (List.mem_reverse.mp member)
      · exact free.2 x member
    · intro x member
      rcases List.mem_append.mp member with member | member
      · exact second x (List.mem_reverse.mp member)
      · exact free.2 x member

/-- An iteration hides the rest of the collection and shows an element, or leaves it. -/
theorem split_iter (settled : Settled s) {name : String} (found : Joint.ofName? name = some .iter) :
    (∃ e t, (Stack.split name).run s = .error e t) ∨
    ∃ coll rest t, s.visible = coll :: rest ∧
      (Stack.split name).run s =
        .ok ({ s with
            hidden := s.hidden ++ [Joint.payload "ITER.rest" coll.ty coll]
            visible := Joint.payload "ITER.elem" (Joint.elementTy coll.ty) coll :: rest },
          { s with visible := rest }) t ∧
      Settled { s with
        hidden := s.hidden ++ [Joint.payload "ITER.rest" coll.ty coll]
        visible := Joint.payload "ITER.elem" (Joint.elementTy coll.ty) coll :: rest } ∧
      Settled { s with visible := rest } := by
  simp only [Stack.split, found]
  cases shown : s.visible with
  | nil => exact .inl ⟨_, _, Joint.run_branch_empty .iter settled.within shown⟩
  | cons coll rest =>
    have free := settled.visible
    rw [shown, List.forall_mem_cons] at free
    have type := closed_failFree.ty coll free.1
    have behind := settled.withVisible free.2
    rw [Joint.run_branch_iter settled.within shown, Joint.run_beside]
    cases entered : (Joint.enterBody coll).run { s with visible := rest } with
    | error e t => exact .inl ⟨e, _, rfl⟩
    | ok _ inner =>
      obtain ⟨t, shifted, rfl⟩ := Joint.enterBody_ok entered settled.within
      have pushed : Settled { s with
          visible := Joint.payload "ITER.rest" coll.ty coll :: rest, beyond := 0 } := by
        refine ⟨rfl, settled.narrow, settled.hidden, ?_⟩
        exact List.forall_mem_cons.mpr ⟨payload_failFree free.1 type _, free.2⟩
      obtain ⟨_, rfl, inside⟩ := shift_hide pushed (by decide) (by decide) shifted
      have element := payload_failFree free.1 (elementTy_failFree type) "ITER.elem"
      have ready := inside.withVisible (List.forall_mem_cons.mpr ⟨element, inside.visible⟩)
      refine .inr ⟨coll, rest, { s with visible := rest }, rfl, ?_, ?_, behind⟩
      · simp [settled.within]
      · simpa [settled.within] using ready

end Stacks

end StackFlow
