import StackFlow.Proofs.Trails

/-!
Instructions are local: one that succeeds looks at the topmost visible items only, so further items
below all others change nothing, and what it makes has as many operands as its producer declares.
Main statement: a straight-line instruction acts on the visible items alone and leaves alone what is
below them, or it moves the boundary, or it fails.
-/

namespace StackFlow

open Micheline (Instruction)

/-- The stack with further items at its bottom. -/
def Stack.over (s : Stack) (below : List Item) : Stack := { s with visible := s.visible ++ below }

/-! ## Declared operands -/

def unaryProducers : List String :=
  ["EQ", "NEQ", "LT", "GT", "LE", "GE", "ABS", "NEG", "ISNAT", "INT", "NOT", "SIZE", "PACK",
    "UNPACK", "BLAKE2B", "SHA256", "SHA512", "HASH_KEY", "ADDRESS", "CONTRACT", "IMPLICIT_ACCOUNT",
    "SET_DELEGATE", "CAR", "CDR", "FAILWITH",
    -- the arms of joints
    "IF_LEFT.0", "IF_LEFT.1", "LOOP_LEFT.0", "LOOP_LEFT.1", "IF_NONE.some", "IF_CONS.head",
    "IF_CONS.tail", "ITER.elem", "ITER.rest"]

def binaryProducers : List String :=
  ["CONS", "COMPARE", "ADD", "SUB", "MUL", "EDIV", "AND", "OR", "XOR", "MEM", "GET", "EXEC"]

def ternaryProducers : List String :=
  ["SLICE", "UPDATE", "CHECK_SIGNATURE", "TRANSFER_TOKENS", "CREATE_CONTRACT",
    "CREATE_CONTRACT.address"]

def fixedCount? (producer : String) : Option Nat :=
  if producer ∈ unaryProducers then some 1
  else if producer ∈ binaryProducers then some 2
  else if producer ∈ ternaryProducers then some 3
  else none

/-- How many operands a producer declares; a concatenation takes the parts of a list, or two. -/
def declaredCount? (producer : String) (ops : List Item) : Option Nat :=
  if producer = "CONCAT" then some (if (operandTy ops 0).is "list" then 1 else 2)
  else fixedCount? producer

/-- What an invariant of items has to be closed under, so that instructions keep it. -/
structure Formed (P : Item → Prop) : Prop where
  value : ∀ t literal parts, (∀ x ∈ parts, P x) → P (.node t [] "" literal parts)
  result : ∀ t producer ops, (∀ x ∈ ops, P x) → declaredCount? producer ops = some ops.length →
    P (.derived t producer ops)
  withTy : ∀ x t, P x → P (x.withTy t)
  withAnnots : ∀ x annots, P x → P (x.withAnnots annots)
  operand : ∀ x, P x → ∀ y ∈ x.operands, P y

theorem formed_true : Formed fun _ => True where
  value := fun _ _ _ _ => trivial
  result := fun _ _ _ _ _ => trivial
  withTy := fun _ _ _ => trivial
  withAnnots := fun _ _ _ => trivial
  operand := fun _ _ _ _ => trivial

/-- What an invariant of items has to be closed under, so that one instruction keeps it. Only a pair
shows its components, only a `PUSH` makes items from a literal, and only a `CAST` gives an item another
type. -/
structure Yields (P : Item → Prop) (i : Instruction) : Prop where
  text : ∀ t text, P (.ofText t text)
  tagged : ∀ t tag x, P x → P (.composite t (some tag) [x])
  pair : ∀ x y, P x → P y → P (.composite (Ty.pair x.ty y.ty) none [x, y])
  result : ∀ t producer ops, producer ≠ "" → (∀ x ∈ ops, P x) →
    declaredCount? producer ops = some ops.length → P (.derived t producer ops)
  component : ∀ x, P x → x.isConcretePair = true → ∀ y ∈ x.operands, P y
  withAnnots : ∀ x annots, P x → P (x.withAnnots annots)
  literal : i.name = "PUSH" → ∀ e v t x, i.literalArgs = [e, v] → Ty.ofExpr e = .ok t →
    Item.ofValue t v = .ok x → P x
  cast : i.name = "CAST" → ∀ x t, P x → P (x.withTy t)

theorem Formed.onLiterals {P : Item → Prop} (formed : Formed P) :
    ClosedOnLiterals P fun _ => True where
  node := fun t literal parts _ good => formed.value t literal parts good
  arg := fun _ _ _ => trivial
  pair := fun _ _ _ _ => trivial

theorem Formed.yields {P : Item → Prop} (formed : Formed P) (i : Instruction) : Yields P i where
  text := fun t _ => formed.value t _ [] nofun
  tagged := fun t _ _ good => formed.value t _ _ (List.forall_mem_singleton.mpr good)
  pair := fun _ _ first second => formed.value _ _ _
    (List.forall_mem_cons.mpr ⟨first, List.forall_mem_singleton.mpr second⟩)
  result := fun t producer ops _ => formed.result t producer ops
  component := fun x good _ => formed.operand x good
  withAnnots := formed.withAnnots
  literal := fun _ _ _ _ _ _ _ accepted => ofValue_closed formed.onLiterals trivial _ accepted
  cast := fun _ => formed.withTy

/-- The names under which a rule makes its results declare the operands that it takes. -/
def Rule.fits (name : String) : Rule → Bool
  | .operator arity _ => name != "CONCAT" && fixedCount? name == Option.some arity
  | .project _ => name != "CONCAT" && fixedCount? name == Option.some 1
  | .createContract => name != "CONCAT" && fixedCount? name == Option.some 3
  | .concat => name == "CONCAT"
  | _ => true

theorem table_fits : ∀ entry ∈ Rule.table, entry.2.fits entry.1 := by
  decide

theorem table_cast : ∀ entry ∈ Rule.table,
    (match entry.2 with | .cast => entry.1 == "CAST" | _ => true) = true := by
  decide

theorem declaredCount_fixed {name : String} {n : Nat} {ops : List Item}
    (fits : (name != "CONCAT" && fixedCount? name == some n) = true) :
    declaredCount? name ops = some n := by
  simp only [Bool.and_eq_true, bne_iff_ne, beq_iff_eq] at fits
  rw [declaredCount?, if_neg fits.1, fits.2]

/-! ## Local actions -/

/-- From this stack the action, if it succeeds, changes the visible items only, keeps `P` of them
and gives a `Q`; and it does the same with further items below. -/
def LocalAt {α : Type} (P : Item → Prop) (Q : α → Prop) (a : Action α) (s : Stack) : Prop :=
  ∀ x t, a.run s = .ok x t → Q x ∧ (∃ v, t = { s with visible := v } ∧ ∀ y ∈ v, P y) ∧
    ∀ below, a.run (s.over below) = .ok x (t.over below)

def Local {α : Type} (P : Item → Prop) (Q : α → Prop) (a : Action α) : Prop :=
  ∀ s : Stack, s.beyond = 0 → (∀ x ∈ s.visible, P x) → LocalAt P Q a s

namespace Local

variable {α β : Type} {P : Item → Prop} {Q : α → Prop} {R : β → Prop} {s : Stack}

theorem pure {x : α} (result : Q x) : Local P Q (Pure.pure x) := by
  rintro s _ good y t ⟨⟩
  exact ⟨result, ⟨s.visible, rfl, good⟩, fun _ => rfl⟩

theorem throw (e : Fault) : Local P Q (MonadExcept.throw e : Action α) := by
  rintro s _ _ y t ⟨⟩

theorem at_bind {a : Action α} {f : α → Action β} (within : s.beyond = 0)
    (first : LocalAt P Q a s) (rest : ∀ x, Q x → Local P R (f x)) : LocalAt P R (a >>= f) s := by
  intro y t ran
  rw [Action.run_bind] at ran
  cases done : a.run s with
  | error e u =>
    rw [done] at ran
    cases ran
  | ok x u =>
    rw [done] at ran
    obtain ⟨result, ⟨v, rfl, kept⟩, below⟩ := first x u done
    obtain ⟨result', ⟨w, rfl, kept'⟩, below'⟩ := rest x result { s with visible := v } within kept y t ran
    refine ⟨result', ⟨w, rfl, kept'⟩, fun r => ?_⟩
    rw [Action.run_bind, below r]
    exact below' r

theorem bind {a : Action α} {f : α → Action β} (first : Local P Q a)
    (rest : ∀ x, Q x → Local P R (f x)) : Local P R (a >>= f) :=
  fun s within good => at_bind within (first s within good) rest

theorem env {k : Option Env → Action α} (rest : ∀ e, Local P Q (k e)) :
    Local P Q (get >>= fun s => k s.env) :=
  fun s within good => rest s.env s within good

/-- What comes next may give up where the stack is too shallow. -/
theorem deepEnough {n : Int} {shallow enough : Action α}
    (gives : ∀ s, ∃ e t, shallow.run s = .error e t) (rest : Local P Q enough) :
    Local P Q (get >>= fun s => if s.depth ≤ n then shallow else enough) := by
  intro s within good x t ran
  by_cases refused : s.depth ≤ n
  · obtain ⟨e, u, failed⟩ := gives s
    have same : (get >>= fun s => if s.depth ≤ n then shallow else enough).run s =
        shallow.run s := by
      change EStateM.run (if s.depth ≤ n then shallow else enough) s = _
      rw [if_pos refused]
    rw [same, failed] at ran
    cases ran
  · have along (u : Stack) (deep : ¬ u.depth ≤ n) :
        (get >>= fun s => if s.depth ≤ n then shallow else enough).run u = enough.run u := by
      change EStateM.run (if u.depth ≤ n then shallow else enough) u = _
      rw [if_neg deep]
    rw [along s refused] at ran
    obtain ⟨result, kept, below⟩ := rest s within good x t ran
    refine ⟨result, kept, fun r => ?_⟩
    rw [along _ (by simp only [Stack.depth, Stack.over, List.length_append] at refused ⊢; omega)]
    exact below r

theorem ofExcept {r : Except Fault α} (ok : ∀ x, r = .ok x → Q x) : Local P Q (Rule.ofExcept r) := by
  cases r with
  | ok x => exact Local.pure (ok x rfl)
  | error e => exact Local.throw e

/-- An operation on the visible items that, where it succeeds, does not depend on those further
down. -/
theorem ofVisible {a : Action α} (act : List Item → Option (α × List Item))
    (run : ∀ s : Stack, s.beyond = 0 → ∃ e u, a.run s =
      match act s.visible with
      | some (x, v) => .ok x { s with visible := v }
      | none => .error e u)
    (kept : ∀ v x w, act v = some (x, w) → (∀ y ∈ v, P y) → Q x ∧ ∀ y ∈ w, P y)
    (deeper : ∀ v x w r, act v = some (x, w) → act (v ++ r) = some (x, w ++ r)) : Local P Q a := by
  intro s within good x t ran
  obtain ⟨e, u, same⟩ := run s within
  cases acted : act s.visible with
  | none =>
    rw [same, acted] at ran
    cases ran
  | some outcome =>
    obtain ⟨y, v⟩ := outcome
    rw [same, acted] at ran
    cases ran
    obtain ⟨result, invariant⟩ := kept _ _ _ acted good
    refine ⟨result, ⟨v, rfl, invariant⟩, fun r => ?_⟩
    obtain ⟨e, u, same⟩ := run (s.over r) within
    rw [same, Stack.over, deeper _ _ _ r acted]
    rfl

theorem depth_eq (within : s.beyond = 0) : s.depth = s.visible.length := by
  simp [Stack.depth, within]

theorem peek (i : Int) : Local P P (Action.peek i) := by
  refine ofVisible (fun v => if i < 0 then none else v[i.toNat]?.map fun x => (x, v)) ?_ ?_ ?_
  · intro s _
    refine ⟨.underflow i s.depth, s, ?_⟩
    rw [Action.run_peek]
    split
    · rfl
    · cases s.visible[i.toNat]? <;> rfl
  · intro v x w acted good
    obtain ⟨_, acted⟩ := Option.ite_none_left_eq_some.mp acted
    obtain ⟨y, found, same⟩ := Option.map_eq_some_iff.mp acted
    cases same
    exact ⟨good _ (List.mem_of_getElem? found), good⟩
  · intro v x w r acted
    obtain ⟨natural, acted⟩ := Option.ite_none_left_eq_some.mp acted
    obtain ⟨y, found, same⟩ := Option.map_eq_some_iff.mp acted
    cases same
    rw [if_neg natural, List.getElem?_append_left (List.getElem?_eq_some_iff.mp found).1, found]
    rfl

theorem popAt (i : Int) : Local P P (Action.popAt i) := by
  refine ofVisible
    (fun v => if i < 0 then none else v[i.toNat]?.map fun x => (x, v.eraseIdx i.toNat)) ?_ ?_ ?_
  · intro s _
    refine ⟨.underflow i s.depth, s, ?_⟩
    rw [Action.popAt, Action.run_bind, Action.run_peek]
    by_cases negative : i < 0
    · rw [if_pos negative, if_pos negative]
    · rw [if_neg negative, if_neg negative]
      cases s.visible[i.toNat]? <;> rfl
  · intro v x w acted good
    obtain ⟨_, acted⟩ := Option.ite_none_left_eq_some.mp acted
    obtain ⟨y, found, same⟩ := Option.map_eq_some_iff.mp acted
    cases same
    exact ⟨good _ (List.mem_of_getElem? found),
      fun z member => good z (List.mem_of_mem_eraseIdx member)⟩
  · intro v x w r acted
    obtain ⟨natural, acted⟩ := Option.ite_none_left_eq_some.mp acted
    obtain ⟨y, found, same⟩ := Option.map_eq_some_iff.mp acted
    cases same
    have small := (List.getElem?_eq_some_iff.mp found).1
    rw [if_neg natural, List.getElem?_append_left small, found,
      List.eraseIdx_append_of_lt_length small]
    rfl

/-- An operation that succeeds where there are enough visible items. -/
theorem guarded {a : Action α} (refuses : Int → Bool) (index : Int) (value : List Item → α)
    (next : List Item → List Item)
    (run : ∀ s : Stack, s.beyond = 0 → a.run s =
      if refuses s.depth then .error (.underflow index s.depth) s
      else .ok (value s.visible) { s with visible := next s.visible })
    (kept : ∀ v : List Item, refuses v.length = false → (∀ y ∈ v, P y) →
      Q (value v) ∧ ∀ y ∈ next v, P y)
    (deeper : ∀ v r : List Item, refuses v.length = false → refuses (v ++ r).length = false ∧
      value (v ++ r) = value v ∧ next (v ++ r) = next v ++ r) : Local P Q a := by
  refine ofVisible
    (fun v => if refuses v.length then none else some (value v, next v)) ?_ ?_ ?_
  · intro s within
    refine ⟨.underflow index s.depth, s, ?_⟩
    rw [run s within, depth_eq within]
    split <;> rfl
  · intro v x w acted good
    obtain ⟨enough, same⟩ := Option.ite_none_left_eq_some.mp acted
    cases same
    exact kept v (by simpa using enough) good
  · intro v x w r acted
    obtain ⟨enough, same⟩ := Option.ite_none_left_eq_some.mp acted
    cases same
    obtain ⟨still, result, rest⟩ := deeper v r (by simpa using enough)
    rw [if_neg (by simp only [still]; decide), result, rest]

theorem pop (n : Int) : Local P (fun xs => xs.length = n.toNat ∧ ∀ x ∈ xs, P x) (Action.pop n) := by
  refine guarded (fun d => n < 0 || d < n) (wrap (n - 1)) (fun v => v.take n.toNat)
    (fun v => v.drop n.toNat) (fun s _ => Action.run_pop n s) ?_ ?_
  · intro v enough good
    simp only [Bool.or_eq_false_iff, decide_eq_false_iff_not] at enough
    refine ⟨⟨?_, fun x member => good x (List.mem_of_mem_take member)⟩,
      fun x member => good x (List.mem_of_mem_drop member)⟩
    rw [List.length_take]
    omega
  · intro v r enough
    simp only [Bool.or_eq_false_iff, decide_eq_false_iff_not] at enough ⊢
    refine ⟨⟨enough.1, ?_⟩, List.take_append_of_le_length ?_, List.drop_append_of_le_length ?_⟩
    · rw [List.length_append]
      omega
    · omega
    · omega

theorem at_pop (n : Int) (within : s.beyond = 0) (good : ∀ x ∈ s.visible, P x) :
    LocalAt P (fun xs => xs = s.visible.take n.toNat ∧ xs.length = n.toNat ∧ ∀ x ∈ xs, P x)
      (Action.pop n) s := by
  intro xs t ran
  obtain ⟨result, kept⟩ := pop n s within good xs t ran
  rw [Action.run_pop] at ran
  split at ran
  · cases ran
  · cases ran
    exact ⟨⟨rfl, result⟩, kept⟩

theorem push {x : Item} (good : P x) : Local P (fun _ => True) (Action.push x) := by
  refine guarded (fun _ => false) 0 (fun _ => ()) (fun v => x :: v) ?_ ?_ ?_
  · intro s within
    rw [Action.run_push_shown x within, if_neg (by simp)]
  · intro v _ rest
    exact ⟨trivial, List.forall_mem_cons.mpr ⟨good, rest⟩⟩
  · intro v r _
    exact ⟨rfl, rfl, rfl⟩

theorem insertIdx_append {n : Nat} {v r : List Item} (x : Item) (small : n ≤ v.length) :
    (v ++ r).insertIdx n x = v.insertIdx n x ++ r := by
  induction n generalizing v with
  | zero => rfl
  | succ n ih =>
    cases v with
    | nil => cases small
    | cons y v => simp [ih (Nat.le_of_succ_le_succ small)]

theorem pushAt (i : Int) {x : Item} (good : P x) : Local P (fun _ => True) (Action.pushAt i x) := by
  refine guarded (fun d => i < 0 || d < i) i (fun _ => ()) (fun v => v.insertIdx i.toNat x)
    (fun s _ => Action.run_pushAt i x s) ?_ ?_
  · intro v _ rest
    refine ⟨trivial, fun y member => ?_⟩
    rcases List.eq_or_mem_of_mem_insertIdx member with rfl | member
    · exact good
    · exact rest y member
  · intro v r enough
    simp only [Bool.or_eq_false_iff, decide_eq_false_iff_not] at enough ⊢
    refine ⟨⟨enough.1, ?_⟩, trivial, insertIdx_append x ?_⟩
    · rw [List.length_append]
      omega
    · omega

theorem replace (i : Int) {x : Item} (good : P x) :
    Local P (fun _ => True) (Action.replace i x) := by
  refine guarded (fun d => i < 0 || d ≤ i) i (fun _ => ()) (fun v => v.set i.toNat x)
    (fun s _ => Action.run_replace i x s) ?_ ?_
  · intro v _ rest
    refine ⟨trivial, fun y member => ?_⟩
    rcases List.mem_or_eq_of_mem_set member with member | rfl
    · exact rest y member
    · exact good
  · intro v r enough
    simp only [Bool.or_eq_false_iff, decide_eq_false_iff_not] at enough ⊢
    refine ⟨⟨enough.1, ?_⟩, trivial, List.set_append_left _ _ ?_⟩
    · rw [List.length_append]
      omega
    · omega

end Local

/-! ## Rules -/

section Rules

variable {P : Item → Prop} {i : Instruction} (yields : Yields P i) {s : Stack}

include yields

theorem Yields.annotate {x : Item} (good : P x) : P (annotate i x) := by
  unfold StackFlow.annotate
  split
  · exact good
  · exact yields.withAnnots x _ good

/-- The name of a projection declares one operand; a component of a pair is an operand of it. -/
theorem Yields.project {x : Item} (good : P x) {name : String} (named : name ≠ "")
    (fits : fixedCount? name = some 1) (other : name ≠ "CONCAT") (side : Side) :
    P (project x name side) := by
  unfold StackFlow.project
  split
  · rename_i pair
    have two : x.operands.length = 2 := by
      simp only [Item.isConcretePair, Bool.and_eq_true, beq_iff_eq] at pair
      exact pair.1.2
    have small : side.index < x.operands.length := by
      rw [two]
      cases side <;> decide
    rw [List.getD_eq_getElem _ _ small]
    exact yields.component x good pair _ (List.getElem_mem small)
  · refine yields.result _ _ _ named (List.forall_mem_singleton.mpr good) ?_
    rw [declaredCount?, if_neg other, fits]
    rfl

theorem at_runOperator {arity : Nat} (result : ResultTy) (named : i.name ≠ "") (within : s.beyond = 0)
    (good : ∀ x ∈ s.visible, P x)
    (fits : declaredCount? i.name (s.visible.take arity) = some arity) :
    LocalAt P (fun _ => True) (Rule.runOperator i arity result) s := by
  refine Local.at_bind within (Local.at_pop arity within good) ?_
  rintro ops ⟨same, count, parts⟩
  refine .bind (Q := fun _ => True) (.ofExcept fun _ _ => trivial) fun t _ => .push ?_
  refine yields.annotate (yields.result _ _ _ named parts ?_)
  rw [same, Int.toNat_natCast] at *
  rw [fits, count]

theorem runPush_local (name : i.name = "PUSH") :
    Local P (fun _ => True) (Rule.runPush i) := by
  unfold Rule.runPush
  split
  · rename_i e v literals
    refine .bind (Q := fun t => Ty.ofExpr e = .ok t) (.ofExcept fun t typed => ?_) fun t typed => ?_
    · exact mapError_ok typed
    · refine .bind (Q := P) (.ofExcept fun x accepted => ?_) fun x good =>
        .push (yields.annotate good)
      exact yields.literal name e v t x literals typed (mapError_ok accepted)
  · exact .throw _

theorem runLambda_local : Local P (fun _ => True) (Rule.runLambda i) := by
  refine .bind (Q := fun _ => True) (.ofExcept fun _ _ => trivial) fun arg _ => ?_
  refine .bind (Q := fun _ => True) (.ofExcept fun _ _ => trivial) fun ret _ => ?_
  exact .push (yields.annotate (yields.text _ _))

theorem runInject_local (side : Side) : Local P (fun _ => True) (Rule.runInject i side) := by
  refine .bind (Q := fun _ => True) (.ofExcept fun _ _ => trivial) fun other _ => ?_
  refine .bind (.pop 1) fun ops popped => .push (yields.annotate ?_)
  obtain ⟨x, rfl⟩ := List.length_eq_one_iff.mp popped.1
  have good := List.forall_mem_singleton.mp popped.2
  cases side with
  | left => exact yields.tagged _ _ x good
  | right => exact yields.tagged _ _ x good

theorem runConcat_local (name : i.name = "CONCAT") :
    Local P (fun _ => True) (Rule.run i .concat) := by
  intro s within good x t ran
  have named : i.name ≠ "" := by simp [name]
  have along (u : Stack) (y : Item) (rest : List Item) (shown : u.visible = y :: rest) :
      (Rule.run i .concat).run u = (if y.ty.is "list" then
        Rule.runOperator i 1 (.fixed (y.ty.arg 0)) else Rule.runOperator i 2 (.sameAs 0)).run u := by
    simp only [Rule.run, Action.top]
    rw [Action.run_bind, Action.run_peek, if_neg (by decide), shown]
    rfl
  cases shown : s.visible with
  | nil =>
    simp only [Rule.run, Action.top] at ran
    rw [Action.run_bind, Action.run_peek, if_neg (by decide), shown] at ran
    cases ran
  | cons y rest =>
    -- the item that is looked at is the first of the operands that are taken
    have operand (n : Nat) : operandTy (s.visible.take (n + 1)) 0 = y.ty := by
      rw [shown]
      rfl
    rw [along s y rest shown] at ran
    have deeper (r : List Item) := along (s.over r) y (rest ++ r) (by simp [Stack.over, shown])
    by_cases list : y.ty.is "list" = true
    · rw [if_pos list] at ran
      have fits : declaredCount? i.name (s.visible.take 1) = some 1 := by
        rw [declaredCount?, if_pos name, operand 0, if_pos list]
      obtain ⟨result, kept, below⟩ := at_runOperator yields _ named within good fits x t ran
      refine ⟨result, kept, fun r => ?_⟩
      rw [deeper r, if_pos list]
      exact below r
    · rw [if_neg list] at ran
      have fits : declaredCount? i.name (s.visible.take 2) = some 2 := by
        rw [declaredCount?, if_pos name, operand 1, if_neg list]
      obtain ⟨result, kept, below⟩ := at_runOperator yields _ named within good fits x t ran
      refine ⟨result, kept, fun r => ?_⟩
      rw [deeper r, if_neg list]
      exact below r

/-- Every rule but the two that reach beyond the visible items is local. -/
theorem run_local {r : Rule} (found : Rule.ofName? i.name = some r) (plain : r.isPlain) :
    Local P (fun _ => True) (r.run i) := by
  have fits := table_fits _ (ofName?_mem found)
  have named : i.name ≠ "" := by
    intro none
    rw [none] at found
    cases found
  cases r with
  | cursor => cases plain
  | failWith => cases plain
  | dup =>
    simp only [Rule.run]
    split
    · exact .bind (Q := fun _ => True) (.throw _) fun _ _ =>
        .bind (.peek _) fun x good => .push good
    · exact .bind (.peek _) fun x good => .push good
  | drop => exact .bind (.pop _) fun _ _ => .pure trivial
  | swap =>
    refine .bind (.pop 2) fun ops popped => ?_
    obtain ⟨x, y, rfl⟩ := List.length_eq_two.mp popped.1
    obtain ⟨first, second⟩ := List.forall_mem_cons.mp popped.2
    exact .bind (.push first) fun _ _ => .push (List.forall_mem_singleton.mp second)
  | dig => exact .bind (.popAt _) fun x good => .push good
  | dug =>
    refine .deepEnough (fun s => ⟨_, _, rfl⟩) ?_
    exact .bind (.popAt 0) fun x good => .pushAt _ good
  | push => exact runPush_local yields (eq_of_beq (table_push _ (ofName?_mem found)).symm)
  | unit => exact .push (yields.annotate (yields.text _ _))
  | lambda => exact runLambda_local yields
  | empty container arity literal =>
    refine .bind (Q := fun _ => True) (.ofExcept fun _ _ => trivial) fun args _ => ?_
    exact .push (yields.annotate (yields.text _ _))
  | read t field =>
    refine .env (k := fun e => Action.push
      (annotate i (.ofText t (field.read (e.getD Env.default))))) fun e => ?_
    exact .push (yields.annotate (yields.text _ _))
  | project side =>
    simp only [Rule.fits, Bool.and_eq_true, bne_iff_ne, beq_iff_eq] at fits
    refine .bind (.pop 1) fun ops popped => .push (yields.annotate ?_)
    obtain ⟨x, rfl⟩ := List.length_eq_one_iff.mp popped.1
    exact yields.project (List.forall_mem_singleton.mp popped.2) named fits.2 fits.1 side
  | unpair =>
    refine .bind (.pop 1) fun ops popped => ?_
    obtain ⟨x, rfl⟩ := List.length_eq_one_iff.mp popped.1
    have good := List.forall_mem_singleton.mp popped.2
    exact .bind (.push (yields.project good (by decide) (by decide) (by decide) _)) fun _ _ =>
      .push (yields.project good (by decide) (by decide) (by decide) _)
  | pair =>
    refine .bind (.pop 2) fun ops popped => .push (yields.annotate ?_)
    obtain ⟨x, y, rfl⟩ := List.length_eq_two.mp popped.1
    obtain ⟨first, second⟩ := List.forall_mem_cons.mp popped.2
    exact yields.pair x y first (List.forall_mem_singleton.mp second)
  | some =>
    refine .bind (.pop 1) fun ops popped => .push (yields.annotate ?_)
    obtain ⟨x, rfl⟩ := List.length_eq_one_iff.mp popped.1
    exact yields.tagged _ _ x (List.forall_mem_singleton.mp popped.2)
  | inject side => exact runInject_local yields side
  | cast =>
    have name : i.name = "CAST" := eq_of_beq (table_cast _ (ofName?_mem found))
    refine .bind (Q := fun _ => True) (.ofExcept fun _ _ => trivial) fun t _ => ?_
    exact .bind (.peek 0) fun x good => .replace 0 (yields.annotate (yields.cast name x t good))
  | rename => exact .bind (.peek 0) fun x good => .replace 0 (yields.withAnnots x _ good)
  | operator arity result =>
    exact fun s within good =>
      at_runOperator yields result named within good (declaredCount_fixed fits)
  | concat => exact runConcat_local yields (by simpa [Rule.fits] using fits)
  | createContract =>
    refine .bind (.pop 3) fun ops popped => ?_
    have count : ops.length = 3 := popped.1
    refine .bind (.push (yields.result _ _ _ (by decide) popped.2 ?_)) fun _ _ => ?_
    · rw [count]
      exact declaredCount_fixed (by decide)
    · refine .push (yields.annotate (yields.result _ _ _ named popped.2 ?_))
      rw [count]
      exact declaredCount_fixed fits

/-! ## Main statement -/

/-- A straight-line instruction acts on the visible items alone, with any items below them, or it
moves the boundary, or it fails with the topmost visible item. -/
theorem step_local {s' : Stack} {u : Unit} (within : s.beyond = 0) (good : ∀ x ∈ s.visible, P x)
    (stepped : (Stack.step i).run s = .ok u s') :
    (∃ v, s' = { s with visible := v } ∧ (∀ x ∈ v, P x) ∧
      ∀ below, (Stack.step i).run (s.over below) = .ok u (s'.over below)) ∨
    (isMarker i ∧ (Action.shift (markerDelta i)).run s = .ok u s') ∨
    i.name = "FAILWITH" ∧ ∃ reason rest, s.visible = reason :: rest ∧ s' = s.failWith reason := by
  rcases step_sort stepped with fails | marks | ⟨r, found, plain, same⟩
  · exact .inr (.inr ⟨fails, step_failed within fails stepped⟩)
  · rw [step_marker_rule marks] at stepped
    exact .inr (.inl ⟨marks, stepped⟩)
  · rw [same] at stepped ⊢
    obtain ⟨_, ⟨v, rfl, kept⟩, below⟩ := run_local yields found plain s within good u s' stepped
    exact .inl ⟨v, rfl, kept, below⟩

end Rules

end StackFlow
