import StackFlow.Proofs.Actions

/-!
Every straight-line instruction is a plain action, except the two that are made to reach beyond the
visible items: the marker that moves the boundary, and the failure that drops all items.
-/

namespace StackFlow

open Micheline (Instruction Expr)

mutual

/-- Whether a type or a component of it is called `name`. -/
def Ty.mentions (name : String) : Ty → Bool
  | .unknown => false
  | .app n args => n == name || Ty.anyMentions name args

def Ty.anyMentions (name : String) : List Ty → Bool
  | [] => false
  | t :: ts => t.mentions name || Ty.anyMentions name ts

end

/-- What an invariant of items and an invariant of types have to be closed under, so that
instructions keep them. Types named `fail` may be left out. -/
structure Closed (P : Item → Prop) (T : Ty → Prop) : Prop where
  absent : P .absent
  unknown : T .unknown
  node : ∀ t annots producer literal ops, T t → (∀ x ∈ ops, P x) →
    P (.node t annots producer literal ops)
  ty : ∀ x, P x → T x.ty
  operand : ∀ x, P x → ∀ y ∈ x.operands, P y
  app : ∀ name args, name ≠ Ty.failName → (∀ t ∈ args, T t) → T (.app name args)
  part : ∀ name args, T (.app name args) → ∀ t ∈ args, T t

/-- The literal arguments that are read as types: of a `PUSH` only the first. -/
def Micheline.Instruction.typeLiterals (i : Instruction) : List Expr :=
  if i.name == "PUSH" then i.literalArgs.take 1 else i.literalArgs

/-- The types that an instruction is given satisfy `T`. -/
def Admits (T : Ty → Prop) (i : Instruction) : Prop :=
  ∀ e ∈ i.typeLiterals, ∀ t, Ty.ofExpr e = .ok t → T t

namespace Closed

variable {P : Item → Prop} {T : Ty → Prop}

mutual

theorem ty_of_clean (closed : Closed P T) : ∀ t : Ty, t.mentions Ty.failName = false → T t
  | .unknown, _ => closed.unknown
  | .app name args, clean => by
    simp only [Ty.mentions, Bool.or_eq_false_iff, beq_eq_false_iff_ne] at clean
    exact closed.app name args clean.1 (types_of_clean closed args clean.2)

theorem types_of_clean (closed : Closed P T) :
    ∀ ts : List Ty, Ty.anyMentions Ty.failName ts = false → ∀ t ∈ ts, T t
  | [], _, _, member => by simp at member
  | t :: ts, clean, u, member => by
    simp only [Ty.anyMentions, Bool.or_eq_false_iff] at clean
    have first := ty_of_clean closed t clean.1
    have rest := types_of_clean closed ts clean.2
    rcases List.mem_cons.mp member with same | member
    · rw [same]
      exact first
    · exact rest u member

end

variable (closed : Closed P T)

include closed

theorem arg {t : Ty} (h : T t) (k : Int) : T (t.arg k) := by
  cases t with
  | unknown => exact closed.unknown
  | app name args =>
    simp only [Ty.arg]
    split
    · exact closed.unknown
    · rw [List.getD_eq_getElem?_getD]
      cases found : args[k.toNat]? with
      | none => exact closed.unknown
      | some t => exact closed.part name args h t (List.mem_of_getElem? found)

theorem option {t : Ty} (h : T t) : T (Ty.option t) :=
  closed.app _ _ (by decide) (by simpa using h)

theorem pair {t u : Ty} (ht : T t) (hu : T u) : T (Ty.pair t u) :=
  closed.app _ _ (by decide) (by simp [ht, hu])

theorem withAnnots {x : Item} (h : P x) (annots : List String) : P (x.withAnnots annots) := by
  cases x with
  | absent => exact h
  | node t as p l ops => exact closed.node _ _ _ _ _ (closed.ty _ h) (closed.operand _ h)

theorem annotate {x : Item} (h : P x) (i : Instruction) : P (annotate i x) := by
  unfold StackFlow.annotate
  split
  · exact h
  · exact closed.withAnnots h _

theorem withTy {x : Item} {t : Ty} (ht : T t) (h : P x) : P (x.withTy t) := by
  cases x with
  | absent => exact h
  | node u as p l ops => exact closed.node _ _ _ _ _ ht (closed.operand _ h)

theorem ofText {t : Ty} (h : T t) (s : String) : P (.ofText t s) :=
  closed.node _ _ _ _ _ h (by simp)

theorem getD {xs : List Item} (h : ∀ x ∈ xs, P x) (k : Nat) : P (xs.getD k .absent) := by
  rw [List.getD_eq_getElem?_getD]
  cases found : xs[k]? with
  | none => exact closed.absent
  | some x => exact h x (List.mem_of_getElem? found)

theorem headD {xs : List Item} (h : ∀ x ∈ xs, P x) : P (xs.headD .absent) := by
  cases xs with
  | nil => exact closed.absent
  | cons x xs => exact h x List.mem_cons_self

theorem operandTy {ops : List Item} (h : ∀ x ∈ ops, P x) (k : Nat) : T (operandTy ops k) :=
  closed.ty _ (closed.getD h k)

theorem project {x : Item} (h : P x) (name : String) (side : Side) :
    P (project x name side) := by
  unfold StackFlow.project
  split
  · exact closed.getD (closed.operand x h) _
  · exact closed.node _ _ _ _ _ (closed.arg (closed.ty x h) _) (by simpa using h)

end Closed

/-! ## Literals -/

theorem except_bind_ok {ε α β : Type} {a : Except ε α} {f : α → Except ε β} {y : β}
    (accepted : (a >>= f) = .ok y) : ∃ x, a = .ok x ∧ f x = .ok y := by
  cases a with
  | error e => cases accepted
  | ok x => exact ⟨x, rfl, accepted⟩

theorem mapError_ok {ε ε' α : Type} {f : ε → ε'} {x : Except ε α} {a : α}
    (read : x.mapError f = .ok a) : x = .ok a := by
  cases x with
  | error e => cases read
  | ok b => simpa [Except.mapError] using read

/-- What is needed of the two invariants for literals: no instruction makes them, and they are typed
from the outside in. -/
structure ClosedOnLiterals (P : Item → Prop) (T : Ty → Prop) : Prop where
  node : ∀ t literal ops, T t → (∀ x ∈ ops, P x) → P (.node t [] "" literal ops)
  arg : ∀ t k, T t → T (t.arg k)
  pair : ∀ t u, T t → T u → T (Ty.pair t u)

theorem ClosedOnLiterals.ofText {P : Item → Prop} {T : Ty → Prop} (closed : ClosedOnLiterals P T)
    {t : Ty} (h : T t) (s : String) : P (.ofText t s) :=
  closed.node _ _ _ h (by simp)

theorem Closed.onLiterals {P : Item → Prop} {T : Ty → Prop} (closed : Closed P T) :
    ClosedOnLiterals P T where
  node := fun _ _ _ type parts => closed.node _ _ _ _ _ type parts
  arg := fun _ k type => closed.arg type k
  pair := fun _ _ first second => closed.pair first second

section Literals

variable {P : Item → Prop} {T : Ty → Prop} (closed : ClosedOnLiterals P T)

include closed

mutual

/-- A literal has the type that it is given, and its parts have the parts of that type. -/
theorem ofValue_closed {t : Ty} (h : T t) : ∀ (e : Expr) {x : Item}, Item.ofValue t e = .ok x → P x
  | .int s, x, accepted => by
    simp only [Item.ofValue] at accepted
    split at accepted
    · cases accepted
      exact closed.node _ _ _ h (by simp)
    · contradiction
  | .string s, x, accepted => by
    cases accepted
    exact closed.ofText h s
  | .bytes s, x, accepted => by
    cases accepted
    exact closed.ofText h _
  | .seq items, x, accepted => by
    simp only [Item.ofValue] at accepted
    split at accepted
    · cases accepted
      exact closed.ofText h _
    · split at accepted
      · cases accepted
        exact closed.ofText h _
      · obtain ⟨xs, parts, accepted⟩ := except_bind_ok accepted
        cases accepted
        exact closed.node _ _ _ h (ofElements_closed h items parts)
  | .prim name annots args, x, accepted => by
    simp only [Item.ofValue] at accepted
    split at accepted
    · cases accepted
      exact closed.ofText h _
    · cases accepted
      exact closed.ofText h _
    · cases accepted
      exact closed.node _ _ _ h (by simp)
    · cases accepted
      exact closed.node _ _ _ h (by simp)
    · exact ofParts_closed h args accepted
    · exact ofTagged_closed h _ (closed.arg _ 0 h) args accepted
    · exact ofTagged_closed h _ (closed.arg _ 0 h) args accepted
    · exact ofTagged_closed h _ (closed.arg _ 1 h) args accepted
    · contradiction
termination_by e => sizeOf e

theorem ofParts_closed {t : Ty} (h : T t) :
    ∀ (es : List Expr) {x : Item}, Item.ofParts t es = .ok x → P x
  | [], x, accepted => by contradiction
  | [_], x, accepted => by contradiction
  | [a, b], x, accepted => by
    obtain ⟨left, hl, accepted⟩ := except_bind_ok accepted
    obtain ⟨right, hr, accepted⟩ := except_bind_ok accepted
    cases accepted
    have pl := ofValue_closed (closed.arg _ 0 h) a hl
    have pr := ofValue_closed (closed.arg _ 1 h) b hr
    exact closed.node _ _ _ h (by simp [pl, pr])
  | a :: b :: c :: rest, x, accepted => by
    obtain ⟨left, hl, accepted⟩ := except_bind_ok accepted
    obtain ⟨right, hr, accepted⟩ := except_bind_ok accepted
    cases accepted
    have pl := ofValue_closed (closed.arg _ 0 h) a hl
    have pr := ofParts_closed (closed.arg _ 1 h) (b :: c :: rest) hr
    exact closed.node _ _ _ h (by simp [pl, pr])
termination_by es => sizeOf es

theorem ofTagged_closed {t : Ty} (h : T t) (tag : String) {u : Ty} (hu : T u) :
    ∀ (es : List Expr) {x : Item}, Item.ofTagged t tag u es = .ok x → P x
  | [], x, accepted => by contradiction
  | [v], x, accepted => by
    obtain ⟨inner, hi, accepted⟩ := except_bind_ok accepted
    cases accepted
    have pi := ofValue_closed hu v hi
    exact closed.node _ _ _ h (by simp [pi])
  | _ :: _ :: _, x, accepted => by contradiction
termination_by es => sizeOf es

theorem ofElements_closed {t : Ty} (h : T t) :
    ∀ (es : List Expr) {xs : List Item}, Item.ofElements t es = .ok xs → ∀ x ∈ xs, P x
  | [], xs, accepted => by
    cases accepted
    simp
  | e :: es, xs, accepted => by
    unfold Item.ofElements at accepted
    split at accepted
    · contradiction
    · rename_i k v rest heq
      cases heq
      obtain ⟨key, hk, accepted⟩ := except_bind_ok accepted
      obtain ⟨value, hv, accepted⟩ := except_bind_ok accepted
      obtain ⟨others, ho, accepted⟩ := except_bind_ok accepted
      cases accepted
      have pk := ofValue_closed (closed.arg _ 0 h) k hk
      have pv := ofValue_closed (closed.arg _ 1 h) v hv
      have entry := closed.node _ (some (.text "Elt")) [key, value]
        (closed.pair _ _ (closed.arg _ 0 h) (closed.arg _ 1 h)) (by simp [pk, pv])
      simpa using ⟨entry, ofElements_closed h es ho⟩
    · rename_i heq
      cases heq
      obtain ⟨first, hf, accepted⟩ := except_bind_ok accepted
      obtain ⟨others, ho, accepted⟩ := except_bind_ok accepted
      cases accepted
      have pf := ofValue_closed (closed.arg _ 0 h) e hf
      simpa using ⟨pf, ofElements_closed h es ho⟩
termination_by es => sizeOf es

end

end Literals

/-! ## Types of results -/

theorem typeArg_known (i : Instruction) (k : Nat) (name : String) :
    typeArg i k ≠ .error (.unsupported name) := by
  unfold typeArg
  split
  · simp [throw, throwThe, MonadExceptOf.throw]
  · rename_i e _
    cases Ty.ofExpr e <;> simp [Except.mapError]

theorem typeArgs_known (i : Instruction) (n : Nat) (name : String) :
    typeArgs i n ≠ .error (.unsupported name) := by
  induction n with
  | zero => simp [typeArgs, pure, Except.pure]
  | succ n ih =>
    simp only [typeArgs, bind, Except.bind]
    have last := typeArg_known i n name
    split
    · rename_i e he
      rw [he] at ih
      simpa using ih
    · split
      · rename_i e he
        rw [he] at last
        simpa using last
      · simp [pure, Except.pure]

section Results

variable {P : Item → Prop} {T : Ty → Prop} (closed : Closed P T) {i : Instruction}

theorem typeArg_closed (given : ∀ e ∈ i.literalArgs, ∀ t, Ty.ofExpr e = .ok t → T t) {k : Nat}
    {t : Ty} (accepted : typeArg i k = .ok t) : T t := by
  unfold typeArg at accepted
  split at accepted
  · contradiction
  · rename_i e found
    exact given e (List.mem_of_getElem? found) t (mapError_ok accepted)

theorem typeArgs_closed (given : ∀ e ∈ i.literalArgs, ∀ t, Ty.ofExpr e = .ok t → T t) {n : Nat}
    {ts : List Ty} (accepted : typeArgs i n = .ok ts) : ∀ t ∈ ts, T t := by
  induction n generalizing ts with
  | zero =>
    cases accepted
    simp
  | succ n ih =>
    obtain ⟨before, hb, accepted⟩ := except_bind_ok accepted
    obtain ⟨last, hl, accepted⟩ := except_bind_ok accepted
    cases accepted
    intro t member
    rcases List.mem_append.mp member with member | member
    · exact ih hb t member
    · rw [List.mem_singleton.mp member]
      exact typeArg_closed given hl

/-- The type that a result has whatever the operands are. -/
def ResultTy.ownTypes : ResultTy → List Ty
  | .fixed t => [t]
  | _ => []

theorem compute_known (result : ResultTy) (ops : List Item) (name : String) :
    result.compute i ops ≠ .error (.unsupported name) := by
  have given := typeArg_known i 0 name
  cases result with
  | optionOfArg => cases h : typeArg i 0 <;> simp_all [ResultTy.compute, Functor.map, Except.map]
  | contractOfArg => cases h : typeArg i 0 <;> simp_all [ResultTy.compute, Functor.map, Except.map]
  | _ => simp [ResultTy.compute, pure, Except.pure]

include closed in
theorem compute_closed (given : ∀ e ∈ i.literalArgs, ∀ t, Ty.ofExpr e = .ok t → T t)
    {result : ResultTy} (own : ∀ t ∈ result.ownTypes, T t) {ops : List Item}
    (good : ∀ x ∈ ops, P x) {t : Ty} (accepted : result.compute i ops = .ok t) : T t := by
  have int : T Ty.int := closed.ty_of_clean _ (by decide)
  have nat : T Ty.nat := closed.ty_of_clean _ (by decide)
  have mutez : T Ty.mutez := closed.ty_of_clean _ (by decide)
  have timestamp : T Ty.timestamp := closed.ty_of_clean _ (by decide)
  cases result with
  | fixed t => cases accepted; exact own t (List.mem_singleton_self t)
  | sameAs k => cases accepted; exact closed.operandTy good k
  | optionOf k => cases accepted; exact closed.option (closed.operandTy good k)
  | additive =>
    cases accepted
    repeat' split
    all_goals assumption
  | multiplicative =>
    cases accepted
    repeat' split
    all_goals assumption
  | euclidean =>
    cases accepted
    apply closed.option
    repeat' split
    all_goals apply closed.pair <;> assumption
  | bitwiseAnd =>
    cases accepted
    split
    · exact nat
    · exact closed.operandTy good 0
  | mapValue => cases accepted; exact closed.option (closed.arg (closed.operandTy good 1) 1)
  | lambdaResult => cases accepted; exact closed.arg (closed.operandTy good 1) 1
  | optionOfArg =>
    cases read : typeArg i 0 with
    | error e => simp [ResultTy.compute, read, Functor.map, Except.map] at accepted
    | ok u =>
      simp only [ResultTy.compute, read, Functor.map, Except.map, Except.ok.injEq] at accepted
      subst accepted
      exact closed.option (typeArg_closed given read)
  | contractOfArg =>
    cases read : typeArg i 0 with
    | error e => simp [ResultTy.compute, read, Functor.map, Except.map] at accepted
    | ok u =>
      simp only [ResultTy.compute, read, Functor.map, Except.map, Except.ok.injEq] at accepted
      subst accepted
      have contract := closed.app "contract" [u] (by decide)
        (by simpa using typeArg_closed given read)
      exact closed.option contract

end Results

/-! ## The rules -/

/-- The types that a rule brings along; of a container only its name counts. -/
def Rule.ownTypes : Rule → List Ty
  | .read t _ => [t]
  | .operator _ result => result.ownTypes
  | .empty container _ _ => [.leaf container]
  | _ => []

theorem table_clean :
    ∀ entry ∈ Rule.table, ∀ t ∈ entry.2.ownTypes, t.mentions Ty.failName = false := by
  decide

theorem ofName?_mem {name : String} {r : Rule} (found : Rule.ofName? name = some r) :
    (name, r) ∈ Rule.table := by
  unfold Rule.ofName? at found
  generalize Rule.table = table at found ⊢
  induction table with
  | nil => cases found
  | cons entry rest ih =>
    obtain ⟨n, q⟩ := entry
    rw [List.lookup_cons] at found
    split at found
    · rename_i same
      cases Option.some.inj found
      rw [eq_of_beq same]
      exact List.mem_cons_self
    · exact List.mem_cons_of_mem _ (ih found)

def Rule.isPush : Rule → Bool
  | .push => true
  | _ => false

theorem table_push : ∀ entry ∈ Rule.table, entry.2.isPush = (entry.1 == "PUSH") := by
  decide

/-- Whether a rule keeps to the visible items. -/
def Rule.isPlain : Rule → Bool
  | .cursor | .failWith => false
  | _ => true

section Plain

variable {P : Item → Prop} {T : Ty → Prop} (closed : Closed P T) {i : Instruction}

theorem Admits.literals (admits : Admits T i) (other : i.name ≠ "PUSH") :
    ∀ e ∈ i.literalArgs, ∀ t, Ty.ofExpr e = .ok t → T t := by
  simpa [Admits, Instruction.typeLiterals, other] using admits

include closed

theorem runOperator_plain (given : ∀ e ∈ i.literalArgs, ∀ t, Ty.ofExpr e = .ok t → T t)
    {arity : Nat} {result : ResultTy} (own : ∀ t ∈ result.ownTypes, T t) :
    Plain P (fun _ => True) (Rule.runOperator i arity result) := by
  refine .bind (.pop arity) fun ops good => ?_
  refine .bind (Q := T) (.ofExcept ?_ (compute_known result ops)) fun t ht => .push ?_
  · exact fun t accepted => compute_closed closed given own good accepted
  · exact closed.annotate (closed.node _ _ _ _ _ ht good) i

theorem runPush_plain (admits : Admits T i) (name : i.name = "PUSH") :
    Plain P (fun _ => True) (Rule.runPush i) := by
  unfold Rule.runPush
  split
  · rename_i e v literals
    have given : ∀ t, Ty.ofExpr e = .ok t → T t := by
      simpa [Admits, Instruction.typeLiterals, name, literals] using admits
    refine .bind (Q := T) (.ofExcept ?_ ?_) fun t ht => ?_
    · intro t accepted
      exact given t (mapError_ok accepted)
    · cases Ty.ofExpr e <;> simp [Except.mapError]
    · refine .bind (Q := P) (.ofExcept ?_ ?_) fun x hx => .push (closed.annotate hx i)
      · intro x accepted
        exact ofValue_closed closed.onLiterals ht v (mapError_ok accepted)
      · cases Item.ofValue t v <;> simp [Except.mapError]
  · exact .throw (by simp)

theorem runLambda_plain (given : ∀ e ∈ i.literalArgs, ∀ t, Ty.ofExpr e = .ok t → T t) :
    Plain P (fun _ => True) (Rule.runLambda i) := by
  refine .bind (Q := T) (.ofExcept (fun _ => typeArg_closed given) (typeArg_known i 0)) ?_
  intro arg hArg
  refine .bind (Q := T) (.ofExcept (fun _ => typeArg_closed given) (typeArg_known i 1)) ?_
  intro ret hRet
  refine .push (closed.annotate (closed.ofText (closed.app _ _ (by decide) ?_) _) i)
  simp [hArg, hRet]

theorem runInject_plain (given : ∀ e ∈ i.literalArgs, ∀ t, Ty.ofExpr e = .ok t → T t)
    (side : Side) : Plain P (fun _ => True) (Rule.runInject i side) := by
  refine .bind (Q := T) (.ofExcept (fun _ => typeArg_closed given) (typeArg_known i 0)) ?_
  intro other hOther
  refine .bind (.pop 1) fun ops good => .push (closed.annotate ?_ i)
  have head := closed.headD good
  have type := closed.ty _ head
  have part := List.forall_mem_singleton.mpr head
  cases side with
  | left =>
    have args := List.forall_mem_cons.mpr ⟨type, List.forall_mem_singleton.mpr hOther⟩
    exact closed.node _ _ _ _ _ (closed.app _ _ (by decide) args) part
  | right =>
    have args := List.forall_mem_cons.mpr ⟨hOther, List.forall_mem_singleton.mpr type⟩
    exact closed.node _ _ _ _ _ (closed.app _ _ (by decide) args) part

/-- Every rule but the two that reach beyond the visible items is plain. -/
theorem run_plain (admits : Admits T i) {r : Rule} (found : Rule.ofName? i.name = some r)
    (plain : r.isPlain) : Plain P (fun _ => True) (r.run i) := by
  have entry := ofName?_mem found
  have own : ∀ t ∈ r.ownTypes, T t := fun t member =>
    closed.ty_of_clean t (table_clean _ entry t member)
  have pushes : r.isPush = (i.name == "PUSH") := table_push _ entry
  have given : r.isPush = false → ∀ e ∈ i.literalArgs, ∀ t, Ty.ofExpr e = .ok t → T t :=
    fun other => admits.literals (by simpa [other] using pushes.symm)
  cases r with
  | push => exact runPush_plain closed admits (eq_of_beq pushes.symm)
  | cursor => cases plain
  | failWith => cases plain
  | dup =>
    simp only [Rule.run]
    split
    · exact .bind (Q := fun _ => True) (.throw (by simp)) fun _ _ =>
        .bind (.peek _) fun x hx => .push hx
    · exact .bind (.peek _) fun x hx => .push hx
  | drop => exact .bind (.pop _) fun _ _ => .pure trivial
  | swap =>
    refine .bind (.pop 2) fun ops good => ?_
    exact .bind (.push (closed.getD good 0)) fun _ _ => .push (closed.getD good 1)
  | dig => exact .bind (.popAt _) fun x hx => .push hx
  | dug =>
    refine .depth (k := fun d => if d ≤ i.intArg 0 0 then _ else _) fun d => ?_
    split
    · exact .bind (Q := fun _ => True) (.underflow _) fun _ _ =>
        .bind (.popAt 0) fun x hx => .pushAt _ hx
    · exact .bind (.popAt 0) fun x hx => .pushAt _ hx
  | unit =>
    have unit : T Ty.unit := closed.ty_of_clean _ (by decide)
    exact .push (closed.annotate (closed.ofText unit _) i)
  | lambda => exact runLambda_plain closed (given rfl)
  | empty container arity literal =>
    refine .bind (Q := fun ts => ∀ t ∈ ts, T t)
      (.ofExcept (fun _ => typeArgs_closed (given rfl)) (typeArgs_known i arity)) fun ts hts => ?_
    have name : container ≠ Ty.failName := by
      have := table_clean _ entry (.leaf container) List.mem_cons_self
      simpa [Ty.mentions, Ty.anyMentions] using this
    exact .push (closed.annotate (closed.ofText (closed.app _ _ name hts) _) i)
  | read t field =>
    refine .env (k := fun e => Action.push
      (annotate i (.ofText t (field.read (e.getD Env.default))))) fun e => ?_
    exact .push (closed.annotate (closed.ofText (own t List.mem_cons_self) _) i)
  | project side =>
    refine .bind (.pop 1) fun ops good => .push (closed.annotate ?_ i)
    exact closed.project (closed.headD good) _ _
  | unpair =>
    refine .bind (.pop 1) fun ops good => ?_
    have head := closed.headD good
    exact .bind (.push (closed.project head _ _)) fun _ _ => .push (closed.project head _ _)
  | pair =>
    refine .bind (.pop 2) fun ops good => .push (closed.annotate ?_ i)
    have first := closed.getD good 0
    have second := closed.getD good 1
    have parts := List.forall_mem_cons.mpr ⟨first, List.forall_mem_singleton.mpr second⟩
    exact closed.node _ _ _ _ _ (closed.pair (closed.ty _ first) (closed.ty _ second)) parts
  | some =>
    refine .bind (.pop 1) fun ops good => .push (closed.annotate ?_ i)
    have head := closed.headD good
    exact closed.node _ _ _ _ _ (closed.option (closed.ty _ head)) (by simpa using head)
  | inject side => exact runInject_plain closed (given rfl) side
  | cast =>
    refine .bind (Q := T) (.ofExcept (fun _ => typeArg_closed (given rfl)) (typeArg_known i 0)) ?_
    intro t ht
    exact .bind (.peek 0) fun x hx => .replace 0 (closed.annotate (closed.withTy ht hx) i)
  | rename => exact .bind (.peek 0) fun x hx => .replace 0 (closed.withAnnots hx _)
  | operator arity result => exact runOperator_plain closed (given rfl) own
  | concat =>
    refine .bind (.peek 0) fun x hx => ?_
    split
    · refine runOperator_plain closed (given rfl) ?_
      simpa [ResultTy.ownTypes] using closed.arg (closed.ty x hx) 0
    · exact runOperator_plain closed (given rfl) (by simp [ResultTy.ownTypes])
  | createContract =>
    have address : T Ty.address := closed.ty_of_clean _ (by decide)
    have operation : T Ty.operation := closed.ty_of_clean _ (by decide)
    refine .bind (.pop 3) fun ops good => ?_
    refine .bind (.push (closed.node _ _ _ _ _ address good)) fun _ _ => ?_
    exact .push (closed.annotate (closed.node _ _ _ _ _ operation good) i)

end Plain

end StackFlow
