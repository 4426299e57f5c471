import Mathlib.Logic.Function.Iterate
import Mathlib.Logic.Relation
import StackFlow.Micheline.Sugar
import StackFlow.Proofs.Projections

/-!
Combs, the pairs of more than two parts. Types are folded once all parts are known, literals one part
at a time along the type. Main statement: neither the type nor the item that is denoted depends on
where a comb stands for nested pairs, refusals included, and both recursions end.
-/

namespace StackFlow

open Micheline (Expr)

/-- `RightNested name parts e`: the expression `e` pairs the last part with the one before it, and so
on to the first. -/
inductive RightNested (name : String) : List Expr → Expr → Prop where
  | last {e : Expr} : RightNested name [e] e
  | pair {annots : List String} {e nested : Expr} {rest : List Expr} :
      RightNested name rest nested → RightNested name (e :: rest) (.prim name annots [e, nested])

/-- Somewhere in a type, nested pairs take the place of a comb. -/
inductive Unfolds : Expr → Expr → Prop where
  | comb {annots : List String} {parts : List Expr} {e : Expr} :
      2 < parts.length → RightNested "pair" parts e → Unfolds (.prim "pair" annots parts) e
  | arg {name : String} {annots : List String} (before : List Expr) {after : List Expr} {e e' : Expr} :
      Unfolds e e' →
      Unfolds (.prim name annots (before ++ e :: after)) (.prim name annots (before ++ e' :: after))
  | item {before after : List Expr} {e e' : Expr} :
      Unfolds e e' → Unfolds (.seq (before ++ e :: after)) (.seq (before ++ e' :: after))

/-- The type at which one of the parts of a pair is read, by their number and its index. -/
def partTy : Ty → Nat → Nat → Ty
  | t, _ + 2, 0 => t.arg 0
  | t, 2, 1 => t.arg 1
  | t, n + 3, i + 1 => partTy (t.arg 1) (n + 2) i
  | _, _, _ => .unknown

/-- The type at which an argument of a data constructor is read, unknown where it is not read. -/
def argTy (t : Ty) (name : String) (count index : Nat) : Ty :=
  match name, count with
  | "Pair", _ => partTy t count index
  | "Left", 1 | "Some", 1 => t.arg 0
  | "Right", 1 => t.arg 1
  | _, _ => .unknown

/-- Somewhere in a literal of type `t`, nested pairs take the place of a comb. A sequence that is read
at the type of a function is code, which is kept as it is written. -/
inductive UnfoldsAt : Ty → Expr → Expr → Prop where
  | comb {t : Ty} {annots : List String} {parts : List Expr} {e : Expr} :
      2 < parts.length → RightNested "Pair" parts e → UnfoldsAt t (.prim "Pair" annots parts) e
  | arg {t : Ty} {name : String} {annots : List String} (before : List Expr) {after : List Expr}
      {e e' : Expr} :
      UnfoldsAt (argTy t name (before ++ e :: after).length before.length) e e' →
      UnfoldsAt t (.prim name annots (before ++ e :: after)) (.prim name annots (before ++ e' :: after))
  | element {t : Ty} {before after : List Expr} {e e' : Expr} :
      t.is "lambda" = false → isEntry e = false → UnfoldsAt (t.arg 0) e e' →
      UnfoldsAt t (.seq (before ++ e :: after)) (.seq (before ++ e' :: after))
  | key {t : Ty} {annots : List String} {before after : List Expr} {k k' v : Expr} :
      t.is "lambda" = false → UnfoldsAt (t.arg 0) k k' →
      UnfoldsAt t (.seq (before ++ .prim "Elt" annots [k, v] :: after))
        (.seq (before ++ .prim "Elt" annots [k', v] :: after))
  | value {t : Ty} {annots : List String} {before after : List Expr} {k v v' : Expr} :
      t.is "lambda" = false → UnfoldsAt (t.arg 1) v v' →
      UnfoldsAt t (.seq (before ++ .prim "Elt" annots [k, v] :: after))
        (.seq (before ++ .prim "Elt" annots [k, v'] :: after))

/-- What the type for an expression is made of, with the types for its arguments asked for. -/
def Ty.exprStep (ask : Expr → Except Expr.Kind Ty) : Expr → Except Expr.Kind Ty
  | .prim name _ args => Ty.ofParts name <$> args.mapM ask
  | e => throw e.kind

/-- The item for a pair, with the items for its two parts asked for. -/
def Item.pairStep (ask : Ty → Expr → Except LiteralError Item) (t : Ty) (first second : Expr) :
    Except LiteralError Item := do
  let left ← ask (t.arg 0) first
  let right ← ask (t.arg 1) second
  pure (.composite t none [left, right])

/-- The item for an element of a sequence, with those for its parts asked for. -/
def Item.elementStep (ask : Ty → Expr → Except LiteralError Item) (t : Ty) :
    Expr → Except LiteralError Item
  | .prim "Elt" _ [k, v] => do
    let key ← ask (t.arg 0) k
    let val ← ask (t.arg 1) v
    pure (.composite (Ty.pair (t.arg 0) (t.arg 1)) (some "Elt") [key, val])
  | e => ask (t.arg 0) e

/-- What the item for a literal is made of, with the items for its parts asked for. Of a comb, the
first part is asked for and the pair of all others. -/
def Item.valueStep (ask : Ty → Expr → Except LiteralError Item) (t : Ty) :
    Expr → Except LiteralError Item
  | .int s =>
    match Decimal.readInteger? s with
    | some n => pure (.ofLiteral t (.int n))
    | none => throw (.badInteger s)
  | .string s => pure (.ofText t s)
  | .bytes s => pure (.ofText t ("0x" ++ s))
  | .seq items =>
    if t.is "lambda" then pure (.ofText t (Expr.seq items).text)
    else if items.isEmpty then pure (.ofText t "\x7b\x7d")
    else do
      let parts ← items.mapM (Item.elementStep ask t)
      pure (.composite t none parts)
  | .prim name _ args =>
    match name, args with
    | "Unit", _ | "None", _ => pure (.ofText t name)
    | "True", _ => pure (.ofLiteral t (.bool true))
    | "False", _ => pure (.ofLiteral t (.bool false))
    | "Pair", [a, b] => Item.pairStep ask t a b
    | "Pair", a :: b :: c :: rest => Item.pairStep ask t a (.prim "Pair" [] (b :: c :: rest))
    | "Pair", parts => throw (.pairParts parts.length)
    | "Left", [v] | "Some", [v] => do
      let inner ← ask (t.arg 0) v
      pure (.composite t (some name) [inner])
    | "Right", [v] => do
      let inner ← ask (t.arg 1) v
      pure (.composite t (some name) [inner])
    | "Left", _ | "Some", _ | "Right", _ => throw (.needsOne name)
    | _, _ => throw (.unsupported name t)

theorem nested_parts {name : String} {parts : List Expr} {e : Expr}
    (nests : RightNested name parts e) : parts ≠ [] := by
  cases nests <;> exact nofun

/-! ## Types -/

section Types

variable {e e' : Expr} {parts : List Expr}

theorem comb_cons (t : Ty) {ts : List Ty} (more : ts ≠ []) :
    Ty.comb (t :: ts) = Ty.pair t (Ty.comb ts) := by
  cases ts with
  | nil => exact absurd rfl more
  | cons => rfl

theorem ofExprs_eq (es : List Expr) : Ty.ofExprs es = es.mapM Ty.ofExpr := by
  induction es with
  | nil => rfl
  | cons e es ih =>
    rw [List.mapM_cons, ← ih]
    rfl

theorem mapM_forall₂ {ε α β : Type} {f : α → Except ε β} {xs : List α} {ys : List β}
    (read : xs.mapM f = .ok ys) : List.Forall₂ (fun x y => f x = .ok y) xs ys := by
  induction xs generalizing ys with
  | nil =>
    cases read
    exact .nil
  | cons x xs ih =>
    rw [List.mapM_cons] at read
    obtain ⟨y, first, read⟩ := except_bind_ok read
    obtain ⟨rest, later, read⟩ := except_bind_ok read
    cases read
    exact .cons first (ih later)

theorem mapM_length {ε α β : Type} {f : α → Except ε β} {xs : List α} {ys : List β}
    (read : xs.mapM f = .ok ys) : ys.length = xs.length :=
  (mapM_forall₂ read).length_eq.symm

/-- Every element is read, and every result was read from an element. -/
theorem mapM_taken {ε α β : Type} {f : α → Except ε β} {xs : List α} {ys : List β}
    (read : xs.mapM f = .ok ys) :
    (∀ x ∈ xs, ∃ y ∈ ys, f x = .ok y) ∧ ∀ y ∈ ys, ∃ x ∈ xs, f x = .ok y := by
  have taken := mapM_forall₂ read
  clear read
  induction taken with
  | nil => simp
  | @cons x y xs ys first _ ih =>
    obtain ⟨left, right⟩ := ih
    refine ⟨List.forall_mem_cons.mpr ⟨⟨y, List.mem_cons_self, first⟩, ?_⟩,
      List.forall_mem_cons.mpr ⟨⟨x, List.mem_cons_self, first⟩, ?_⟩⟩
    · intro x' member
      obtain ⟨y', among, same⟩ := left x' member
      exact ⟨y', List.mem_cons_of_mem y among, same⟩
    · intro y' member
      obtain ⟨x', among, same⟩ := right y' member
      exact ⟨x', List.mem_cons_of_mem x among, same⟩

theorem mapM_congr {ε α β : Type} {f g : α → Except ε β} {xs : List α}
    (same : ∀ x ∈ xs, f x = g x) : xs.mapM f = xs.mapM g := by
  induction xs with
  | nil => rfl
  | cons x xs ih =>
    rw [List.mapM_cons, List.mapM_cons, same x List.mem_cons_self,
      ih fun y member => same y (List.mem_cons_of_mem x member)]

theorem mapM_middle {ε α β : Type} {f : α → Except ε β} (before after : List α) {x y : α}
    (same : f x = f y) : (before ++ x :: after).mapM f = (before ++ y :: after).mapM f := by
  rw [List.mapM_append, List.mapM_append, List.mapM_cons, List.mapM_cons, same]

theorem ofExpr_prim (name : String) (annots : List String) (args : List Expr) :
    Ty.ofExpr (.prim name annots args) = Ty.ofParts name <$> args.mapM Ty.ofExpr := by
  rw [Ty.ofExpr, ofExprs_eq]
  rfl

/-- Nested pairs denote what is folded from the types of all parts. -/
theorem ofExpr_nested (nests : RightNested "pair" parts e) :
    Ty.ofExpr e = Ty.comb <$> parts.mapM Ty.ofExpr := by
  induction nests with
  | @last e =>
    simp only [List.mapM_cons, List.mapM_nil]
    cases Ty.ofExpr e <;> rfl
  | @pair annots e nested rest inner ih =>
    rw [ofExpr_prim]
    simp only [List.mapM_cons, List.mapM_nil, ih]
    cases Ty.ofExpr e with
    | error k => rfl
    | ok t =>
      cases read : rest.mapM Ty.ofExpr with
      | error k => rfl
      | ok ts =>
        have more : ts ≠ [] := by
          rintro rfl
          exact nested_parts inner (List.length_eq_zero_iff.mp (mapM_length read).symm)
        exact congrArg Except.ok (comb_cons t more).symm

theorem unfolds_ofExpr (unfolds : Unfolds e e') : Ty.ofExpr e = Ty.ofExpr e' := by
  induction unfolds with
  | @comb annots parts e many nests =>
    rw [ofExpr_nested nests, ofExpr_prim]
    cases read : parts.mapM Ty.ofExpr with
    | error k => rfl
    | ok ts =>
      have many : 2 < ts.length := (mapM_length read).symm ▸ many
      change Except.ok (Ty.ofParts "pair" ts) = _
      rw [Ty.ofParts, if_pos (by simpa using many)]
      rfl
  | arg _ _ ih => rw [ofExpr_prim, ofExpr_prim, mapM_middle _ _ ih]
  | item => rfl

theorem exprStep_eq {ask : Expr → Except Expr.Kind Ty}
    (smaller : ∀ d, sizeOf d < sizeOf e → ask d = Ty.ofExpr d) : Ty.exprStep ask e = Ty.ofExpr e := by
  cases e with
  | prim name annots args =>
    rw [ofExpr_prim, Ty.exprStep]
    congr 1
    refine mapM_congr fun d member => smaller d ?_
    have := List.sizeOf_lt_of_mem member
    simp only [Expr.prim.sizeOf_spec]
    omega
  | int | string | bytes | seq => rfl

end Types

/-! ## Literals -/

section Literals

variable {t : Ty} {e e' : Expr} {parts : List Expr}

theorem ofValue_pair (t : Ty) (annots : List String) (args : List Expr) :
    Item.ofValue t (.prim "Pair" annots args) = Item.ofParts t args := rfl

/-- The item for nested pairs is that of the comb. -/
theorem ofValue_nested {a b : Expr} {rest : List Expr} (nests : RightNested "Pair" (a :: b :: rest) e) :
    Item.ofValue t e = Item.ofParts t (a :: b :: rest) := by
  induction rest generalizing t e a b with
  | nil =>
    obtain _ | inner := nests
    cases inner with
    | last => rfl
    | pair none => exact absurd rfl (nested_parts none)
  | cons c rest ih =>
    obtain _ | inner := nests
    rw [ofValue_pair, Item.ofParts, Item.ofParts, ih inner]

theorem ofParts_cons (t : Ty) (a : Expr) {rest : List Expr} (more : 1 < rest.length) :
    Item.ofParts t (a :: rest) = (do
      let left ← Item.ofValue (t.arg 0) a
      let right ← Item.ofParts (t.arg 1) rest
      pure (.composite t none [left, right])) := by
  match rest with
  | [] | [_] => exact absurd more (by simp)
  | b :: c :: rest => rfl

theorem partTy_succ (t : Ty) {n : Nat} (more : 1 < n) (i : Nat) :
    partTy t (n + 1) (i + 1) = partTy (t.arg 1) n i := by
  match n with
  | 0 | 1 => exact absurd more (by decide)
  | n + 2 => rw [partTy]

/-- The item for a pair depends on a part by the item that the part has where it is read. -/
theorem ofParts_middle (before after : List Expr) {t : Ty}
    (same : Item.ofValue (partTy t (before ++ e :: after).length before.length) e =
      Item.ofValue (partTy t (before ++ e :: after).length before.length) e') :
    Item.ofParts t (before ++ e :: after) = Item.ofParts t (before ++ e' :: after) := by
  induction before generalizing t with
  | nil =>
    match after with
    | [] => rfl
    | [b] | b :: c :: rest =>
      change Item.ofValue (t.arg 0) e = Item.ofValue (t.arg 0) e' at same
      simp only [List.nil_append, Item.ofParts, same]
  | cons a before ih =>
    by_cases more : 1 < (before ++ e :: after).length
    · have more' : 1 < (before ++ e' :: after).length := by simpa using more
      rw [List.cons_append, List.length_cons, List.length_cons, partTy_succ t more] at same
      rw [List.cons_append, List.cons_append, ofParts_cons t a more, ofParts_cons t a more', ih same]
    · have last : before = [] ∧ after = [] := by
        simp only [List.length_append, List.length_cons] at more
        exact ⟨List.length_eq_zero_iff.mp (by omega), List.length_eq_zero_iff.mp (by omega)⟩
      obtain ⟨rfl, rfl⟩ := last
      change Item.ofValue (t.arg 1) e = Item.ofValue (t.arg 1) e' at same
      simp only [List.cons_append, List.nil_append, Item.ofParts, same]

theorem ofTagged_middle (tag : String) (payload : Ty) (before after : List Expr)
    (same : (before ++ e :: after).length = 1 → Item.ofValue payload e = Item.ofValue payload e') :
    Item.ofTagged t tag payload (before ++ e :: after) =
      Item.ofTagged t tag payload (before ++ e' :: after) := by
  match before, after with
  | [], [] => simp only [List.nil_append, Item.ofTagged, same rfl]
  | [], _ :: _ | [_], _ | _ :: _ :: _, _ => rfl

/-- The item for a data constructor depends on an argument by the item that the argument has where it
is read. -/
theorem ofValue_middle (name : String) (annots : List String) (before after : List Expr)
    (same : Item.ofValue (argTy t name (before ++ e :: after).length before.length) e =
      Item.ofValue (argTy t name (before ++ e :: after).length before.length) e') :
    Item.ofValue t (.prim name annots (before ++ e :: after)) =
      Item.ofValue t (.prim name annots (before ++ e' :: after)) := by
  have payload (tag : String) (u : Ty)
      (read : (before ++ e :: after).length = 1 → argTy t name 1 before.length = u) :
      Item.ofTagged t tag u (before ++ e :: after) =
        Item.ofTagged t tag u (before ++ e' :: after) := by
    refine ofTagged_middle tag u before after fun one => ?_
    rw [one, read one] at same
    exact same
  simp only [Item.ofValue]
  split
  iterate 4 rfl
  · exact ofParts_middle before after same
  iterate 3 exact payload _ _ fun _ => rfl
  · rfl

theorem elementStep_other {ask : Ty → Expr → Except LiteralError Item} (other : isEntry e = false) :
    Item.elementStep ask t e = ask (t.arg 0) e := by
  unfold Item.elementStep
  split
  · cases other
  · rfl

theorem ofElements_eq (t : Ty) (es : List Expr) :
    Item.ofElements t es = es.mapM (Item.elementStep Item.ofValue t) := by
  induction es with
  | nil => rfl
  | cons e es ih =>
    rw [List.mapM_cons, ← ih, Item.ofElements.eq_def]
    split
    · rename_i none
      cases none
    · rename_i first
      cases first
      simp [Item.elementStep]
    · rename_i other first
      cases first
      rw [elementStep_other]
      unfold isEntry
      split
      · rename_i annots k v
        exact absurd rfl (other annots k v)
      · rfl

theorem ofValue_seq (t : Ty) (before after : List Expr) (code : t.is "lambda" = false) :
    Item.ofValue t (.seq (before ++ e :: after)) = (do
      let parts ← (before ++ e :: after).mapM (Item.elementStep Item.ofValue t)
      pure (.composite t none parts)) := by
  rw [Item.ofValue, if_neg (by simp [code]), if_neg (by simp), ofElements_eq]

/-- No entry of a map becomes one or ceases to be one. -/
theorem unfoldsAt_entry (unfolds : UnfoldsAt t e e') : isEntry e' = isEntry e := by
  cases unfolds with
  | @comb _ annots parts e many nests =>
    cases nests with
    | last => simp at many
    | pair => rfl
  | @arg _ name annots before after e e' =>
    match before, after with
    | [], [] | [_], [] | [], [_] | [], _ :: _ :: _ | [_], _ :: _ | _ :: _ :: _, _ =>
      unfold isEntry
      split <;> split <;> simp_all
  | element | key | value => rfl

theorem unfoldsAt_ofValue (unfolds : UnfoldsAt t e e') : Item.ofValue t e = Item.ofValue t e' := by
  induction unfolds with
  | @comb t annots parts e many nests =>
    match parts with
    | [] | [_] => simp at many
    | a :: b :: rest => exact (ofValue_nested nests).symm
  | @arg t name annots before after e e' _ ih => exact ofValue_middle name annots before after ih
  | @element t before after e e' code other unfolds ih =>
    have other' : isEntry e' = false := (unfoldsAt_entry unfolds).trans other
    rw [ofValue_seq t before after code, ofValue_seq t before after code, mapM_middle]
    rw [elementStep_other other, elementStep_other other', ih]
  | @key t annots before after k k' v code _ ih =>
    rw [ofValue_seq t before after code, ofValue_seq t before after code, mapM_middle]
    rw [Item.elementStep, Item.elementStep, ih]
  | @value t annots before after k v v' code _ ih =>
    rw [ofValue_seq t before after code, ofValue_seq t before after code, mapM_middle]
    rw [Item.elementStep, Item.elementStep, ih]

theorem elementStep_eq {ask : Ty → Expr → Except LiteralError Item}
    (smaller : ∀ u d, sizeOf d ≤ sizeOf e → ask u d = Item.ofValue u d) :
    Item.elementStep ask t e = Item.elementStep Item.ofValue t e := by
  unfold Item.elementStep
  split
  · rename_i annots k v
    rw [smaller _ k (by simp; omega), smaller _ v (by simp; omega)]
  · exact smaller _ e le_rfl

theorem ofTagged_single (t : Ty) (tag : String) (payload : Ty) (v : Expr) :
    Item.ofTagged t tag payload [v] = (do
      let inner ← Item.ofValue payload v
      pure (.composite t (some tag) [inner])) := rfl

theorem ofTagged_other (t : Ty) (tag : String) (payload : Ty) {args : List Expr}
    (other : ∀ v, args ≠ [v]) : Item.ofTagged t tag payload args = .error (.needsOne tag) := by
  match args with
  | [] | _ :: _ :: _ => rfl
  | [v] => exact absurd rfl (other v)

/-- The parts that are asked for are smaller than the literal, and so is what is left of a comb. -/
theorem valueStep_eq {ask : Ty → Expr → Except LiteralError Item}
    (smaller : ∀ u d, sizeOf d < sizeOf e → ask u d = Item.ofValue u d) :
    Item.valueStep ask t e = Item.ofValue t e := by
  cases e with
  | int | string | bytes => rfl
  | seq items =>
    have elements : items.mapM (Item.elementStep ask t) = Item.ofElements t items := by
      rw [ofElements_eq]
      refine mapM_congr fun d member => elementStep_eq fun u c below => smaller u c ?_
      have := List.sizeOf_lt_of_mem member
      simp only [Expr.seq.sizeOf_spec]
      omega
    rw [Item.valueStep, Item.ofValue, elements]
  | prim name annots args =>
    have part (u : Ty) {d : Expr} (member : d ∈ args) : ask u d = Item.ofValue u d := by
      refine smaller u d ?_
      have := List.sizeOf_lt_of_mem member
      simp only [Expr.prim.sizeOf_spec]
      omega
    simp only [Item.valueStep]
    split
    iterate 4 rfl
    · rename_i a b
      rw [ofValue_pair, Item.ofParts, Item.pairStep, part _ (by simp), part _ (by simp)]
    · rename_i a b c rest
      rw [ofValue_pair, Item.ofParts, Item.pairStep, part _ (by simp), smaller]
      · rfl
      · have blank : sizeOf ([] : List String) ≤ sizeOf annots := by
          cases annots with
          | nil => exact le_rfl
          | cons => simp; omega
        simp only [Expr.prim.sizeOf_spec, List.cons.sizeOf_spec]
        omega
    · rename_i two more
      rcases args with _ | ⟨a, _ | ⟨b, _ | ⟨c, rest⟩⟩⟩
      · rfl
      · rfl
      · exact absurd rfl (two a b)
      · exact absurd rfl (more a b c rest)
    iterate 3
      rename_i v
      simp only [Item.ofValue, ofTagged_single, part _ (List.mem_singleton_self v)]
    iterate 3
      rename_i other
      simp only [Item.ofValue]
      exact (ofTagged_other _ _ _ fun v same => other v same).symm
    · simp only [Item.ofValue]

end Literals

/-! ## Main statement -/

/-- A recursion that asks for what is smaller only has an end: once it is unfolded often enough, it
does not matter what the calls that are left would answer. -/
theorem iterate_agrees {A α : Type} [SizeOf α] {P : A → α → Prop} {step : A → A}
    (smaller : ∀ ask a, (∀ b, sizeOf b < sizeOf a → P ask b) → P (step ask) a) (a : α) :
    ∃ n, ∀ ask, P (step^[n] ask) a := by
  have enough (n : Nat) : ∀ a, sizeOf a < n → ∀ ask, P (step^[n] ask) a := by
    induction n with
    | zero => exact fun a below => absurd below (Nat.not_lt_zero _)
    | succ n ih =>
      intro a below ask
      rw [Function.iterate_succ_apply']
      exact smaller _ a fun b lower => ih b (by omega) ask
  exact ⟨sizeOf a + 1, enough _ a (Nat.lt_succ_self _)⟩

theorem eqvGen_eq {α β : Type} {r : α → α → Prop} {f : α → β} (one : ∀ a b, r a b → f a = f b)
    {a b : α} (related : Relation.EqvGen r a b) : f a = f b := by
  induction related with
  | rel a b related => exact one a b related
  | refl => rfl
  | symm _ _ _ ih => exact ih.symm
  | trans _ _ _ _ _ first second => exact first.trans second

/-- Types and literals that differ in combs only denote the same, or are refused for the same reason.
The recursion over a type ends, and so does the one that takes combs apart one part at a time: each
gives the answer within a number of nested calls that depends on the expression only. -/
theorem combs_are_notation :
    (∀ e e', Relation.EqvGen Unfolds e e' → Ty.ofExpr e = Ty.ofExpr e') ∧
    (∀ t v v', Relation.EqvGen (UnfoldsAt t) v v' → Item.ofValue t v = Item.ofValue t v') ∧
    (∀ e, ∃ n, ∀ ask, Ty.exprStep^[n] ask e = Ty.ofExpr e) ∧
    ∀ v, ∃ n, ∀ ask t, Item.valueStep^[n] ask t v = Item.ofValue t v := by
  refine ⟨fun _ _ => eqvGen_eq (f := Ty.ofExpr) fun _ _ => unfolds_ofExpr,
    fun t _ _ => eqvGen_eq (f := Item.ofValue t) fun _ _ => unfoldsAt_ofValue, ?_, ?_⟩
  · exact iterate_agrees (P := fun (ask : Expr → Except Expr.Kind Ty) e => ask e = Ty.ofExpr e)
      fun _ _ => exprStep_eq
  · exact iterate_agrees
      (P := fun (ask : Ty → Expr → Except LiteralError Item) v => ∀ t, ask t v = Item.ofValue t v)
      fun _ _ smaller t => valueStep_eq fun u d below => smaller d below u

section Nested

/-- A comb whose first part is an option. -/
def combedTy (inner : Expr) : Expr :=
  .apply "pair" [.apply "option" [inner], .apply "int" [], .apply "bytes" []]

def combedValue (inner : Expr) : Expr := .apply "Pair" [.apply "Some" [inner], .int "3", .bytes "00"]

/-- What the option holds: a comb, and the pairs for it. -/
def heldTy : Expr := .apply "pair" [.apply "int" [], .apply "nat" [], .apply "string" []]

def heldPairsTy : Expr :=
  .apply "pair" [.apply "int" [], .apply "pair" [.apply "nat" [], .apply "string" []]]

def held (amount : String) : Expr := .apply "Pair" [.int "1", .int amount, .string "a"]

def heldPairs (amount : String) : Expr :=
  .apply "Pair" [.int "1", .apply "Pair" [.int amount, .string "a"]]

def pairedTy : Expr := .apply "pair" [.apply "option" [heldPairsTy],
  .apply "pair" [.apply "int" [], .apply "bytes" []]]

def pairedValue (amount : String) : Expr := .apply "Pair" [.apply "Some" [heldPairs amount],
  .apply "Pair" [.int "3", .bytes "00"]]

theorem combedTy_unfolds : Relation.EqvGen Unfolds (combedTy heldTy) pairedTy := by
  refine .trans _ (combedTy heldPairsTy) _ (.rel _ _ ?_) (.rel _ _ ?_)
  · exact .arg [] (.arg [] (.comb (by decide) (.pair (.pair .last))))
  · exact .comb (by decide) (.pair (.pair .last))

theorem combedValue_unfolds (t : Ty) (amount : String) :
    Relation.EqvGen (UnfoldsAt t) (combedValue (held amount)) (pairedValue amount) := by
  refine .trans _ (combedValue (heldPairs amount)) _ (.rel _ _ ?_) (.rel _ _ ?_)
  · exact .arg [] (.arg [] (.comb (by simp) (.pair (.pair .last))))
  · exact .comb (by simp) (.pair (.pair .last))

/-- A comb inside of a comb is replaced together with it, in the type and in the literal; a part that
is no number is refused in either form. -/
theorem nested_combs_denote_alike : ∃ t, Ty.ofExpr (combedTy heldTy) = .ok t ∧
    Ty.ofExpr pairedTy = .ok t ∧
    (∃ x, Item.ofValue t (combedValue (held "2")) = .ok x ∧
      Item.ofValue t (pairedValue "2") = .ok x) ∧
    Item.ofValue t (combedValue (held "two")) = .error (.badInteger "two") ∧
    Item.ofValue t (pairedValue "two") = .error (.badInteger "two") := by
  obtain ⟨types, values, _⟩ := combs_are_notation
  have type := types _ _ combedTy_unfolds
  have value (t : Ty) (amount : String) := values t _ _ (combedValue_unfolds t amount)
  exact ⟨_, rfl, type ▸ rfl, ⟨_, rfl, value _ "2" ▸ rfl⟩, rfl, value _ "two" ▸ rfl⟩

end Nested

end StackFlow
