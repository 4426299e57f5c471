import StackFlow.Contract
import StackFlow.Proofs.Rules
import StackFlow.Proofs.Writing

/-!
The canonical form of code determines the code, as long as every operation has a name: parts that
are left out are told from others by their keys, and only an operation without a name would look
like a group. The reader of contracts accepts no operation without a name.
-/

namespace StackFlow

open Json (Value Fields)

namespace Json.Value

/-! ## Fields that may be left out -/

theorem head_unlessEmpty {key : String} {xs : List Value} {f : String × Value}
    (first : f ∈ (unlessEmpty key xs).head?) : f.1 = key := by
  unfold unlessEmpty at first
  split at first
  · cases first
  · cases first
    rfl

/-- A part in front that may be left out is told apart by its key. -/
theorem part_inj {α : Type} {e : α → Bool} {p : α → Value} {key : String} {x y : α}
    {rest rest' : Fields} (unique : e x = true → e y = true → x = y) (inj : p x = p y → x = y)
    (other : ∀ f ∈ rest.head?, f.1 ≠ key) (other' : ∀ f ∈ rest'.head?, f.1 ≠ key)
    (same : (if e x then [] else [(key, p x)]) ++ rest =
      (if e y then [] else [(key, p y)]) ++ rest') : x = y ∧ rest = rest' := by
  split at same
  · rename_i none
    split at same
    · rename_i none'
      exact ⟨unique none none', same⟩
    · have first : rest = (key, p y) :: rest' := same
      exact absurd rfl (other (key, p y) (by simp [first]))
  · split at same
    · have first : (key, p x) :: rest = rest' := same
      exact absurd rfl (other' (key, p x) (by simp [← first]))
    · simp only [List.cons_append, List.nil_append, List.cons.injEq, Prod.mk.injEq,
        true_and] at same
      exact ⟨inj same.1, same.2⟩

theorem unlessBlank_inj {key s s' : String} {rest rest' : Fields}
    (other : ∀ f ∈ rest.head?, f.1 ≠ key) (other' : ∀ f ∈ rest'.head?, f.1 ≠ key)
    (same : unlessBlank key s ++ rest = unlessBlank key s' ++ rest') : s = s' ∧ rest = rest' :=
  part_inj (fun blank blank' => by simp_all) Value.str.inj other other' same

theorem unlessEmpty_inj {key : String} {xs xs' : List Value} {rest rest' : Fields}
    (other : ∀ f ∈ rest.head?, f.1 ≠ key) (other' : ∀ f ∈ rest'.head?, f.1 ≠ key)
    (same : unlessEmpty key xs ++ rest = unlessEmpty key xs' ++ rest') : xs = xs' ∧ rest = rest' :=
  part_inj (fun empty empty' => by simp_all) Value.arr.inj other other' same

theorem lastText_inj {key s s' : String} (same : unlessBlank key s = unlessBlank key s') :
    s = s' := by
  rw [← List.append_nil (unlessBlank key s), ← List.append_nil (unlessBlank key s')] at same
  exact (unlessBlank_inj (by simp) (by simp) same).1

theorem lastList_inj {key : String} {xs xs' : List Value}
    (same : unlessEmpty key xs = unlessEmpty key xs') : xs = xs' := by
  rw [← List.append_nil (unlessEmpty key xs), ← List.append_nil (unlessEmpty key xs')] at same
  exact (unlessEmpty_inj (by simp) (by simp) same).1

/-- A name, annotations and arguments, each of which may be left out. -/
theorem parts_inj {name name' : String} {annots annots' : List String} {args args' : List Value}
    (same : unlessBlank "prim" name ++ unlessEmpty "annots" (annots.map .str) ++
        unlessEmpty "args" args =
      unlessBlank "prim" name' ++ unlessEmpty "annots" (annots'.map .str) ++
        unlessEmpty "args" args') :
    name = name' ∧ annots = annots' ∧ args = args' := by
  have behind (annots args : List Value) :
      ∀ f ∈ (unlessEmpty "annots" annots ++ unlessEmpty "args" args).head?, f.1 ≠ "prim" := by
    intro f first
    rw [List.head?_append] at first
    rcases Option.or_eq_some_iff.mp first with first | ⟨_, first⟩
    · simp [head_unlessEmpty first]
    · simp [head_unlessEmpty first]
  have last (args : List Value) : ∀ f ∈ (unlessEmpty "args" args).head?, f.1 ≠ "annots" := by
    intro f first
    simp [head_unlessEmpty first]
  rw [List.append_assoc, List.append_assoc] at same
  obtain ⟨names, same⟩ := unlessBlank_inj (behind _ _) (behind _ _) same
  obtain ⟨annotations, same⟩ := unlessEmpty_inj (last _) (last _) same
  have strings := (List.map_inj_right fun _ _ => Value.str.inj).mp annotations
  exact ⟨names, strings, lastList_inj same⟩

end Json.Value

namespace Micheline

open Json.Value

/-! ## Payloads -/

theorem kind_of_toJson {e e' : Expr} (same : e.toJson = e'.toJson) : e.kind = e'.kind := by
  have code : ∀ k k' : Expr.Kind, Value.ofNat k.code = Value.ofNat k'.code → k = k' := by
    intro k k' numbers
    have texts := Value.num.inj numbers
    revert texts
    cases k <;> cases k' <;> decide
  have first (e : Expr) : ∃ rest, e.toJson = .obj (("kind", Value.ofNat e.kind.code) :: rest) := by
    cases e <;> exact ⟨_, rfl⟩
  obtain ⟨rest, json⟩ := first e
  obtain ⟨rest', json'⟩ := first e'
  rw [json, json'] at same
  exact code _ _ (Prod.mk.inj (List.cons.inj (Value.obj.inj same)).1).2

mutual

theorem Expr.toJson_inj : ∀ e e' : Expr, e.toJson = e'.toJson → e = e'
  | e, e', same => by
    have kinds := kind_of_toJson same
    cases e with
    | int t =>
      cases e' with
      | int t' => rw [lastText_inj (List.cons.inj (Value.obj.inj same)).2]
      | string | bytes | seq | prim => cases kinds
    | string t =>
      cases e' with
      | string t' => rw [lastText_inj (List.cons.inj (Value.obj.inj same)).2]
      | int | bytes | seq | prim => cases kinds
    | bytes t =>
      cases e' with
      | bytes t' => rw [lastText_inj (List.cons.inj (Value.obj.inj same)).2]
      | int | string | seq | prim => cases kinds
    | seq items =>
      cases e' with
      | seq items' =>
        rw [exprsToJson_inj items items' (lastList_inj (List.cons.inj (Value.obj.inj same)).2)]
      | int | string | bytes | prim => cases kinds
    | prim name annots args =>
      cases e' with
      | prim name' annots' args' =>
        obtain ⟨rfl, rfl, lists⟩ := parts_inj (List.cons.inj (Value.obj.inj same)).2
        rw [exprsToJson_inj args args' lists]
      | int | string | bytes | seq => cases kinds

theorem exprsToJson_inj : ∀ es es' : List Expr, exprsToJson es = exprsToJson es' → es = es'
  | [], [], _ => rfl
  | [], _ :: _, same => by cases same
  | _ :: _, [], same => by cases same
  | e :: es, e' :: es', same => by
    rw [Expr.toJson_inj e e' (List.cons.inj same).1, exprsToJson_inj es es' (List.cons.inj same).2]

end

/-! ## Code -/

mutual

/-- Whether an operation and all operations in it have names. -/
def Instruction.isNamed : Instruction → Bool
  | .op name _ args => name != "" && argsNamed args
  | .group body => codeNamed body

def argsNamed : List Arg → Bool
  | [] => true
  | .literal _ :: as => argsNamed as
  | .code body :: as => codeNamed body && argsNamed as

def codeNamed : List Instruction → Bool
  | [] => true
  | i :: is => i.isNamed && codeNamed is

end

theorem op_ne_group {name : String} {annots : List String} {args : List Arg} {body : Code}
    (named : name ≠ "") :
    (Instruction.op name annots args).toJson ≠ (Instruction.group body).toJson := by
  intro same
  have fields := Value.obj.inj same
  have named : unlessBlank "prim" name = [("prim", .str name)] := by simp [unlessBlank, named]
  rw [named, List.append_assoc] at fields
  have key : "prim" = "body" := head_unlessEmpty (congrArg List.head? fields).symm
  exact absurd key (by decide)

mutual

theorem Instruction.toJson_inj : ∀ i i' : Instruction, i.isNamed = true → i'.isNamed = true →
    i.toJson = i'.toJson → i = i'
  | .op name annots args, .op name' annots' args', named, named', same => by
    simp only [Instruction.isNamed, Bool.and_eq_true] at named named'
    obtain ⟨rfl, rfl, lists⟩ := parts_inj (Value.obj.inj same)
    rw [argsToJson_inj args args' named.2 named'.2 lists]
  | .op _ _ _, .group _, named, _, same => by
    simp only [Instruction.isNamed, Bool.and_eq_true, bne_iff_ne] at named
    exact absurd same (op_ne_group named.1)
  | .group _, .op _ _ _, _, named, same => by
    simp only [Instruction.isNamed, Bool.and_eq_true, bne_iff_ne] at named
    exact absurd same.symm (op_ne_group named.1)
  | .group body, .group body', named, named', same => by
    rw [codeToJson_inj body body' named named' (lastList_inj (Value.obj.inj same))]

theorem argsToJson_inj : ∀ as as' : List Arg, argsNamed as = true → argsNamed as' = true →
    argsToJson as = argsToJson as' → as = as'
  | [], [], _, _, _ => rfl
  | [], .literal _ :: _, _, _, same => by cases same
  | [], .code _ :: _, _, _, same => by cases same
  | .literal _ :: _, [], _, _, same => by cases same
  | .code _ :: _, [], _, _, same => by cases same
  | .literal e :: as, .literal e' :: as', named, named', same => by
    have head := (List.cons.inj same).1
    simp only [Value.obj.injEq, List.cons.injEq, Prod.mk.injEq, true_and, and_true] at head
    rw [Expr.toJson_inj e e' head, argsToJson_inj as as' named named' (List.cons.inj same).2]
  | .literal _ :: _, .code _ :: _, _, _, same => by
    have fields := Value.obj.inj (List.cons.inj same).1
    have key : "expr" = "code" := head_unlessEmpty (congrArg List.head? fields).symm
    exact absurd key (by decide)
  | .code _ :: _, .literal _ :: _, _, _, same => by
    have fields := Value.obj.inj (List.cons.inj same).1
    have key : "expr" = "code" := head_unlessEmpty (congrArg List.head? fields)
    exact absurd key (by decide)
  | .code body :: as, .code body' :: as', named, named', same => by
    simp only [argsNamed, Bool.and_eq_true] at named named'
    have bodies := lastList_inj (Value.obj.inj (List.cons.inj same).1)
    rw [codeToJson_inj body body' named.1 named'.1 bodies,
      argsToJson_inj as as' named.2 named'.2 (List.cons.inj same).2]

theorem codeToJson_inj : ∀ is is' : List Instruction, codeNamed is = true → codeNamed is' = true →
    codeToJson is = codeToJson is' → is = is'
  | [], [], _, _, _ => rfl
  | [], _ :: _, _, _, same => by cases same
  | _ :: _, [], _, _, same => by cases same
  | i :: is, i' :: is', named, named', same => by
    simp only [codeNamed, Bool.and_eq_true] at named named'
    rw [Instruction.toJson_inj i i' named.1 named'.1 (List.cons.inj same).1,
      codeToJson_inj is is' named.2 named'.2 (List.cons.inj same).2]

end

/-! ## Numbers in canonical forms -/

@[simp] theorem tidyFields_append (fs gs : Fields) :
    Json.tidyFields (fs ++ gs) = (Json.tidyFields fs && Json.tidyFields gs) := by
  induction fs with
  | nil => simp [Json.tidyFields]
  | cons f fs ih => simp [Json.tidyFields, ih, Bool.and_assoc]

@[simp] theorem tidy_unlessBlank (key s : String) : Json.tidyFields (unlessBlank key s) = true := by
  unfold unlessBlank
  split <;> rfl

@[simp] theorem tidy_unlessEmpty {key : String} {xs : List Value}
    (tidy : Json.tidyItems xs = true) :
    Json.tidyFields (unlessEmpty key xs) = true := by
  unfold unlessEmpty
  split
  · rfl
  · simp [Json.tidyFields, Value.isTidy, tidy]

@[simp] theorem tidy_strings (xs : List String) : Json.tidyItems (xs.map Value.str) = true := by
  induction xs with
  | nil => rfl
  | cons x xs ih => simp [Json.tidyItems, Value.isTidy, ih]

@[simp] theorem tidy_kind (k : Expr.Kind) : (Value.ofNat k.code).isTidy = true := by
  cases k <;> decide

mutual

theorem Expr.toJson_tidy : ∀ e : Expr, e.toJson.isTidy = true
  | .int _ => by simp [Expr.toJson, Value.isTidy, Json.tidyFields]
  | .string _ => by simp [Expr.toJson, Value.isTidy, Json.tidyFields]
  | .bytes _ => by simp [Expr.toJson, Value.isTidy, Json.tidyFields]
  | .seq items => by simp [Expr.toJson, Value.isTidy, Json.tidyFields, exprsToJson_tidy items]
  | .prim _ _ args => by simp [Expr.toJson, Value.isTidy, Json.tidyFields, exprsToJson_tidy args]

theorem exprsToJson_tidy : ∀ es : List Expr, Json.tidyItems (exprsToJson es) = true
  | [] => rfl
  | e :: es => by simp [exprsToJson, Json.tidyItems, Expr.toJson_tidy e, exprsToJson_tidy es]

end

mutual

theorem Instruction.toJson_tidy : ∀ i : Instruction, i.toJson.isTidy = true
  | .op _ _ args => by simp [Instruction.toJson, Value.isTidy, argsToJson_tidy args]
  | .group body => by simp [Instruction.toJson, Value.isTidy, codeToJson_tidy body]

theorem argsToJson_tidy : ∀ as : List Arg, Json.tidyItems (argsToJson as) = true
  | [] => rfl
  | .literal e :: as => by
    simp [argsToJson, Json.tidyItems, Value.isTidy, Json.tidyFields, Expr.toJson_tidy e,
      argsToJson_tidy as]
  | .code body :: as => by
    simp [argsToJson, Json.tidyItems, Value.isTidy, codeToJson_tidy body, argsToJson_tidy as]

theorem codeToJson_tidy : ∀ is : List Instruction, Json.tidyItems (codeToJson is) = true
  | [] => rfl
  | i :: is => by simp [codeToJson, Json.tidyItems, Instruction.toJson_tidy i, codeToJson_tidy is]

end

/-! ## Code that was read -/

mutual

/-- The reader accepts no operation without a name. -/
theorem decodeInstruction_named (v : Value) {i : Instruction} (read : decodeInstruction v = .ok i) :
    i.isNamed = true := by
  rw [decodeInstruction.eq_def] at read
  split at read
  · rename_i items
    obtain ⟨body, decoded, last⟩ := except_bind_ok read
    cases last
    exact decodeCode_named items decoded
  · split at read
    · cases read
    · rename_i n found
      split at read
      · cases read
      · rename_i named
        obtain ⟨args, decoded, last⟩ := except_bind_ok read
        cases last
        have smaller := Node.sizeOf_args found named
        simp [Instruction.isNamed, named, decodeArgs_named n.prim n.args (mapError_ok decoded)]
termination_by sizeOf v

theorem decodeCode_named (vs : List Value) {is : Code} (read : decodeCode vs = .ok is) :
    codeNamed is = true := by
  rw [decodeCode.eq_def] at read
  split at read
  · cases read
    rfl
  · rename_i v vs
    obtain ⟨i, first, read⟩ := except_bind_ok read
    obtain ⟨is, others, last⟩ := except_bind_ok read
    cases last
    simp [codeNamed, decodeInstruction_named v first, decodeCode_named vs others]
termination_by sizeOf vs

theorem decodeArgs_named (name : String) (vs : List Value) {as : List Arg}
    (read : decodeArgs name vs = .ok as) : argsNamed as = true := by
  rw [decodeArgs.eq_def] at read
  split at read
  · cases read
    rfl
  · rename_i items vs
    split at read
    · obtain ⟨e, _, read⟩ := except_bind_ok read
      obtain ⟨as, others, last⟩ := except_bind_ok read
      cases last
      simp [argsNamed, decodeArgs_named name vs others]
    · obtain ⟨body, first, read⟩ := except_bind_ok read
      obtain ⟨as, others, last⟩ := except_bind_ok read
      cases last
      simp [argsNamed, decodeCode_named items first, decodeArgs_named name vs others]
  · rename_i v vs _
    obtain ⟨e, _, read⟩ := except_bind_ok read
    obtain ⟨as, others, last⟩ := except_bind_ok read
    cases last
    simp [argsNamed, decodeArgs_named name vs others]
termination_by sizeOf vs

end

theorem code_ofValue_named {v : Value} {code : Code} (read : Code.ofValue v = .ok code) :
    codeNamed code = true := by
  unfold Code.ofValue at read
  cases decoded : decodeInstruction v with
  | error e => simp [decoded] at read
  | ok i =>
    rw [decoded] at read
    cases read
    have named := decodeInstruction_named v decoded
    unfold codeOf
    cases i with
    | op name annots args =>
      simp only [Instruction.isNamed, Bool.and_eq_true, bne_iff_ne] at named
      simp [Instruction.isGroup, Instruction.name, named, codeNamed, Instruction.isNamed]
    | group body => exact named

end Micheline

end StackFlow
