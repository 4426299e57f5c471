import Mathlib
import StackFlow.Contract
import StackFlow.Proofs.Rules

/-!
The JSON form in which contracts are written. Arrays are groups, arguments that are code, and data,
told apart by where they stand; objects are instructions, payloads and sections. Main statement: code
and contracts are read back from every value that encodes them.
-/

namespace StackFlow

open Json (Value Fields)

/-- A key stands for one value. -/
def Json.Fields.Holds (fields : Fields) (key : String) (v : Value) : Prop :=
  ∀ w, (key, w) ∈ fields ↔ w = v

namespace Micheline

/-! ## Encodings -/

/-- The fields of a name with annotations and arguments, in any order; what is empty is left out. -/
def NodeFields (name : String) (annots : List String) (args : List Value) (fields : Fields) : Prop :=
  fields.Perm (("prim", .str name) :: (Value.unlessEmpty "annots" (annots.map .str) ++
    Value.unlessEmpty "args" args))

mutual

inductive EncodesExpr : Expr → Value → Prop where
  | int {t : String} : EncodesExpr (.int t) (.obj [("int", .str t)])
  | string {t : String} : EncodesExpr (.string t) (.obj [("string", .str t)])
  | bytes {t : String} : EncodesExpr (.bytes t) (.obj [("bytes", .str t)])
  | seq {es : List Expr} {vs : List Value} : EncodesExprs es vs → EncodesExpr (.seq es) (.arr vs)
  | prim {name : String} {annots : List String} {args : List Expr} {vs : List Value}
      {fields : Fields} : EncodesExprs args vs → NodeFields name annots vs fields →
      EncodesExpr (.prim name annots args) (.obj fields)

inductive EncodesExprs : List Expr → List Value → Prop where
  | nil : EncodesExprs [] []
  | cons {e : Expr} {es : List Expr} {v : Value} {vs : List Value} :
      EncodesExpr e v → EncodesExprs es vs → EncodesExprs (e :: es) (v :: vs)

end

mutual

inductive EncodesInstruction : Instruction → Value → Prop where
  | group {body : Code} {vs : List Value} :
      EncodesCode body vs → EncodesInstruction (.group body) (.arr vs)
  | op {name : String} {annots : List String} {args : List Arg} {vs : List Value}
      {fields : Fields} : EncodesArgs args vs → NodeFields name annots vs fields →
      EncodesInstruction (.op name annots args) (.obj fields)

inductive EncodesCode : Code → List Value → Prop where
  | nil : EncodesCode [] []
  | cons {i : Instruction} {is : Code} {v : Value} {vs : List Value} :
      EncodesInstruction i v → EncodesCode is vs → EncodesCode (i :: is) (v :: vs)

inductive EncodesArgs : List Arg → List Value → Prop where
  | nil : EncodesArgs [] []
  | literal {e : Expr} {as : List Arg} {v : Value} {vs : List Value} :
      EncodesExpr e v → EncodesArgs as vs → EncodesArgs (.literal e :: as) (v :: vs)
  | code {body : Code} {as : List Arg} {ws vs : List Value} :
      EncodesCode body ws → EncodesArgs as vs → EncodesArgs (.code body :: as) (.arr ws :: vs)

end

mutual

/-- Every type and every data constructor in the payload has a name. -/
def Expr.isNamed : Expr → Bool
  | .prim name _ args => name != "" && Expr.areNamed args
  | .seq items => Expr.areNamed items
  | _ => true

def Expr.areNamed : List Expr → Bool
  | [] => true
  | e :: es => e.isNamed && Expr.areNamed es

end

mutual

/-- Operations have names, and an array among the arguments of one tells by the name whether it is
data: under `PUSH` it always is, elsewhere never. -/
def Instruction.isEncodable : Instruction → Bool
  | .group body => areEncodable body
  | .op name _ args => name != "" && argsEncodable name args

def areEncodable : List Instruction → Bool
  | [] => true
  | i :: is => i.isEncodable && areEncodable is

def argsEncodable (name : String) : List Arg → Bool
  | [] => true
  | .literal e :: as => (name == "PUSH" || e.kind != .seq) && e.isNamed && argsEncodable name as
  | .code body :: as => name != "PUSH" && areEncodable body && argsEncodable name as

end

section Encodable

variable {name : String} {annots : List String} {e : Expr} {es : List Expr} {i : Instruction}
  {is body : Code} {as : List Arg}

theorem isNamed_prim :
    (Expr.prim name annots es).isNamed = true ↔ name ≠ "" ∧ Expr.areNamed es = true := by
  simp [Expr.isNamed]

theorem areNamed_cons :
    Expr.areNamed (e :: es) = true ↔ e.isNamed = true ∧ Expr.areNamed es = true := by
  simp [Expr.areNamed]

theorem isEncodable_op :
    (Instruction.op name annots as).isEncodable = true ↔
      name ≠ "" ∧ argsEncodable name as = true := by
  simp [Instruction.isEncodable]

theorem areEncodable_cons :
    areEncodable (i :: is) = true ↔ i.isEncodable = true ∧ areEncodable is = true := by
  simp [areEncodable]

theorem argsEncodable_literal :
    argsEncodable name (.literal e :: as) = true ↔
      (name = "PUSH" ∨ e.kind ≠ .seq) ∧ e.isNamed = true ∧ argsEncodable name as = true := by
  simp [argsEncodable, and_assoc]

theorem argsEncodable_code :
    argsEncodable name (.code body :: as) = true ↔
      name ≠ "PUSH" ∧ areEncodable body = true ∧ argsEncodable name as = true := by
  simp [argsEncodable, and_assoc]

end Encodable

/-! ## Objects -/

section Fields

variable {fields : Fields} {name key : String} {annots : List String} {args : List Value} {v : Value}

theorem find_held (held : fields.Holds key v) :
    fields.find? (·.1 == key) = some (key, v) := by
  have found : (fields.find? (·.1 == key)).isSome :=
    List.find?_isSome.mpr ⟨_, (held v).mpr rfl, beq_self_eq_true key⟩
  obtain ⟨⟨k, w⟩, first⟩ := Option.isSome_iff_exists.mp found
  have same := List.find?_some first
  obtain rfl : k = key := eq_of_beq same
  rw [first, (held w).mp (List.mem_of_find?_eq_some first)]

theorem lookup_held (held : fields.Holds key v) : Node.lookup fields key = some v := by
  rw [Node.lookup, find_held held]
  rfl

theorem lookup_missing (missing : ∀ f ∈ fields, f.1 ≠ key ∧ Text.foldsTo f.1 key = false) :
    Node.lookup fields key = none := by
  have exact : fields.find? (·.1 == key) = none :=
    List.find?_eq_none.mpr fun f member => by simpa using (missing f member).1
  have folded : (fields.find? fun f => Text.foldsTo f.1 key) = none :=
    List.find?_eq_none.mpr fun f member => by simpa using (missing f member).2
  rw [Node.lookup, exact, folded]
  rfl

theorem mem_unlessEmpty {xs : List Value} {f : String × Value} :
    f ∈ Value.unlessEmpty key xs ↔ xs ≠ [] ∧ f = (key, .arr xs) := by
  unfold Value.unlessEmpty
  cases xs <;> simp

theorem mem_fields (encoded : NodeFields name annots args fields) {f : String × Value} :
    f ∈ fields ↔ f = ("prim", .str name) ∨ (annots ≠ [] ∧ f = ("annots", .arr (annots.map .str))) ∨
      (args ≠ [] ∧ f = ("args", .arr args)) := by
  rw [encoded.mem_iff]
  simp [mem_unlessEmpty]

theorem annots_encoded (annots : List String) : Node.annots? (annots.map .str) = some annots := by
  induction annots with
  | nil => rfl
  | cons a rest ih => simp [Node.annots?, Node.textOf?, ih]

/-- No key of a named object is another spelling of a key that it may lack. -/
theorem keys_apart : ∀ k ∈ ["prim", "annots", "args"],
    ∀ key ∈ ["annots", "args", "int", "string", "bytes"], k ≠ key → Text.foldsTo k key = false := by
  decide

theorem key_absent (encoded : NodeFields name annots args fields)
    (known : key ∈ ["annots", "args", "int", "string", "bytes"])
    (absent : ∀ w, (key, w) ∉ fields) : Node.lookup fields key = none := by
  refine lookup_missing fun f member => ?_
  have other : f.1 ≠ key := by
    rintro rfl
    exact absent f.2 member
  refine ⟨other, keys_apart f.1 ?_ key known other⟩
  rcases (mem_fields encoded).mp member with rfl | ⟨_, rfl⟩ | ⟨_, rfl⟩ <;> simp

theorem list_encoded (encoded : NodeFields name annots args fields) {items : List Value}
    (known : key ∈ ["annots", "args", "int", "string", "bytes"])
    (under : ∀ w, (key, w) ∈ fields ↔ items ≠ [] ∧ w = .arr items) :
    Node.list? fields key = some items := by
  by_cases empty : items = []
  · have absent : ∀ w, (key, w) ∉ fields := fun w member => ((under w).mp member).1 empty
    rw [Node.list?, key_absent encoded known absent, empty]
  · have held : fields.Holds key (.arr items) := fun w => by simp [under, empty]
    rw [Node.list?, lookup_held held]

theorem text_absent (encoded : NodeFields name annots args fields)
    (known : key ∈ ["int", "string", "bytes"]) : Node.text? fields key = some none := by
  have absent : ∀ w, (key, w) ∉ fields := by
    intro w member
    rcases (mem_fields encoded).mp member with same | ⟨_, same⟩ | ⟨_, same⟩ <;>
      cases same <;> simp at known
  rw [Node.text?, key_absent encoded (by simp_all) absent]

/-- The parts of a named object are the name, the annotations and the arguments. -/
theorem node_encoded (encoded : NodeFields name annots args fields) :
    Node.ofValue? (.obj fields) = some { prim := name, args, annots } := by
  have prim : Node.text? fields "prim" = some (some name) := by
    have held : fields.Holds "prim" (.str name) := fun w => by simp [mem_fields encoded]
    rw [Node.text?, lookup_held held]
    rfl
  have listed : Node.list? fields "args" = some args :=
    list_encoded encoded (by simp) fun w => by simp [mem_fields encoded]
  have annotated : Node.list? fields "annots" = some (annots.map .str) :=
    list_encoded encoded (by simp) fun w => by simp [mem_fields encoded]
  simp [Node.ofValue?, prim, listed, annotated, annots_encoded, text_absent encoded]

end Fields

/-! ## Reading payloads -/

section Payloads

/-- How the parts of an object make a payload. -/
theorem decodeExpr_node {fields : Fields} {n : Node} (read : Node.ofValue? (.obj fields) = some n) :
    decodeExpr (.obj fields) =
      match n.int, n.string, n.bytes with
      | some t, _, _ => .ok (.int t)
      | none, some t, _ => .ok (.string t)
      | none, none, some t => .ok (.bytes t)
      | none, none, none =>
        if n.prim = "" then .error (.namelessExpression (.obj fields))
        else Expr.prim n.prim n.annots <$> decodeExprs n.args := by
  rw [decodeExpr.eq_def]
  dsimp only
  split
  · rename_i none
    cases none.symm.trans read
  · rename_i m found
    cases found.symm.trans read
    rcases n with ⟨prim, args, annots, _ | t, _ | t, _ | t⟩
    case none.none.none =>
      by_cases named : prim = ""
      · dsimp only
        rw [dif_pos named, if_pos named]
        rfl
      · dsimp only
        rw [dif_neg named, if_neg named]
        cases decodeExprs args <;> rfl
    all_goals rfl

mutual

theorem decodeExpr_encoded : ∀ {e : Expr} {v : Value}, e.isNamed = true → EncodesExpr e v →
    decodeExpr v = .ok e
  | .int t, _, _, .int => decodeExpr_node (n := { int := some t }) (by cbv)
  | .string t, _, _, .string => decodeExpr_node (n := { string := some t }) (by cbv)
  | .bytes t, _, _, .bytes => decodeExpr_node (n := { bytes := some t }) (by cbv)
  | .seq es, _, named, .seq items => by
    rw [decodeExpr, decodeExprs_encoded named items]
    rfl
  | .prim name annots args, _, named, .prim items fields => by
    have ⟨apart, parts⟩ := isNamed_prim.mp named
    rw [decodeExpr_node (node_encoded fields), decodeExprs_encoded parts items]
    exact if_neg apart

theorem decodeExprs_encoded : ∀ {es : List Expr} {vs : List Value}, Expr.areNamed es = true →
    EncodesExprs es vs → decodeExprs vs = .ok es
  | [], _, _, .nil => by rw [decodeExprs]; rfl
  | e :: es, _, named, .cons first rest => by
    have ⟨one, more⟩ := areNamed_cons.mp named
    rw [decodeExprs, decodeExpr_encoded one first, decodeExprs_encoded more rest]
    rfl

end

end Payloads

/-! ## Reading code -/

section Codes

theorem decodeInstruction_node {fields : Fields} {n : Node}
    (read : Node.ofValue? (.obj fields) = some n) (named : n.prim ≠ "") :
    decodeInstruction (.obj fields) =
      Instruction.op n.prim n.annots <$>
        (decodeArgs n.prim n.args).mapError (DecodeError.within n.prim) := by
  rw [decodeInstruction.eq_def]
  dsimp only
  split
  · rename_i none
    cases none.symm.trans read
  · rename_i m found
    cases found.symm.trans read
    rw [dif_neg named]
    cases decodeArgs n.prim n.args <;> rfl

theorem decodeArgs_literal {name : String} {e : Expr} {v : Value} (vs : List Value)
    (placed : name = "PUSH" ∨ e.kind ≠ .seq) (encoded : EncodesExpr e v) :
    decodeArgs name (v :: vs) = (do
      let e ← decodeExpr v
      let as ← decodeArgs name vs
      pure (.literal e :: as)) := by
  cases encoded with
  | seq =>
    have push : name = "PUSH" := placed.resolve_right fun data => data rfl
    rw [decodeArgs, if_pos (by simp [push])]
  | int | string | bytes | prim =>
    rw [decodeArgs]
    simp

theorem decodeArgs_code {name : String} (items vs : List Value) (other : name ≠ "PUSH") :
    decodeArgs name (.arr items :: vs) = (do
      let body ← decodeCode items
      let as ← decodeArgs name vs
      pure (.code body :: as)) := by
  rw [decodeArgs, if_neg (by simp [other])]

mutual

theorem decodeInstruction_encoded : ∀ {i : Instruction} {v : Value}, i.isEncodable = true →
    EncodesInstruction i v → decodeInstruction v = .ok i
  | .group body, _, encodable, .group items => by
    rw [decodeInstruction, decodeCode_encoded encodable items]
    rfl
  | .op name annots args, _, encodable, .op items fields => by
    have ⟨named, parts⟩ := isEncodable_op.mp encodable
    rw [decodeInstruction_node (node_encoded fields) named, decodeArgs_encoded parts items]
    rfl

theorem decodeCode_encoded : ∀ {code : Code} {vs : List Value}, areEncodable code = true →
    EncodesCode code vs → decodeCode vs = .ok code
  | [], _, _, .nil => by rw [decodeCode]; rfl
  | i :: is, _, encodable, .cons first rest => by
    have ⟨one, more⟩ := areEncodable_cons.mp encodable
    rw [decodeCode, decodeInstruction_encoded one first, decodeCode_encoded more rest]
    rfl

theorem decodeArgs_encoded : ∀ {name : String} {args : List Arg} {vs : List Value},
    argsEncodable name args = true → EncodesArgs args vs → decodeArgs name vs = .ok args
  | name, [], _, _, .nil => by rw [decodeArgs]; rfl
  | name, .literal e :: as, _, encodable, .literal first rest => by
    have ⟨placed, named, more⟩ := argsEncodable_literal.mp encodable
    rw [decodeArgs_literal _ placed first, decodeExpr_encoded named first,
      decodeArgs_encoded more rest]
    rfl
  | name, .code body :: as, _, encodable, .code first rest => by
    have ⟨other, one, more⟩ := argsEncodable_code.mp encodable
    rw [decodeArgs_code _ _ other, decodeCode_encoded one first, decodeArgs_encoded more rest]
    rfl

end

/-- A sequence is read as the instructions in it. -/
theorem code_encoded {code : Code} {vs : List Value} (encodable : areEncodable code = true)
    (encoded : EncodesCode code vs) : Code.ofValue (.arr vs) = .ok code := by
  have read : decodeInstruction (.arr vs) = .ok (.group code) :=
    decodeInstruction_encoded encodable (.group encoded)
  rw [Code.ofValue, read]
  rfl

end Codes

/-! ## Encodings exist -/

mutual

theorem exists_encodesExpr : ∀ e : Expr, ∃ v, EncodesExpr e v
  | .int _ => ⟨_, .int⟩
  | .string _ => ⟨_, .string⟩
  | .bytes _ => ⟨_, .bytes⟩
  | .seq items =>
    have ⟨_, encoded⟩ := exists_encodesExprs items
    ⟨_, .seq encoded⟩
  | .prim _ _ args =>
    have ⟨_, encoded⟩ := exists_encodesExprs args
    ⟨_, .prim encoded (List.Perm.refl _)⟩

theorem exists_encodesExprs : ∀ es : List Expr, ∃ vs, EncodesExprs es vs
  | [] => ⟨_, .nil⟩
  | e :: es =>
    have ⟨_, first⟩ := exists_encodesExpr e
    have ⟨_, rest⟩ := exists_encodesExprs es
    ⟨_, .cons first rest⟩

end

mutual

theorem exists_encodesInstruction : ∀ i : Instruction, ∃ v, EncodesInstruction i v
  | .group body =>
    have ⟨_, encoded⟩ := exists_encodesCode body
    ⟨_, .group encoded⟩
  | .op _ _ args =>
    have ⟨_, encoded⟩ := exists_encodesArgs args
    ⟨_, .op encoded (List.Perm.refl _)⟩

theorem exists_encodesCode : ∀ code : List Instruction, ∃ vs, EncodesCode code vs
  | [] => ⟨_, .nil⟩
  | i :: is =>
    have ⟨_, first⟩ := exists_encodesInstruction i
    have ⟨_, rest⟩ := exists_encodesCode is
    ⟨_, .cons first rest⟩

theorem exists_encodesArgs : ∀ args : List Arg, ∃ vs, EncodesArgs args vs
  | [] => ⟨_, .nil⟩
  | .literal e :: as =>
    have ⟨_, first⟩ := exists_encodesExpr e
    have ⟨_, rest⟩ := exists_encodesArgs as
    ⟨_, .literal first rest⟩
  | .code body :: as =>
    have ⟨_, first⟩ := exists_encodesCode body
    have ⟨_, rest⟩ := exists_encodesArgs as
    ⟨_, .code first rest⟩

end

end Micheline

/-! ## Sections -/

open Micheline (Code Expr Node NodeFields EncodesExpr EncodesCode find_held)

namespace Contract

/-- The section of a name around its one argument. -/
inductive EncodesSection (name : String) (arg : Value) : Value → Prop where
  | mk {annots : List String} {fields : Fields} :
      NodeFields name annots [arg] fields → EncodesSection name arg (.obj fields)

/-- A value that encodes an expression that is read as a type. -/
inductive EncodesType (t : Ty) : Value → Prop where
  | mk {e : Expr} {v : Value} :
      e.isNamed = true → Ty.ofExpr e = .ok t → EncodesExpr e v → EncodesType t v

/-- The three sections in any order. -/
inductive EncodesScript (parameter storage : Ty) (code : Code) : Value → Prop where
  | mk {p s p' s' c : Value} {vs sections : List Value} :
      EncodesType parameter p → EncodesType storage s → EncodesCode code vs →
      EncodesSection "parameter" p p' → EncodesSection "storage" s s' →
      EncodesSection "code" (.arr vs) c → sections.Perm [p', s', c] →
      EncodesScript parameter storage code (.arr sections)

/-- Objects around a value, each of which has the next under `script`, or under `code` and nothing
under `script`. -/
inductive Enveloped (inner : Value) : Value → Prop where
  | bare : Enveloped inner inner
  | script {v : Value} {fields : Fields} :
      Enveloped inner v → fields.Holds "script" v → Enveloped inner (.obj fields)
  | code {v : Value} {fields : Fields} :
      Enveloped inner v → (∀ w, ("script", w) ∉ fields) → fields.Holds "code" v →
      Enveloped inner (.obj fields)

section Sections

variable {arg v : Value} {t : Ty}

theorem type_encoded (name : String) (encoded : EncodesType t v) : decodeType name v = .ok t := by
  obtain ⟨named, typed, encoded⟩ := encoded
  rw [decodeType, Micheline.decodeExpr_encoded named encoded]
  simp [bind, Except.bind, typed, Except.mapError]

theorem add_parameter (s : Sections) (encoded : EncodesSection "parameter" arg v)
    (type : EncodesType t arg) : s.add v = .ok { s with parameter := some t } := by
  obtain ⟨fields⟩ := encoded
  simp only [Sections.add, Micheline.node_encoded fields, type_encoded _ type]
  rfl

theorem add_storage (s : Sections) (encoded : EncodesSection "storage" arg v)
    (type : EncodesType t arg) : s.add v = .ok { s with storage := some t } := by
  obtain ⟨fields⟩ := encoded
  simp only [Sections.add, Micheline.node_encoded fields, type_encoded _ type]
  rfl

theorem add_code (s : Sections) (encoded : EncodesSection "code" arg v) {code : Code}
    (read : Code.ofValue arg = .ok code) : s.add v = .ok { s with code := some code } := by
  obtain ⟨fields⟩ := encoded
  simp only [Sections.add, Micheline.node_encoded fields, read]
  rfl

theorem script_encoded {parameter storage : Ty} {code : Code}
    (encodable : Micheline.areEncodable code = true)
    (encoded : EncodesScript parameter storage code v) :
    Contract.ofValue v = .ok { parameter, storage, code } := by
  obtain ⟨first, second, body, p, s, c, order⟩ := encoded
  have third := Micheline.code_encoded encodable body
  have orders := List.mem_permutations'.mpr order
  simp only [List.permutations', List.flatMap_cons, List.flatMap_nil, List.permutations'Aux,
    List.map_cons, List.map_nil, List.append_nil, List.cons_append, List.nil_append,
    List.mem_cons, List.not_mem_nil, or_false] at orders
  rcases orders with rfl | rfl | rfl | rfl | rfl | rfl <;>
    simp [ofValue, ofSections, add_parameter _ p first, add_storage _ s second, add_code _ c third,
      bind, Except.bind, pure, Except.pure]

end Sections

section Envelopes

variable {fields : Fields} {key : String} {inner v : Value} {c : Contract}

theorem ofValue_enclosed (encloses : enclosed? fields = some (key, v))
    (read : ∃ name, Contract.ofValue v = .ok { c with name }) :
    ∃ name, Contract.ofValue (.obj fields) = .ok { c with name } := by
  obtain ⟨_, inside⟩ := read
  rw [ofValue]
  split
  · rename_i none
    cases encloses.symm.trans none
  · rename_i f found
    cases encloses.symm.trans found
    simp only [inside, bind, Except.bind, pure, Except.pure]
    split
    · exact ⟨_, rfl⟩
    · exact ⟨_, rfl⟩

/-- An envelope gives a contract at most a name. -/
theorem enveloped_read (read : Contract.ofValue inner = .ok c) (around : Enveloped inner v) :
    ∃ name, Contract.ofValue v = .ok { c with name } := by
  induction around with
  | bare => exact ⟨c.name, read⟩
  | @script v fields _ held inside =>
    have encloses : enclosed? fields = some ("script", v) := by
      rw [enclosed?, find_held held]
      rfl
    exact ofValue_enclosed encloses inside
  | @code v fields _ lacks held inside =>
    have none : fields.find? (·.1 == "script") = none :=
      List.find?_eq_none.mpr fun f member same => lacks f.2 (eq_of_beq same ▸ member)
    have encloses : enclosed? fields = some ("code", v) := by
      rw [enclosed?, find_held held, none]
      rfl
    exact ofValue_enclosed encloses inside

end Envelopes

end Contract

open Contract (EncodesScript Enveloped)

/-- Code that can be told from data has an encoding and is read back from each one, and a contract is
read back from its sections in any order and any envelope. -/
theorem encoded_read_back (code : Code) (encodable : Micheline.areEncodable code = true) :
    (∃ vs, EncodesCode code vs) ∧
    (∀ vs, EncodesCode code vs →
      Code.ofValue (.arr vs) = .ok code ∧
      ∀ source, Json.readLeading? source = some (.arr vs) → Code.parse source = .ok code) ∧
    ∀ parameter storage script v, EncodesScript parameter storage code script →
      Enveloped script v →
      (∃ name, Contract.ofValue v = .ok { name, parameter, storage, code }) ∧
      ∀ source, Json.readLeading? source = some v →
        ∃ name, Contract.parse source = .ok { name, parameter, storage, code } := by
  refine ⟨Micheline.exists_encodesCode code, ?_, ?_⟩
  · intro vs encoded
    have read := Micheline.code_encoded encodable encoded
    exact ⟨read, fun source value => by rw [Code.parse, value]; exact read⟩
  · intro parameter storage script v encoded around
    have read := Contract.enveloped_read (Contract.script_encoded encodable encoded) around
    exact ⟨read, fun source value => by rw [Contract.parse, value]; exact read⟩

/-- A sequence that is data, code as an argument, and a group in it. -/
def groupedDrop : Code :=
  [.op "PUSH" [] [.literal (.prim "list" [] [.prim "int" [] []]), .literal (.seq [.int "1"])],
    .op "DIP" [] [.code [.group [.op "DROP" ["%old"] []]]]]

def groupedDropValues : List Value :=
  [.obj [("args", .arr [.obj [("prim", .str "list"), ("args", .arr [.obj [("prim", .str "int")]])],
      .arr [.obj [("int", .str "1")]]]), ("prim", .str "PUSH")],
    .obj [("prim", .str "DIP"),
      ("args", .arr [.arr [.arr [.obj [("prim", .str "DROP"), ("annots", .arr [.str "%old"])]]]])]]

theorem groupedDrop_encoded : EncodesCode groupedDrop groupedDropValues :=
  .cons (.op (.literal (.prim (.cons (.prim .nil (.refl _)) .nil) (.refl _))
      (.literal (.seq (.cons .int .nil)) .nil)) (.swap _ _ _))
    (.cons (.op (.code (.cons (.group (.cons (.op .nil (.refl _)) .nil)) .nil) .nil) (.refl _)) .nil)

/-- The code section first, and two envelopes, the outer one with a name. -/
def groupedDropScript : Value :=
  .arr [.obj [("prim", .str "code"), ("args", .arr [.arr groupedDropValues])],
    .obj [("prim", .str "parameter"), ("args", .arr [.obj [("prim", .str "unit")]])],
    .obj [("prim", .str "storage"), ("args", .arr [.obj [("prim", .str "unit")]])]]

def groupedDropEnvelope : Value :=
  .obj [("name", .str "drop"), ("script", .obj [("code", groupedDropScript)])]

theorem grouped_drop_read_back :
    Code.ofValue (.arr groupedDropValues) = .ok groupedDrop ∧
    ∃ name, Contract.ofValue groupedDropEnvelope =
      .ok { name, parameter := .leaf "unit", storage := .leaf "unit", code := groupedDrop } := by
  have unit : Contract.EncodesType (.leaf "unit") (.obj [("prim", .str "unit")]) :=
    .mk (e := .prim "unit" [] []) rfl rfl (.prim .nil (.refl _))
  have plain {name : String} {args : List Value} : NodeFields name [] args _ := .refl _
  have script : EncodesScript (.leaf "unit") (.leaf "unit") groupedDrop groupedDropScript :=
    .mk unit unit groupedDrop_encoded (.mk plain) (.mk plain) (.mk plain)
      (List.perm_append_singleton _ [_, _]).symm
  have inner : Enveloped groupedDropScript (.obj [("code", groupedDropScript)]) :=
    .code .bare (by simp) fun w => by simp
  have around : Enveloped groupedDropScript groupedDropEnvelope := .script inner fun w => by simp
  have back := encoded_read_back groupedDrop rfl
  exact ⟨(back.2.1 _ groupedDrop_encoded).1, (back.2.2 _ _ _ _ script around).1⟩

end StackFlow
