import StackFlow.Json.Value
import StackFlow.Text.Fold

/-!
The parts of one Micheline object. A key that is missing is looked for once more regardless of case;
unknown keys are ignored.
-/

namespace StackFlow.Micheline

open Json (Value Fields)

structure Node where
  prim : String := ""
  args : List Value := []
  annots : List String := []
  int : Option String := none
  string : Option String := none
  bytes : Option String := none

namespace Node

/-- The value under a name, by its exact key or else by one that differs in case. -/
def lookup (fields : Fields) (name : String) : Option Value :=
  ((fields.find? (·.1 == name)).or (fields.find? fun f => Text.foldsTo f.1 name)).map (·.2)

/-- Text is given as a string or as a number, whose digits are taken as they are. -/
def textOf? : Value → Option (Option String)
  | .null => some none
  | .str s => some (some s)
  | .num t => some (some t)
  | _ => none

def text? (fields : Fields) (name : String) : Option (Option String) :=
  match lookup fields name with
  | some v => textOf? v
  | none => some none

/-- A list is given as an array; null counts as empty. -/
def list? (fields : Fields) (name : String) : Option (List Value) :=
  match lookup fields name with
  | none | some .null => some []
  | some (.arr items) => some items
  | some _ => none

def annots? : List Value → Option (List String)
  | [] => some []
  | v :: vs => do
    let t ← textOf? v
    let ts ← annots? vs
    pure (t.getD "" :: ts)

/-- The parts of an object, or `none` where a part has the wrong kind of value. Null counts as an
empty object. -/
def ofValue? : Value → Option Node
  | .null => some {}
  | .obj fields => do
    let prim ← text? fields "prim"
    let args ← list? fields "args"
    let annots ← (list? fields "annots").bind annots?
    let int ← text? fields "int"
    let string ← text? fields "string"
    let bytes ← text? fields "bytes"
    pure { prim := prim.getD "", args, annots, int, string, bytes }
  | _ => none

theorem sizeOf_of_lookup {fields : Fields} {name : String} {v : Value}
    (h : lookup fields name = some v) : sizeOf v < sizeOf fields := by
  obtain ⟨⟨k, w⟩, hf, rfl⟩ := Option.map_eq_some_iff.1 h
  have mem : (k, w) ∈ fields := by
    rcases Option.or_eq_some_iff.1 hf with hf | ⟨_, hf⟩ <;> exact List.mem_of_find?_eq_some hf
  have := List.sizeOf_lt_of_mem mem
  simp only [Prod.mk.sizeOf_spec] at this
  simp only
  omega

/-- The arguments of a named object are smaller than the object. -/
theorem sizeOf_args {v : Value} {n : Node} (h : ofValue? v = some n) (named : n.prim ≠ "") :
    sizeOf n.args < sizeOf v := by
  cases v with
  | null =>
    simp only [ofValue?, Option.some.injEq] at h
    subst h
    exact absurd rfl named
  | obj fields =>
    simp only [ofValue?, Option.bind_eq_bind, Option.bind_eq_some_iff, Option.pure_def,
      Option.some.injEq] at h
    obtain ⟨_, _, args, hargs, _, _, _, _, _, _, _, _, rfl⟩ := h
    simp only [Json.Value.obj.sizeOf_spec]
    have positive : 0 < sizeOf fields := by
      cases fields <;> simp only [List.nil.sizeOf_spec, List.cons.sizeOf_spec] <;> omega
    unfold list? at hargs
    split at hargs
    · simp only [Option.some.injEq] at hargs
      subst hargs
      simp
      omega
    · simp only [Option.some.injEq] at hargs
      subst hargs
      simp
      omega
    · rename_i items hl
      simp only [Option.some.injEq] at hargs
      subst hargs
      have := sizeOf_of_lookup hl
      simp only [Json.Value.arr.sizeOf_spec] at this
      omega
    · simp at hargs
  | bool | num | str | arr => simp [ofValue?] at h

end Node

end StackFlow.Micheline
