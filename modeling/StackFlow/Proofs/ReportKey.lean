import Mathlib
import StackFlow.Manager
import StackFlow.Proofs.Canonical
import StackFlow.Proofs.Encoding
import StackFlow.Proofs.TypeText

/-!
What the ID of a report stands for. The text under the digest determines the code, the environment
and the texts of both types. It does not determine the types: a name may look like the text of
another type. Main statement: contracts with one key are analysed alike, if their types are the
same.
-/

namespace StackFlow

open Micheline (Code DecodeError)
open Json (Value)

namespace Contract

/-! ## Contracts that were read -/

theorem add_named {s s' : Sections} {v : Value} (read : s.add v = .ok s')
    (named : ∀ code ∈ s.code, Micheline.codeNamed code = true) :
    ∀ code ∈ s'.code, Micheline.codeNamed code = true := by
  unfold Sections.add at read
  split at read
  · cases read
  · split at read
    · split at read
      · obtain ⟨t, _, last⟩ := except_bind_ok read
        cases last
        exact named
      · obtain ⟨t, _, last⟩ := except_bind_ok read
        cases last
        exact named
      · obtain ⟨code, decoded, last⟩ := except_bind_ok read
        cases last
        rintro _ ⟨⟩
        exact Micheline.code_ofValue_named decoded
      · cases read
    · cases read

theorem foldlM_named {s s' : Sections} {vs : List Value} (read : vs.foldlM Sections.add s = .ok s')
    (named : ∀ code ∈ s.code, Micheline.codeNamed code = true) :
    ∀ code ∈ s'.code, Micheline.codeNamed code = true := by
  induction vs generalizing s with
  | nil =>
    cases read
    exact named
  | cons v vs ih =>
    rw [List.foldlM_cons] at read
    obtain ⟨t, first, rest⟩ := except_bind_ok read
    exact ih rest (add_named first named)

theorem ofSections_named {vs : List Value} {c : Contract} (read : ofSections vs = .ok c) :
    Micheline.codeNamed c.code = true := by
  unfold ofSections at read
  obtain ⟨s, folded, last⟩ := except_bind_ok read
  have named := foldlM_named folded (by simp)
  split at last
  · cases last
  · cases last
  · cases last
  · cases last
    exact named _ rfl

theorem ofValue_named : ∀ (v : Value) {c : Contract}, ofValue v = .ok c →
    Micheline.codeNamed c.code = true
  | .arr items, c, read => by
    rw [ofValue] at read
    exact ofSections_named read
  | .obj fields, c, read => by
    rw [ofValue] at read
    split at read
    · cases read
    · rename_i f found
      obtain ⟨inner, decoded, last⟩ := except_bind_ok read
      have smaller := sizeOf_enclosed found
      have named := ofValue_named f.2 decoded
      cases last
      split <;> exact named
  | .str _, _, read | .num _, _, read | .bool _, _, read | .null, _, read => by
    rw [ofValue] at read
    cases read
termination_by v => sizeOf v

theorem parse_named {source : String} {c : Contract} (read : parse source = .ok c) :
    Micheline.codeNamed c.code = true := by
  unfold parse at read
  split at read
  · exact ofValue_named _ read
  · cases read

/-! ## Keys -/

theorem env_tidy (env : Env) : env.toJson.isTidy = true := rfl

/-- The key of a report determines the code and the texts of both types, and nothing else. -/
theorem reportKey_eq_iff {c c' : Contract} (env : Env) (named : Micheline.codeNamed c.code = true)
    (named' : Micheline.codeNamed c'.code = true) :
    c.reportKey env = c'.reportKey env ↔ c.code = c'.code ∧
      c.parameter.text = c'.parameter.text ∧ c.storage.text = c'.storage.text := by
  constructor
  · intro same
    have tidy (code : Code) : (Micheline.Code.toJson code).isTidy = true :=
      Micheline.codeToJson_tidy code
    have value := Json.render_inj
      (by simp [Json.Value.isTidy, Json.tidyFields, tidy, env_tidy])
      (by simp [Json.Value.isTidy, Json.tidyFields, tidy, env_tidy]) same
    simp only [Value.obj.injEq, List.cons.injEq, Prod.mk.injEq, true_and, Value.str.injEq,
      and_true] at value
    obtain ⟨code, parameter, storage⟩ := value
    exact ⟨Micheline.codeToJson_inj _ _ named named' (Value.arr.inj code), parameter, storage⟩
  · rintro ⟨code, parameter, storage⟩
    simp only [reportKey, code, parameter, storage]

/-- Whether both types of a contract have ordinary names only. -/
def hasOrdinaryTypes (c : Contract) : Bool := c.parameter.isOrdinary && c.storage.isOrdinary

end Contract

/-! ## Analyses -/

/-- Two reports differ at most in the name of the contract and in the time. -/
def Report.Alike (r r' : Report) : Prop :=
  r' = { r with contract := r'.contract, createdAt := r'.createdAt }

/-- Two analyses give reports that are alike, or the same error. -/
def Agree : Except AnalysisError Report → Except AnalysisError Report → Prop
  | .ok r, .ok r' => r.Alike r'
  | .error e, .error e' => e = e'
  | _, _ => False

/-- An analysis looks at the code, the ID and the initial stack of a contract only. -/
theorem analyzeGraph_agree {e : Engine} {c c' : Contract} (ids : e.reportId c = e.reportId c')
    (starts : c.initialStack e.env = c'.initialStack e.env) (signal : Signal) (now now' : String)
    (g : Graph) (maxSteps : Int) :
    Agree (e.analyzeGraph signal now c g maxSteps).outcome
      (e.analyzeGraph signal now' c' g maxSteps).outcome := by
  unfold Engine.analyzeGraph
  simp only [ids, starts]
  split
  · rfl
  · split
    · rfl
    · split
      · rfl
      · rfl

theorem analyzeLimit_agree {e : Engine} {c c' : Contract} (code : c.code = c'.code)
    (ids : e.reportId c = e.reportId c') (starts : c.initialStack e.env = c'.initialStack e.env)
    (signal : Signal) (now now' : String) (maxSteps : Int) :
    Agree (e.analyzeLimit signal now c maxSteps).1.outcome
      (e.analyzeLimit signal now' c' maxSteps).1.outcome := by
  unfold Engine.analyzeLimit
  rw [code]
  exact analyzeGraph_agree ids starts signal now now' _ maxSteps

/-- Under the lock of an ID, a report in the store is the answer. -/
theorem work_serve {m m' : Manager} {caller : Caller} {id : String} {r : Report}
    (stored : m.onShelf (m.store.load caller id) = (.ok r, m')) (c : Contract) :
    m.work caller id (.serve c) = (.inr (.ok (.report r true)), m') := by
  simp only [Manager.work, stored]

/-- The key of a report stands for the code, for the texts of the types and, where the names in them
are ordinary, for the types. Contracts with one key are analysed alike if their types are the same,
and so a report that the manager has in store for one of them is what an analysis of the other
gives. -/
theorem same_key_same_analysis {source source' : String} {c c' : Contract} (e : Engine)
    (read : Contract.parse source = .ok c) (read' : Contract.parse source' = .ok c') :
    (c.reportKey e.env = c'.reportKey e.env ↔ c.code = c'.code ∧
      c.parameter.text = c'.parameter.text ∧ c.storage.text = c'.storage.text) ∧
    (c.reportKey e.env = c'.reportKey e.env → c.hasOrdinaryTypes → c'.hasOrdinaryTypes →
      c.parameter = c'.parameter ∧ c.storage = c'.storage) ∧
    (c.reportKey e.env = c'.reportKey e.env → c.parameter = c'.parameter → c.storage = c'.storage →
      (∀ signal now now' maxSteps, Agree (e.analyzeLimit signal now c maxSteps).1.outcome
        (e.analyzeLimit signal now' c' maxSteps).1.outcome) ∧
      ∀ (m m' : Manager) caller r now now', (e.analyze .never now c).1.outcome = .ok r →
        m.onShelf (m.store.load caller (e.reportId c')) = (.ok r, m') →
        m.work caller (e.reportId c') (.serve c') = (.inr (.ok (.report r true)), m') ∧
        ∃ r', (e.analyze .never now' c').1.outcome = .ok r' ∧ r.Alike r') := by
  have keys := Contract.reportKey_eq_iff e.env (Contract.parse_named read)
    (Contract.parse_named read')
  refine ⟨keys, ?_, ?_⟩
  · intro same ordinary ordinary'
    obtain ⟨_, parameter, storage⟩ := keys.mp same
    simp only [Contract.hasOrdinaryTypes, Bool.and_eq_true] at ordinary ordinary'
    exact ⟨Ty.text_inj ordinary.1 ordinary'.1 parameter, Ty.text_inj ordinary.2 ordinary'.2 storage⟩
  · intro same parameter storage
    have ids : e.reportId c = e.reportId c' := congrArg fingerprint same
    have starts : c.initialStack e.env = c'.initialStack e.env := by
      simp only [Contract.initialStack, parameter, storage]
    have agree := analyzeLimit_agree (keys.mp same).1 ids starts
    refine ⟨agree, ?_⟩
    intro m m' caller r now now' analysed stored
    refine ⟨work_serve stored c', ?_⟩
    have both : Agree (e.analyze .never now c).1.outcome (e.analyze .never now' c').1.outcome :=
      agree .never now now' e.maxSteps
    rw [analysed] at both
    cases outcome : (e.analyze .never now' c').1.outcome with
    | error err =>
      rw [outcome] at both
      exact both.elim
    | ok r' =>
      rw [outcome] at both
      exact ⟨r', rfl, both⟩

/-! ## Twins: one key, two types -/

section Twins

open Micheline (Expr Node decodeExpr decodeExprs decodeInstruction decodeCode decodeArgs)

/-- A name with arguments, as contracts write it. -/
def primValue (name : String) (args : List Value) : Value :=
  .obj (("prim", .str name) :: Value.unlessEmpty "args" args)

theorem node_primValue (name : String) (args : List Value) :
    Node.ofValue? (primValue name args) = some { prim := name, args } :=
  Micheline.node_encoded (.refl _)

theorem decodeExpr_primValue {name : String} (named : name ≠ "") (args : List Value) :
    decodeExpr (primValue name args) = (do
      let es ← decodeExprs args
      pure (.prim name [] es)) := by
  rw [primValue, Micheline.decodeExpr_node (node_primValue name args)]
  simp [named]

theorem decodeInstruction_primValue {name : String} (named : name ≠ "") (args : List Value) :
    decodeInstruction (primValue name args) = (do
      let as ← (decodeArgs name args).mapError (.within name)
      pure (.op name [] as)) := by
  rw [primValue, Micheline.decodeInstruction_node (node_primValue name args) named]
  simp

/-- A contract that joins the strings of its parameter, which has to be a list of them. -/
def joinValue (parameter : Value) : Value :=
  .arr [primValue "parameter" [parameter], primValue "storage" [primValue "unit" []],
    primValue "code" [.arr [primValue "CAR" [], primValue "CONCAT" []]]]

def joinContract (parameter : Ty) : Contract :=
  { parameter, storage := .leaf "unit", code := [.op "CAR" [] [], .op "CONCAT" [] []] }

theorem ofValue_joinValue {v : Value} {e : Expr} {t : Ty} (read : decodeExpr v = .ok e)
    (typed : Ty.ofExpr e = .ok t) : Contract.ofValue (joinValue v) = .ok (joinContract t) := by
  simp [joinValue, Contract.ofValue, Contract.ofSections, Contract.Sections.add, node_primValue,
    Contract.decodeType, read, typed, decodeExpr_primValue, decodeExprs, Ty.ofExpr, Ty.ofExprs,
    Except.mapError, bind, Except.bind, pure, Except.pure, Micheline.Code.ofValue,
    decodeInstruction, decodeCode, decodeInstruction_primValue, decodeArgs, Ty.ofParts,
    Micheline.codeOf]
  rfl

/-- A value is read back from its text, if it is read from the characters. -/
theorem parse_render {v : Value} {n : Nat} {c : Contract} (length : (v.write []).length = n)
    (loop : Json.readLoop (n + 1) {} (v.write []) = some (v, [])) (settled : v.settled = v)
    (read : Contract.ofValue v = .ok c) : Contract.parse v.render = .ok c := by
  have leading : Json.readLeading? v.render = some v := by
    simp only [Json.readLeading?, Json.readFirst?, Value.render, String.toList_ofList, length, loop,
      Option.map_some, settled]
  simp only [Contract.parse, leading, read]

def listTy : Ty := .app "list" [.leaf "string"]

def listValue : Value := primValue "list" [primValue "string" []]

theorem decodeExpr_listValue :
    decodeExpr listValue = .ok (.prim "list" [] [.prim "string" [] []]) := by
  simp [listValue, decodeExpr_primValue, decodeExprs, pure, Except.pure, bind, Except.bind]

theorem parse_list : Contract.parse (joinValue listValue).render = .ok (joinContract listTy) :=
  parse_render (n := 178) rfl rfl rfl (ofValue_joinValue decodeExpr_listValue rfl)

theorem ofValue_envelope {name : String} {v : Value} {c : Contract} (named : name ≠ "")
    (read : Contract.ofValue v = .ok c) :
    Contract.ofValue (.obj [("name", .str name), ("code", v)]) = .ok { c with name } := by
  have enclosed : Contract.enclosed? [("name", .str name), ("code", v)] = some ("code", v) := rfl
  have label : Contract.envelopeName [("name", .str name), ("code", v)] = name := rfl
  rw [Contract.ofValue]
  split
  · rename_i none
    cases enclosed.symm.trans none
  · rename_i f found
    cases enclosed.symm.trans found
    simp [read, label, named, bind, Except.bind, pure, Except.pure]

theorem parse_enveloped : Contract.parse (Value.obj [("name", .str "join"),
    ("code", joinValue listValue)]).render = .ok { joinContract listTy with name := "join" } :=
  parse_render (n := 201) rfl rfl rfl
    (ofValue_envelope (by decide) (ofValue_joinValue decodeExpr_listValue rfl))

/-- The same contract, with and without a name, has one report. -/
theorem enveloped_analysed_alike :
    (joinContract listTy).reportKey Env.default =
        Contract.reportKey { joinContract listTy with name := "join" } Env.default ∧
      (joinContract listTy).hasOrdinaryTypes = true ∧
      Agree (({} : Engine).analyzeLimit .never "then" (joinContract listTy) 1000).1.outcome
        (({} : Engine).analyzeLimit .never "now" { joinContract listTy with name := "join" }
          1000).1.outcome :=
  ⟨rfl, by decide, ((same_key_same_analysis {} parse_list parse_enveloped).2.2 rfl rfl rfl).1
    .never "then" "now" 1000⟩

/-- A type without components whose name looks like a list of strings. -/
def twinTy : Ty := .leaf "list(string)"

theorem parse_twin :
    Contract.parse (joinValue (primValue "list(string)" [])).render =
      .ok (joinContract twinTy) := by
  have read : decodeExpr (primValue "list(string)" []) = .ok (.prim "list(string)" [] []) := by
    simp [decodeExpr_primValue, decodeExprs, pure, Except.pure, bind, Except.bind]
  exact parse_render (n := 159) rfl rfl rfl (ofValue_joinValue read rfl)

def joinGraph : Graph :=
  { nodes := #[.tube 0 [] noNode, .tube 1 [.op "CAR" [] [], .op "CONCAT" [] []] noNode], root := 1 }

theorem build_join : Graph.build [.op "CAR" [] [], .op "CONCAT" [] []] = joinGraph := by
  cbv

theorem validate_join : Engine.validate joinGraph = .ok () := by
  cbv

/-- A list of strings is joined, and from its twin one operand is missing. -/
theorem twin_breaks (now : String) :
    (∃ r, (({} : Engine).analyze .never now (joinContract listTy)).1.outcome = .ok r) ∧
      ∃ err, (({} : Engine).analyze .never now (joinContract twinTy)).1.outcome = .error err := by
  simp only [Engine.analyze, Engine.analyzeLimit, Engine.compile, Engine.analyzeGraph, joinContract,
    validate_join, build_join]
  exact ⟨⟨_, rfl⟩, ⟨_, rfl⟩⟩

/-- One key does not mean one analysis: a type may be named like the text of another type. -/
theorem twin_has_other_analysis :
    ¬ ∀ (e : Engine) (source source' : String) (c c' : Contract),
      Contract.parse source = .ok c → Contract.parse source' = .ok c' →
      c.reportKey e.env = c'.reportKey e.env → ∀ signal now now',
      Agree (e.analyze signal now c).1.outcome (e.analyze signal now' c').1.outcome := by
  intro claim
  have texts : listTy.text = twinTy.text := by decide
  have same : (joinContract listTy).reportKey Env.default =
      (joinContract twinTy).reportKey Env.default := by
    simp only [Contract.reportKey, joinContract, texts]
  have agree := claim {} _ _ _ _ parse_list parse_twin same .never "" ""
  obtain ⟨⟨r, joined⟩, err, broken⟩ := twin_breaks ""
  rw [joined, broken] at agree
  exact agree

end Twins

end StackFlow
