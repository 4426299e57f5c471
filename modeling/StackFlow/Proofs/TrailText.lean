import StackFlow.Command.Run
import StackFlow.Http.Api
import StackFlow.Mcp
import StackFlow.Proofs.Combs
import StackFlow.Proofs.ReportKey

/-!
Trails of nodes as people write them. The command line and HTTP take whole numbers only, the tool
for agents takes the digits that a part starts with. Main statement: the strict reader takes exactly
the trails that the lenient one takes and in which nothing stands behind the digits, with the same
numbers, and on such trails all three highlight the same nodes or refuse the same part.
-/

namespace StackFlow

namespace Trail

/-- A number without its sign. -/
def unsigned : List Char → List Char
  | '-' :: cs | '+' :: cs => cs
  | cs => cs

/-- The texts between the commas of a trail, without the blanks around them. -/
def partsOf (raw : String) : List (List Char) :=
  (Text.split (.char ',') (Utf8.ofText raw)).map fun part =>
    Text.trimmed (part.map Utf8.Piece.shown)

/-- No number of the trail has anything behind its digits. -/
def Bare (raw : String) : Prop :=
  ∀ part ∈ partsOf raw, (leadingWord? part).isSome → (unsigned part).all Char.isDigit = true

instance (raw : String) : Decidable (Bare raw) :=
  inferInstanceAs (Decidable (∀ part ∈ partsOf raw, _ → _))

/-! ## One part -/

theorem readNat?_eq (cs : List Char) : Decimal.readNat? cs =
    if cs.all Char.isDigit then Decimal.readNat? (cs.takeWhile Char.isDigit) else none := by
  split
  · rename_i digits
    rw [List.takeWhile_eq_self_iff.mpr (List.all_eq_true.mp digits)]
  · rename_i other
    simp [Decimal.readNat?, other]

/-- A part that is read strictly is one that consists of a sign and digits. -/
theorem readWord?_eq (cs : List Char) : Decimal.readWord? (String.ofList cs) =
    if (unsigned cs).all Char.isDigit then leadingWord? cs else none := by
  unfold Decimal.readWord? Decimal.readInteger? leadingWord? unsigned
  rw [String.toList_ofList]
  split
  · rename_i ds
    simp only [readNat?_eq ds]
    split
    · cases Decimal.readNat? (ds.takeWhile Char.isDigit) <;> simp
    · rfl
  · rename_i ds
    simp only [readNat?_eq ds]
    split
    · cases Decimal.readNat? (ds.takeWhile Char.isDigit) <;> simp
    · rfl
  · simp only [readNat?_eq cs]
    split
    · cases Decimal.readNat? (cs.takeWhile Char.isDigit) <;> simp
    · rfl

/-! ## Whole trails -/

section Trails

variable {raw : String} {ids : List Int}

theorem parse_of_bare (bare : Bare raw) : parse raw = parseLenient raw := by
  refine mapM_congr fun part member => ?_
  have digits := bare _ (List.mem_map_of_mem member)
  have same : Decimal.readWord? (String.ofList (Text.trimmed (part.map Utf8.Piece.shown))) =
      leadingWord? (Text.trimmed (part.map Utf8.Piece.shown)) := by
    rw [readWord?_eq]
    cases read : leadingWord? (Text.trimmed (part.map Utf8.Piece.shown)) with
    | none => exact ite_self none
    | some n => rw [if_pos (digits (by simp [read]))]
  simp only [same]

theorem bare_of_parse (accepted : parse raw = .ok ids) : Bare raw := by
  intro part member _
  obtain ⟨piece, inside, rfl⟩ := List.mem_map.mp member
  obtain ⟨n, _, read⟩ := (mapM_taken accepted).1 piece inside
  by_contra other
  simp [readWord?_eq, other] at read

theorem parse_eq_ok_iff : parse raw = .ok ids ↔ parseLenient raw = .ok ids ∧ Bare raw := by
  constructor
  · intro accepted
    have bare := bare_of_parse accepted
    exact ⟨parse_of_bare bare ▸ accepted, bare⟩
  · rintro ⟨accepted, bare⟩
    rw [parse_of_bare bare, accepted]

end Trails

end Trail

/-! ## Who reads trails -/

section Readers

variable {raw source : String} {contract : Contract}

theorem Mcp.contractOf_text {args : Json.Value}
    (given : args.field? "contract" = some (.str source))
    (read : Contract.parse source = .ok contract) : Mcp.contractOf args = .ok contract := by
  simp only [Mcp.contractOf, given, read]

theorem Http.readContract_text (short : ¬ Http.maxBody < source.utf8ByteSize)
    (read : Contract.parse source = .ok contract) :
    Http.Api.readContract source = .ok contract := by
  simp only [Http.Api.readContract, if_neg short, read]

/-- A file with a contract that has no name is named for the file. -/
theorem App.contracts_text {app : App} {path : String} (found : app.files.find path = .text source)
    (read : Contract.parse source = .ok contract) (nameless : contract.name.isEmpty = true) :
    app.contracts [path] =
      .ok [{ contract with name := Files.withoutExtension (Files.baseName path) }] := by
  simp [App.contracts, App.contract, found, read, nameless, bind, Except.bind, pure, Except.pure]

theorem Mcp.graph_highlights {m : Manager} {args : Json.Value} (given : raw ≠ "")
    (asked : Mcp.contractOf args = .ok contract) (path : Mcp.textOf args "path" = raw) :
    (Mcp.graph m args).1 = match Trail.parseLenient raw with
      | .ok ids => { text := (m.engine.compile contract.code).1.mermaid (some ids) }
      | .error e => ⟨true, e.message⟩ := by
  have filled : raw.isEmpty = false := by simpa using given
  unfold Mcp.graph
  simp only [asked, path, filled]
  cases Trail.parseLenient raw with
  | ok ids => rfl
  | error e => rfl

theorem Http.graph_highlights {a : Http.Api} {body : String} {query : Http.Query}
    (given : raw ≠ "") (asked : Http.Api.readContract body = .ok contract)
    (path : query.lookup "path" = some (Utf8.ofText raw)) :
    (a.graph body query).1 = match Trail.parse raw with
      | .error e => .error 400 e.message
      | .ok ids =>
        match Engine.validate (a.manager.engine.compile contract.code).1 with
        | .error e => .error 422 ("Invalid graph: " ++ e.message)
        | .ok () => .plain 200 ((a.manager.engine.compile contract.code).1.mermaid (some ids)) := by
  obtain ⟨p, ps, pieces⟩ : ∃ p ps, Utf8.ofText raw = p :: ps := by
    cases chars : raw.toList with
    | nil => exact absurd (String.toList_eq_nil_iff.mp chars) given
    | cons c cs => exact ⟨.char c, cs.map .char, by rw [Utf8.ofText, chars, List.map_cons]⟩
  unfold Http.Api.graph Trail.parse
  simp only [asked, path, pieces]
  cases Trail.parsePieces (p :: ps) with
  | error e => rfl
  | ok ids =>
    simp only [Except.map]
    cases Engine.validate (a.manager.engine.compile contract.code).1 <;> rfl

theorem Command.graph_highlights {app : App} {words : Arguments} (given : raw ≠ "")
    (asked : app.contracts words.rest = .ok [contract]) (path : words.text? "path" = some raw) :
    Command.graph app words = match Trail.parse raw with
      | .ok ids => { stdout := (Graph.build contract.code).mermaid (some ids) }
      | .error e => { outcome := .error (.trail e) } := by
  unfold Command.graph
  cases read : Trail.parse raw with
  | ok ids => simp [asked, path, read, bind, Except.bind, pure, Except.pure]
  | error e =>
    simp [asked, path, read, bind, Except.bind, throw, throwThe, MonadExceptOf.throw]

end Readers

namespace Trail

/-- The trails that HTTP and the command line take are those that the tool for agents takes and that
have nothing behind their digits. Each of the three draws what its reader gives. -/
theorem trails_read_alike {raw : String} (given : raw ≠ "") :
    (∀ ids, parse raw = .ok ids ↔ parseLenient raw = .ok ids ∧ Bare raw) ∧
    (Bare raw → parseLenient raw = parse raw) ∧
    (∀ (m : Manager) (args : Json.Value) (contract : Contract),
      Mcp.contractOf args = .ok contract → Mcp.textOf args "path" = raw →
      (Mcp.graph m args).1 = match parseLenient raw with
        | .ok ids => { text := (m.engine.compile contract.code).1.mermaid (some ids) }
        | .error e => ⟨true, e.message⟩) ∧
    (∀ (a : Http.Api) (body : String) (query : Http.Query) (contract : Contract),
      Http.Api.readContract body = .ok contract →
      query.lookup "path" = some (Utf8.ofText raw) →
      (a.graph body query).1 = match parse raw with
        | .error e => .error 400 e.message
        | .ok ids =>
          match Engine.validate (a.manager.engine.compile contract.code).1 with
          | .error e => .error 422 ("Invalid graph: " ++ e.message)
          | .ok () =>
            .plain 200 ((a.manager.engine.compile contract.code).1.mermaid (some ids))) ∧
    (∀ (app : App) (words : Arguments) (contract : Contract),
      app.contracts words.rest = .ok [contract] → words.text? "path" = some raw →
      Command.graph app words = match parse raw with
        | .ok ids => { stdout := (Graph.build contract.code).mermaid (some ids) }
        | .error e => { outcome := .error (.trail e) }) := by
  refine ⟨fun ids => parse_eq_ok_iff, fun bare => (parse_of_bare bare).symm, ?_, ?_, ?_⟩
  · intro m args contract asked path
    exact Mcp.graph_highlights given asked path
  · intro a body query contract asked path
    exact Http.graph_highlights given asked path
  · intro app words contract asked path
    exact Command.graph_highlights given asked path

/-! ## A trail with blanks and a sign, and one with a letter -/

def signedTrail : String := " 1,+3"

def joinSource : String := (joinValue listValue).render

def joinCall : Json.Value := .obj [("contract", .str joinSource), ("path", .str signedTrail)]

def joinWords : Arguments := { flags := [("path", .text signedTrail)], rest := ["join.json"] }

def joinApp : App :=
  { config := {}, manager := {}, files := ⟨[("join.json", joinSource)]⟩, dir := "." }

theorem joinCall_asked : Mcp.contractOf joinCall = .ok (joinContract listTy) :=
  Mcp.contractOf_text rfl parse_list

theorem joinBody_asked : Http.Api.readContract joinSource = .ok (joinContract listTy) :=
  Http.readContract_text (by decide +kernel) parse_list

theorem joinApp_asked : joinApp.contracts joinWords.rest =
    .ok [{ joinContract listTy with name := "join" }] := by
  have named : Files.withoutExtension (Files.baseName "join.json") = "join" := by decide
  rw [← named]
  exact App.contracts_text rfl parse_list rfl

theorem signedTrail_read : Bare signedTrail ∧ parseLenient signedTrail = .ok [1, 3] :=
  ⟨by decide, by cbv⟩

/-- Blanks and signs are read alike everywhere. -/
theorem signed_trail_read_alike : signedTrail ≠ "" ∧ Bare signedTrail ∧
    parse signedTrail = .ok [1, 3] ∧ parseLenient signedTrail = .ok [1, 3] ∧
    (Mcp.graph {} joinCall).1 =
      { text := (({} : Engine).compile (joinContract listTy).code).1.mermaid (some [1, 3]) } ∧
    (({ manager := {} } : Http.Api).graph joinSource [("path", Utf8.ofText signedTrail)]).1 =
      .plain 200 ((({} : Engine).compile (joinContract listTy).code).1.mermaid (some [1, 3])) ∧
    Command.graph joinApp joinWords =
      { stdout := (Graph.build (joinContract listTy).code).mermaid (some [1, 3]) } := by
  obtain ⟨exact, _, agent, http, words⟩ := @trails_read_alike signedTrail (by decide)
  obtain ⟨bare, lenient⟩ := signedTrail_read
  have strict := (exact _).mpr ⟨lenient, bare⟩
  refine ⟨by decide, bare, strict, lenient, ?_, ?_, ?_⟩
  · rw [agent {} joinCall _ joinCall_asked rfl, lenient]
  · have compiled : (({} : Engine).compile (joinContract listTy).code).1 = joinGraph := build_join
    rw [http { manager := {} } joinSource _ _ joinBody_asked rfl, strict]
    simp only [compiled, validate_join]
  · rw [words joinApp joinWords _ joinApp_asked rfl, strict]

/-- A letter behind the digits is passed over by one reader and refused by the other. -/
theorem letter_read_apart : ¬ ∀ raw : String, raw ≠ "" →
    ∀ ids, parse raw = .ok ids ↔ parseLenient raw = .ok ids := by
  intro claim
  have taken : parseLenient "1x" = .ok [1] := by cbv
  have bare := (parse_eq_ok_iff.mp ((claim "1x" (by decide) [1]).mpr taken)).2
  exact absurd bare (by decide)

end Trail

end StackFlow
