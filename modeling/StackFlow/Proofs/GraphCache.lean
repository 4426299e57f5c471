import StackFlow.Engine
import StackFlow.Proofs.ReportKey

/-!
The cache of compiled graphs. Its entries are graphs of codes that were compiled before, each under
the fingerprint of its code, and the text under a fingerprint determines code that was read. Main
statement: as long as the digest tells the texts apart, every call gives the graph that the
compiler makes of the code, whatever the cache has kept or forgotten.
-/

namespace StackFlow

open Micheline (Code)

/-! ## What a cache is relied on for

A value that is found under a key was put there under this key, and nothing gets in that was not put
in. Which values make room for others, and when, is not relied on. -/

namespace Lru

variable {α : Type} {belongs : String → α → Prop}

/-- Every value in the cache belongs to its key. -/
def Holds (belongs : String → α → Prop) (c : Lru α) : Prop :=
  ∀ key a, (key, a) ∈ c.entries → belongs key a

theorem Holds.mono {weaker : String → α → Prop} {c : Lru α} (holds : c.Holds belongs)
    (weaken : ∀ key a, belongs key a → weaker key a) : c.Holds weaker := by
  intro key a among
  exact weaken key a (holds key a among)

/-- What is found under a key belongs to it, and looking for it adds nothing. -/
theorem Holds.get? {c c' : Lru α} {key : String} {a : α} (holds : c.Holds belongs)
    (found : c.get? key = some (a, c')) : belongs key a ∧ c'.Holds belongs := by
  obtain ⟨b, entry, same⟩ := Option.map_eq_some_iff.mp found
  cases same
  obtain ⟨front, back, entries, _⟩ := List.lookup_eq_some_iff.mp entry
  have own : belongs key a := holds key a (by simp [entries])
  refine ⟨own, ?_⟩
  intro key' a' among
  rcases List.mem_cons.mp among with first | other
  · cases first
    exact own
  · exact holds key' a' (List.mem_filter.mp other).1

/-- Whatever has to make room, only the new value is added. -/
theorem Holds.insert {c : Lru α} {key : String} {a : α} (holds : c.Holds belongs)
    (own : belongs key a) : (c.insert key a).Holds belongs := by
  intro key' a' among
  rcases List.mem_cons.mp (List.mem_of_mem_take among) with first | other
  · cases first
    exact own
  · exact holds key' a' (List.mem_filter.mp other).1

end Lru

/-! ## Fingerprints -/

namespace Micheline.Code

/-- Code that was read, alone or as part of a contract. -/
def WasRead (code : Code) : Prop :=
  (∃ source, Code.parse source = .ok code) ∨
    ∃ source c, Contract.parse source = .ok c ∧ c.code = code

theorem WasRead.named {code : Code} (read : code.WasRead) : codeNamed code = true := by
  rcases read with ⟨source, parsed⟩ | ⟨source, c, parsed, rfl⟩
  · unfold Code.parse at parsed
    split at parsed
    · exact code_ofValue_named parsed
    · cases parsed
  · exact Contract.parse_named parsed

/-- The canonical text determines code that was read, with its groups, its empty groups and its
empty code arguments. -/
theorem WasRead.text_inj {code code' : Code} (read : code.WasRead) (read' : code'.WasRead)
    (same : code.toJson.render = code'.toJson.render) : code = code' := by
  have tidy (code : Code) : code.toJson.isTidy = true := codeToJson_tidy code
  have values := Json.render_inj (tidy code) (tidy code') same
  exact codeToJson_inj code code' read.named read'.named (Json.Value.arr.inj values)

/-- The digest does not confuse the texts of any two of the codes. -/
def ToldApart (codes : List Code) : Prop :=
  ∀ code ∈ codes, ∀ code' ∈ codes, code.fingerprint = code'.fingerprint →
    code.toJson.render = code'.toJson.render

end Micheline.Code

/-! ## Calls of the compiler -/

namespace Engine

/-- The graphs of the codes, each compiled by the engine as the call before left it. -/
def graphs (e : Engine) : List Code → List Graph
  | [] => []
  | code :: codes => (e.compile code).1 :: (e.compile code).2.2.graphs codes

/-- The engine as a series of calls leaves it. -/
def afterCompiling (e : Engine) : List Code → Engine
  | [] => e
  | code :: codes => (e.compile code).2.2.afterCompiling codes

/-- Every graph in the cache is that of one of the codes, under its fingerprint. -/
def Remembers (e : Engine) (codes : List Code) : Prop :=
  ∀ cache ∈ e.cache,
    cache.Holds fun key g => ∃ code ∈ codes, key = code.fingerprint ∧ g = Graph.build code

theorem remembers_withCache (e : Engine) (size : Int) (codes : List Code) :
    (e.withCache size).Remembers codes := by
  intro cache kept
  unfold withCache at kept
  split at kept
  · cases kept
    intro key g among
    cases among
  · cases kept

/-- A call finds the graph in the cache, or makes it and puts it there. -/
theorem compile_cases (e : Engine) (code : Code) :
    (∃ cache g cache', e.cache = some cache ∧ cache.get? code.fingerprint = some (g, cache') ∧
      e.compile code = (g, true, { e with cache := some cache' })) ∨
    e.compile code = (Graph.build code, false,
      { e with cache := e.cache.map (·.insert code.fingerprint (Graph.build code)) }) := by
  obtain ⟨env, maxSteps, maxStacks, kept⟩ := e
  cases kept with
  | none =>
    right
    rfl
  | some cache =>
    cases found : cache.get? code.fingerprint with
    | none =>
      right
      simp [compile, found]
    | some entry =>
      left
      exact ⟨cache, entry.1, entry.2, rfl, found, by simp [compile, found]⟩

/-- A call gives the graph of the code, or of a code before it with the same fingerprint. -/
theorem compile_from {e : Engine} {codes : List Code} (remembers : e.Remembers codes)
    (code : Code) : ∃ code' ∈ code :: codes,
      code'.fingerprint = code.fingerprint ∧ (e.compile code).1 = Graph.build code' := by
  rcases e.compile_cases code with ⟨cache, g, cache', kept, found, result⟩ | result
  · obtain ⟨code', before, same, graph⟩ := ((remembers cache kept).get? found).1
    exact ⟨code', List.mem_cons_of_mem _ before, same.symm, by rw [result, graph]⟩
  · exact ⟨code, List.mem_cons_self, rfl, by rw [result]⟩

theorem remembers_compile {e : Engine} {codes : List Code} (remembers : e.Remembers codes)
    (code : Code) : (e.compile code).2.2.Remembers (code :: codes) := by
  have older (cache : Lru Graph) (kept : e.cache = some cache) : cache.Holds fun key g =>
      ∃ code' ∈ code :: codes, key = code'.fingerprint ∧ g = Graph.build code' := by
    refine (remembers cache kept).mono ?_
    rintro key g ⟨code', before, own⟩
    exact ⟨code', List.mem_cons_of_mem _ before, own⟩
  intro left after
  rcases e.compile_cases code with ⟨cache, g, cache', kept, found, result⟩ | result
  · rw [result] at after
    cases after
    exact ((older cache kept).get? found).2
  · rw [result] at after
    obtain ⟨cache, kept, rfl⟩ := Option.map_eq_some_iff.mp after
    exact (older cache kept).insert ⟨code, List.mem_cons_self, rfl, rfl⟩

/-- If codes with one fingerprint have one graph, the cache cannot be seen. -/
theorem graphs_eq {e : Engine} {before codes : List Code} (remembers : e.Remembers before)
    (alike : ∀ code ∈ before ++ codes, ∀ code' ∈ before ++ codes,
      code.fingerprint = code'.fingerprint → Graph.build code = Graph.build code') :
    e.graphs codes = codes.map Graph.build := by
  induction codes generalizing e before with
  | nil => rfl
  | cons code codes ih =>
    obtain ⟨code', among, same, graph⟩ := compile_from remembers code
    have earlier : code' ∈ before ++ code :: codes := by
      rcases List.mem_cons.mp among with rfl | among
      · simp
      · simp [among]
    have first : (e.compile code).1 = Graph.build code := by
      rw [graph, alike code' earlier code (by simp) same]
    have others := ih (remembers_compile remembers code) fun a one b other =>
      alike a (List.perm_middle.mem_iff.mpr one) b (List.perm_middle.mem_iff.mpr other)
    rw [graphs, first, others, List.map_cons]

/-- The cache of graphs cannot be seen: whatever its size, every call of a series gives the graph
of its code, if the digest tells the texts of the codes apart. -/
theorem graph_cache_unseen (e : Engine) (size : Int) {codes : List Code}
    (read : ∀ code ∈ codes, code.WasRead) (apart : Code.ToldApart codes) :
    (e.withCache size).graphs codes = codes.map Graph.build := by
  refine graphs_eq (remembers_withCache e size []) ?_
  intro code among code' among' same
  rw [(read code among).text_inj (read code' among') (apart code among code' among' same)]

/-! ## Codes that take turns in a cache for one graph -/

section Crowded

open Micheline (decodeInstruction decodeCode decodeArgs)
open Json (Value)

def emptyGroup : Code := [.group []]

def emptyBlock : Code := [.op "DIP" [] [.code []]]

theorem parse_emptyGroup : Code.parse "[[]]" = .ok emptyGroup := by
  have value : Json.readLeading? "[[]]" = some (.arr [.arr []]) := by cbv
  simp only [Code.parse, value]
  simp [Code.ofValue, decodeInstruction, decodeCode, emptyGroup, bind, Except.bind, pure,
    Except.pure]
  rfl

theorem parse_emptyBlock : Code.parse "[\x7b\"prim\":\"DIP\",\"args\":[[]]\x7d]" = .ok emptyBlock := by
  have value : Json.readLeading? "[\x7b\"prim\":\"DIP\",\"args\":[[]]\x7d]" =
      some (.arr [primValue "DIP" [.arr []]]) := by cbv
  simp only [Code.parse, value]
  simp [Code.ofValue, decodeInstruction, decodeCode, decodeArgs, decodeInstruction_primValue,
    emptyBlock, bind, Except.bind, pure, Except.pure]
  rfl

theorem fingerprints_apart : emptyGroup.fingerprint ≠ emptyBlock.fingerprint := by
  decide +kernel

/-- In a cache for one graph each of the two codes makes room for the other. -/
theorem crowded_cache_unseen :
    (({} : Engine).withCache 1).graphs [emptyGroup, emptyBlock, emptyGroup, emptyGroup] =
      [Graph.build emptyGroup, Graph.build emptyBlock, Graph.build emptyGroup,
        Graph.build emptyGroup] := by
  have group : emptyGroup.WasRead := .inl ⟨_, parse_emptyGroup⟩
  have block : emptyBlock.WasRead := .inl ⟨_, parse_emptyBlock⟩
  refine graph_cache_unseen {} 1 ?_ ?_
  · simp [group, block]
  · simp [Code.ToldApart, fingerprints_apart, fingerprints_apart.symm]

end Crowded

end Engine

end StackFlow
