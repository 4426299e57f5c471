import StackFlow.Proofs.Depths

/-!
Compiled graphs are well formed: the nodes are numbered by their positions, all targets are nodes,
and all nodes but the terminal one are reached from the root, which leads to one end. Main statement:
so are the graphs of all code, and for tame code the checks pass exactly if its tubes hold
straight-line instructions of the table only.
-/

namespace StackFlow

open Micheline (Instruction Code)

/-- A node at the position `id`: a tube without branching instructions that has a next node in the
graph, or none; or a joint, named for its kind, with two edges in the graph. -/
inductive Node.Proper (g : Graph) (id : Int) : Node → Prop where
  | tube {code : Code} {next : Int} : (∀ i ∈ code, Joint.ofName? i.name = none) →
      next = noNode ∨ (g.node? next).isSome → Proper g id (.tube id code next)
  | joint {j : Joint} {p q : Int} : (g.node? p).isSome → (g.node? q).isSome →
      Proper g id (.fork id j.name [p, q])

namespace Graph

structure WellFormed (g : Graph) : Prop where
  terminal : g.node? terminalId = some (.tube terminalId [] noNode)
  root : ∃ code next, g.node? g.root = some (.tube g.root code next)
  nodes : ∀ id n, g.node? id = some n → n.Proper g id
  reached : ∀ id, (g.node? id).isSome → id ≠ terminalId → g.Reaches id
  ending : ∃! id, g.Reaches id ∧ ∃ code, g.node? id = some (.tube id code noNode)

/-- Tubes hold instructions that the table of straight-line instructions has. -/
def Tabled (g : Graph) : Prop :=
  ∀ id n, g.node? id = some n → n.kind = .tube → ∀ i ∈ n.code, (Rule.ofName? i.name).isSome

/-- A terminal node and a region behind it, which ends in a tube. -/
structure Closes (g : Graph) (x : Int) : Prop where
  terminal : g.node? terminalId = some (.tube terminalId [] noNode)
  region : g.Region 1 g.size g.root x
  ends : ∃ code, g.node? x = some (.tube x code noNode)

section Closes

variable {g : Graph} {x id t : Int} {n : Node}

theorem reaches_of_leads (leads : g.Leads g.root id) : g.Reaches id := by
  induction leads with
  | refl => exact .root
  | @tail here target _ step ih =>
    unfold successorsOf at step
    cases found : g.node? here with
    | none => simp [found] at step
    | some n => exact .step ih found (by simpa [found] using step)

theorem position_behind (present : (g.node? id).isSome) (other : id ≠ terminalId) :
    ∃ k : Nat, id = k ∧ 1 ≤ k ∧ k < g.size := by
  obtain ⟨k, below, same⟩ := List.mem_map.mp (node?_positions present)
  have upper := List.mem_range.mp below
  refine ⟨k, same.symm, ?_, upper⟩
  by_contra zero
  have first : k = 0 := by omega
  exact other (by rw [← same, first]; rfl)

theorem target_present (closes : g.Closes x) (among : Among 1 g.size x t) :
    (g.node? t).isSome := by
  rcases among with rfl | ⟨lower, upper⟩
  · obtain ⟨code, found⟩ := closes.ends
    simp [found]
  · obtain ⟨k, rfl⟩ := Int.eq_ofNat_of_zero_le (show 0 ≤ t by omega)
    cases closes.region.nodes k (by omega) (by omega) with
    | tube found => simp [found]
    | joint found => simp [found]

theorem target_active (closes : g.Closes x) (among : Among 1 g.size x t) : t ≠ noNode := by
  rintro rfl
  have present := target_present closes among
  rw [node?_noNode] at present
  cases present

theorem node_sort (closes : g.Closes x) (found : g.node? id = some n) :
    (∃ code next, n = .tube id code next ∧ (∀ i ∈ code, Joint.ofName? i.name = none) ∧
      (Among 1 g.size x next ∨ next = noNode ∧ (id = x ∨ id = terminalId))) ∨
    ∃ j : Joint, ∃ p q, n = .fork id j.name [p, q] ∧ Among 1 g.size x p ∧ Among 1 g.size x q := by
  by_cases last : id = terminalId
  · rw [last] at found ⊢
    cases Option.some.inj (closes.terminal.symm.trans found)
    exact .inl ⟨[], noNode, rfl, by simp, .inr ⟨rfl, .inr rfl⟩⟩
  · have present : (g.node? id).isSome := by simp [found]
    obtain ⟨k, rfl, lower, upper⟩ := position_behind present last
    cases closes.region.nodes k lower upper with
    | tube there straight target =>
      cases Option.some.inj (there.symm.trans found)
      refine .inl ⟨_, _, rfl, straight, target.imp_right ?_⟩
      rintro ⟨none, same⟩
      exact ⟨none, .inl same⟩
    | joint there first second =>
      cases Option.some.inj (there.symm.trans found)
      exact .inr ⟨_, _, _, rfl, first, second⟩

theorem reaches_among (closes : g.Closes x) (reaches : g.Reaches id) : Among 1 g.size x id := by
  induction reaches with
  | root => exact closes.region.enters
  | @step id target n _ found member ih =>
    rcases node_sort closes found with ⟨code, next, rfl, _, goes⟩ | ⟨j, p, q, rfl, first, second⟩
    · rcases goes with among | ⟨rfl, _⟩
      · have active := target_active closes among
        have same : target = next := by simpa [Node.successors, Node.tube, active] using member
        rwa [same]
      · simp [Node.successors, Node.tube] at member
    · have either : target = p ∨ target = q := by
        simpa [Node.successors, Node.fork] using member
      rcases either with rfl | rfl
      · exact first
      · exact second

theorem one_ending (closes : g.Closes x) :
    ∃! id, g.Reaches id ∧ ∃ code, g.node? id = some (.tube id code noNode) := by
  obtain ⟨code, found⟩ := closes.ends
  refine ⟨x, ⟨reaches_of_leads (closes.region.reach x (.inl rfl)), code, found⟩, ?_⟩
  rintro id ⟨reaches, other, there⟩
  have among := reaches_among closes reaches
  rcases node_sort closes there with ⟨_, next, same, _, goes⟩ | ⟨j, p, q, same, _⟩
  · cases same
    rcases goes with active | ⟨_, same | ends⟩
    · exact absurd rfl (target_active closes active)
    · exact same
    · -- the terminal node is reached only if the region ends there
      rcases among with same | ⟨lower, _⟩
      · exact same
      · rw [ends, terminalId] at lower
        omega
  · cases same

theorem wellFormed_of_closes (closes : g.Closes x)
    (root : ∃ code next, g.node? g.root = some (.tube g.root code next)) : g.WellFormed := by
  constructor
  · exact closes.terminal
  · exact root
  · intro id n found
    rcases node_sort closes found with
      ⟨code, next, rfl, straight, goes⟩ | ⟨j, p, q, rfl, first, second⟩
    · refine .tube straight ?_
      rcases goes with among | ⟨last, _⟩
      · exact .inr (target_present closes among)
      · exact .inl last
    · exact .joint (target_present closes first) (target_present closes second)
  · intro id present other
    obtain ⟨k, rfl, lower, upper⟩ := position_behind present other
    exact reaches_of_leads (closes.region.reach k (.inr ⟨by omega, by omega⟩))
  · exact one_ending closes

theorem charted_reaches {known : String → Bool} {depth : Int → Option Int}
    (chart : g.Charted known depth) (wellFormed : g.WellFormed) (reaches : g.Reaches id) :
    (depth id).isSome := by
  induction reaches with
  | root => simp [chart.root]
  | @step id target n _ found member ih =>
    obtain ⟨d, level⟩ := Option.isSome_iff_exists.mp ih
    obtain ⟨m, there, _, targets⟩ := chart.node id d level
    cases Option.some.inj (there.symm.trans found)
    have sort : n.kind ≠ .other := by
      cases wellFormed.nodes id n found with
      | tube => simp [Node.tube]
      | joint => simp [Node.fork]
    have all : (checkNode known id n d).1.map Prod.fst = n.successors := checkNode_targets sort
    rw [← all] at member
    obtain ⟨t, sent, rfl⟩ := List.mem_map.mp member
    simp [targets t sent]

end Closes

end Graph

section Build

variable {code : Code}

theorem build_closes (code : Code) : ∃ x, (Graph.build code).Closes x := by
  obtain ⟨x, ends, region⟩ := made_region (build_made code)
  rw [Graph.Ends, if_pos rfl] at ends
  exact ⟨x, build_terminal code, region, ends.1⟩

theorem build_wellFormed (code : Code) : (Graph.build code).WellFormed := by
  obtain ⟨x, closes⟩ := build_closes code
  refine Graph.wellFormed_of_closes closes ?_
  obtain ⟨id, rest, next, root⟩ := build_root code
  rcases Graph.node_sort closes root with ⟨_, _, same, _⟩ | ⟨_, _, _, same, _⟩
  · cases same
    exact ⟨rest, next, root⟩
  · cases same

/-- A valid graph of compiled code holds only instructions of the table in its tubes. -/
theorem build_tabled (valid : (Graph.build code).validate supports = .ok ()) :
    (Graph.build code).Tabled := by
  have wellFormed := build_wellFormed code
  have chart := Graph.charted_of_validate valid
  intro id n found tube i member
  have active : id ≠ terminalId := by
    rintro rfl
    cases Option.some.inj (wellFormed.terminal.symm.trans found)
    simp [Node.tube] at member
  have reaches := wellFormed.reached id (by simp [found]) active
  obtain ⟨d, level⟩ := Option.isSome_iff_exists.mp (Graph.charted_reaches chart wellFormed reaches)
  obtain ⟨m, there, passed, _⟩ := chart.node id d level
  cases Option.some.inj (there.symm.trans found)
  have named := Graph.checkTube_known (Graph.checkNode_tube tube passed) i member
  cases wellFormed.nodes id n found with
  | tube straight => simpa [supports, straight i member] using named
  | joint => cases tube

/-! ## Main statement -/

/-- Compiled graphs are well formed, and for tame code the checks pass exactly if the tubes hold
instructions of the table only. -/
theorem compiled_graphs_well_formed (code : Code) : (Graph.build code).WellFormed ∧
    (Tame code → ((Graph.build code).validate supports = .ok () ↔ (Graph.build code).Tabled)) := by
  refine ⟨build_wellFormed code, fun tame => ⟨build_tabled, fun tabled => build_valid tame ?_⟩⟩
  intro id n found tube i member
  simp [supports, tabled id n found tube i member]

end Build

def guardingJoint : Instruction := .op "IF" [] [.code [], .code [.op "FAILWITH" [] []]]

def idleBlock : Instruction := .op "DIP" [] [.literal (.int "0"), .code [guardingJoint]]

def deepIteration : Instruction := .op "ITER" [] [.code [idleBlock]]

def deepestBlock : Instruction :=
  .op "DIP" [] [.literal (.int "9223372036854775806"), .code [deepIteration]]

theorem deepestBlock_nested {r : Int} {c : Code} (nested : Nested [deepestBlock] r c) :
    c = [] ∨ r = 0 ∧ c = [deepestBlock] ∨ r = greatestWord - 1 ∧ c = [deepIteration] ∨
      r = greatestWord ∧ (c = [idleBlock] ∨ c = [guardingJoint] ∨ c = [.op "FAILWITH" [] []]) := by
  induction nested with
  | whole => simp
  | rest _ ih =>
    left
    rcases ih with h | ⟨_, h⟩ | ⟨_, h⟩ | ⟨_, h | h | h⟩ <;> cases h <;> rfl
  | group _ group ih =>
    rcases ih with h | ⟨_, h⟩ | ⟨_, h⟩ | ⟨_, h | h | h⟩ <;> cases h <;> cases group
  | dip _ dip ih =>
    rcases ih with h | ⟨rfl, h⟩ | ⟨_, h⟩ | ⟨rfl, h | h | h⟩ <;> cases h
    · exact .inr (.inr (.inl ⟨by decide, rfl⟩))
    · exact absurd dip (by decide)
    · exact .inr (.inr (.inr ⟨by decide, .inr (.inl rfl)⟩))
    · exact absurd dip (by decide)
    · exact absurd dip (by decide)
  | @arm r i is j k _ found branches small ih =>
    rcases ih with h | ⟨_, h⟩ | ⟨_, h⟩ | ⟨same, h | h | h⟩ <;> cases h <;> cases found
    · cases branches
    · match k, small with
      | 0, _ => exact .inl rfl
      | 1, _ => exact .inr (.inr (.inr ⟨same, .inr (.inr rfl)⟩))
  | turn _ found loops ih =>
    rcases ih with h | ⟨_, h⟩ | ⟨rfl, h⟩ | ⟨_, h | h | h⟩ <;> cases h <;> cases found
    · exact .inr (.inr (.inr ⟨by decide, .inl rfl⟩))
    · cases loops

theorem deepestBlock_tame : Tame [deepestBlock] := by
  refine ⟨?_, ?_, ?_⟩
  · intro r i is nested
    rcases deepestBlock_nested nested with h | ⟨_, h⟩ | ⟨_, h⟩ | ⟨_, h | h | h⟩ <;> cases h <;> rfl
  · intro r i is nested dip
    rcases deepestBlock_nested nested with h | ⟨rfl, h⟩ | ⟨_, h⟩ | ⟨rfl, h | h | h⟩ <;> cases h
    · decide
    · exact absurd dip (by decide)
    · decide
    · exact absurd dip (by decide)
    · exact absurd dip (by decide)
  · intro r i is nested
    rcases deepestBlock_nested nested with h | ⟨rfl, _⟩ | ⟨rfl, _⟩ | ⟨rfl, _⟩
    · cases h
    · decide
    · decide
    · decide

def deepestGraph : Graph :=
  { nodes := #[.tube 0 [] noNode, .tube 1 [marker (-9223372036854775806)] noNode,
      .tube 2 [marker 9223372036854775806] 3, .fork 3 "ITER" [6, 1], .tube 4 [marker (-1)] 3,
      .tube 5 [marker 0] 4, .tube 6 [marker 0] 7, .fork 7 "IF" [8, 9], .tube 8 [] 5,
      .tube 9 [.op "FAILWITH" [] []] 5]
    root := 2 }

theorem build_deepestBlock : Graph.build [deepestBlock] = deepestGraph := by
  cbv

theorem deepestGraph_tabled : deepestGraph.Tabled := by
  have all : ∀ n ∈ deepestGraph.nodes.toList, n.kind = .tube → ∀ i ∈ n.code,
      (Rule.ofName? i.name).isSome := by decide
  exact fun id n found => all n (Graph.mem_of_node? found)

/-- At the greatest depth of a word the markers still balance. -/
theorem deepest_block_valid :
    Tame [deepestBlock] ∧ (Graph.build [deepestBlock]).validate supports = .ok () := by
  obtain ⟨_, valid⟩ := compiled_graphs_well_formed [deepestBlock]
  refine ⟨deepestBlock_tame, (valid deepestBlock_tame).mpr ?_⟩
  rw [build_deepestBlock]
  exact deepestGraph_tabled

end StackFlow
