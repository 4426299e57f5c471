import StackFlow.Contract
import StackFlow.Graph.Build
import StackFlow.Proofs.Locality
import StackFlow.Proofs.Valve

/-!
The operands of symbolic values. Along a run every item is made by rules and joints from items of
the run, so what they all keep holds at every depth. Main statement: in a run from the first stack of
a contract every item that an instruction made has as many operands as is declared, none of them
absent, and simplification leaves the number of operands of what it keeps.
-/

namespace StackFlow

open Micheline (Code Instruction)

namespace Item

/-- `Occurs y x`: the item `y` is `x` or is found among its operands, at any depth. -/
inductive Occurs (y : Item) : Item → Prop where
  | here : Occurs y y
  | operand {x z : Item} : z ∈ x.operands → Occurs y z → Occurs y x

/-- The item is present, and the number of its operands is what its producer declares. -/
structure HasArity (x : Item) : Prop where
  present : x ≠ .absent
  count : x.producer ≠ "" → declaredCount? x.producer x.operands = some x.operands.length

/-- All that occurs in the item has its arity. -/
def Complete (x : Item) : Prop := ∀ y : Item, y.Occurs x → y.HasArity

variable {x y z : Item}

theorem Occurs.trans (inner : x.Occurs y) (outer : y.Occurs z) : x.Occurs z := by
  induction outer with
  | here => exact inner
  | operand member _ ih => exact .operand member ih

/-- What holds of all that occurs in an item holds of the item and of all that occurs in its
operands. -/
theorem forall_occurs {P : Item → Prop} : (∀ y : Item, y.Occurs x → P y) ↔
    P x ∧ ∀ z ∈ x.operands, ∀ y : Item, y.Occurs z → P y := by
  constructor
  · intro all
    exact ⟨all x .here, fun z member y occurs => all y (.operand member occurs)⟩
  · rintro ⟨own, parts⟩ y occurs
    cases occurs with
    | here => exact own
    | operand member inside => exact parts _ member y inside

theorem complete_iff : x.Complete ↔ x.HasArity ∧ ∀ z ∈ x.operands, z.Complete := forall_occurs

/-- Induction over an item by its operands. -/
@[elab_as_elim]
theorem operandInduction {P : Item → Prop} (step : ∀ x : Item, (∀ z ∈ x.operands, P z) → P x) :
    ∀ x : Item, P x
  | .absent => step _ nofun
  | .node _ _ _ _ ops => step _ fun z (_ : z ∈ ops) => operandInduction step z

theorem complete_node {t : Ty} {annots : List String} {producer : String}
    {literal : Option Literal} {ops : List Item} (parts : ∀ z ∈ ops, z.Complete)
    (count : producer ≠ "" → declaredCount? producer ops = some ops.length) :
    (node t annots producer literal ops).Complete :=
  complete_iff.mpr ⟨⟨nofun, count⟩, parts⟩

theorem formed_complete : Formed Complete where
  value := fun _ _ _ parts => complete_node parts fun made => absurd rfl made
  result := fun _ _ _ parts count => complete_node parts fun _ => count
  withTy := by
    intro x t complete
    obtain ⟨own, parts⟩ := complete_iff.mp complete
    cases x with
    | absent => exact absurd rfl own.present
    | node => exact complete_node parts own.count
  withAnnots := by
    intro x annots complete
    obtain ⟨own, parts⟩ := complete_iff.mp complete
    cases x with
    | absent => exact absurd rfl own.present
    | node => exact complete_node parts own.count
  operand := fun x complete => (complete_iff.mp complete).2

end Item

/-! ## Items along a run -/

section Nodes

variable {P : Item → Prop} (formed : Formed P) {s s' x y t : Stack} {i : Instruction} {code : Code}
  {n : Node}

include formed

theorem single_formed {x : Item} (good : P x) (ty : Ty) (producer : String)
    (fits : (producer != "CONCAT" && fixedCount? producer == some 1) = true) :
    P (.derived ty producer [x]) :=
  formed.result _ _ _ (List.forall_mem_singleton.mpr good) (declaredCount_fixed fits)

theorem step_all (all : s.All P) {u : Unit} (stepped : (Stack.step i).run s = .ok u s') :
    s'.All P := by
  rcases step_local (formed.yields i) all.within all.visible stepped with
    ⟨v, rfl, kept, _⟩ | ⟨_, shifted⟩ | ⟨_, reason, rest, shown, rfl⟩
  · exact all.withVisible kept
  · exact all.shift shifted
  · have good := all.visible reason (by rw [shown]; exact List.mem_cons_self)
    exact ⟨rfl, List.forall_mem_singleton.mpr (single_formed formed good _ _ (by decide))⟩

theorem runCode_all (all : s.All P) (ran : runCode code s = .ok s') : s'.All P := by
  induction code generalizing s with
  | nil =>
    cases ran
    exact all
  | cons i is ih =>
    unfold runCode at ran
    split at ran
    · cases ran
      exact all
    · split at ran
      · rename_i stepped
        exact ih (step_all formed all stepped) ran
      · cases ran

theorem joints_formed : Joint.Preserves P where
  payloads := by
    intro guard good j
    have single (ty : Ty) (label : String) := single_formed formed good ty label
    cases j with
    | cond | loop | iter => exact ⟨nofun, nofun⟩
    | condLeft | loopLeft =>
      exact ⟨List.forall_mem_singleton.mpr (single _ _ (by decide)),
        List.forall_mem_singleton.mpr (single _ _ (by decide))⟩
    | condNone => exact ⟨nofun, List.forall_mem_singleton.mpr (single _ _ (by decide))⟩
    | condCons =>
      exact ⟨List.forall_mem_cons.mpr ⟨single _ _ (by decide),
        List.forall_mem_singleton.mpr (single _ _ (by decide))⟩, nofun⟩
  elem := fun guard good => single_formed formed good _ _ (by decide)
  rest := fun guard good => single_formed formed good _ _ (by decide)

/-- What a node puts out keeps the invariant, failures included. -/
theorem flow_all {outs : List Flight} (all : s.All P) (flowed : flow n s = .ok outs) :
    ∀ o ∈ outs, o.stack.All P := by
  intro o member
  rcases flow_cases flowed with ⟨_, s', ran, rfl⟩ | ⟨_, x, y, t, a, b, branched, _, rfl⟩
  · rw [List.mem_singleton.mp member]
    have kept := runCode_all formed all ran
    exact ⟨kept.within, kept.items⟩
  · obtain ⟨first, second⟩ := split_all (joints_formed formed) all branched
    rcases List.mem_pair.mp member with rfl | rfl
    · exact first
    · exact second

end Nodes

/-! ## Valves -/

namespace Valve

/-- The valve has the stack in its frontier or in its books. -/
def Holds (v : Valve) (s : Stack) : Prop :=
  (∃ f ∈ v.frontier, f.stack = s) ∨ (∃ f ∈ v.finished, f.stack = s) ∨
    (∃ f ∈ v.failed, f.stack = s) ∨ ∃ id, s ∈ v.memoAt id

variable {g : Graph} {initial : Stack} {budget : Int} {tag : String} {k : Nat} {v : Valve}

/-- What holds of the stacks of the frontier and of what nodes put out holds of all stacks of a
passage. -/
theorem passage_stacks {Q : Stack → Prop} {f : Flight} {p : Passage} (front : Q f.stack)
    (passes : ∀ n s outs o, Q s → flow n s = .ok outs → o ∈ outs → Q o.stack)
    (crossed : v.passage f = .ok p) :
    (∀ o ∈ p.next, Q o.stack) ∧ (∀ o ∈ p.finished, Q o.stack) ∧ (∀ o ∈ p.failed, Q o.stack) ∧
      ∀ entry ∈ p.recorded, Q entry.2 := by
  rcases passage_ok crossed with ⟨_, rfl⟩ | ⟨n, outs, _, _, flowed, rfl⟩
  · exact ⟨nofun, List.forall_mem_singleton.mpr front, nofun, nofun⟩
  · have out : ∀ o ∈ outs, Q o.stack := fun o member => passes n f.stack outs o front flowed member
    refine ⟨fun o member => out o (List.mem_of_mem_filter member),
      fun o member => out o (List.mem_of_mem_filter member), ?_, ?_⟩
    · intro o member
      obtain ⟨o', among, rfl⟩ := List.mem_map.mp member
      exact out o' (List.mem_of_mem_filter among)
    · intro entry member
      obtain ⟨o, among, rfl⟩ := List.mem_map.mp member
      exact out o among

/-- What holds of the first stack and of what each node puts out holds of all stacks of a run. -/
theorem advances_stacks {Q : Stack → Prop} (seed : Q initial)
    (passes : ∀ n s outs o, Q s → flow n s = .ok outs → o ∈ outs → Q o.stack)
    (run : Advances k (opened g initial budget tag) v) {s : Stack} (holds : v.Holds s) : Q s := by
  generalize start : opened g initial budget tag = v₀ at run
  induction run generalizing s with
  | none =>
    subst start
    rcases holds with ⟨f, member, rfl⟩ | ⟨f, member, _⟩ | ⟨f, member, _⟩ | ⟨id, member⟩
    · rw [List.mem_singleton.mp member]
      exact seed
    · exact absurd member (Array.not_mem_empty f)
    · exact absurd member (Array.not_mem_empty f)
    · exact absurd member List.not_mem_nil
  | @step k v₀ v v' canceled entries before accepted ih =>
    -- a stack that is held was held before, or a passage of the step has put it out
    obtain ⟨ps, passed, rfl⟩ := advance_ok accepted
    have crossed : ∀ p ∈ ps, (∀ o ∈ p.next, Q o.stack) ∧ (∀ o ∈ p.finished, Q o.stack) ∧
        (∀ o ∈ p.failed, Q o.stack) ∧ ∀ entry ∈ p.recorded, Q entry.2 := by
      intro p member
      obtain ⟨f, front, crossed⟩ := passage_of_mem passed member
      exact passage_stacks (ih (.inl ⟨f, front, rfl⟩) start) passes crossed
    rcases holds with ⟨f, member, rfl⟩ | ⟨f, member, rfl⟩ | ⟨f, member, rfl⟩ | ⟨id, member⟩
    · obtain ⟨p, among, inside⟩ := List.mem_flatMap.mp member
      exact (crossed p among).1 f inside
    · rcases mem_appendList.mp member with old | new
      · exact ih (.inr (.inl ⟨f, old, rfl⟩)) start
      · obtain ⟨p, among, inside⟩ := List.mem_flatMap.mp new
        exact (crossed p among).2.1 f inside
    · rcases mem_appendList.mp member with old | new
      · exact ih (.inr (.inr (.inl ⟨f, old, rfl⟩))) start
      · obtain ⟨p, among, inside⟩ := List.mem_flatMap.mp new
        exact (crossed p among).2.2.1 f inside
    · rw [memoAt_commit passed, List.mem_append] at member
      rcases member with old | new
      · exact ih (.inr (.inr (.inr ⟨id, old⟩))) start
      · obtain ⟨p, among, inside⟩ := List.mem_flatMap.mp (mem_stacksOf.mp new)
        exact (crossed p among).2.2.2 (id, s) inside

end Valve

/-! ## Simplified items -/

namespace Item

mutual

theorem simplify_unchanged : ∀ x : Item, x.simplify.2 = false → x.simplify.1 = x
  | .absent, _ => rfl
  | .node t annots producer literal ops, unchanged => by
    simp only [simplify] at unchanged ⊢
    split at unchanged
    · cases unchanged
    · split at unchanged
      · cases unchanged
      · rename_i same
        simp [same]

theorem simplifyAll_unchanged : ∀ xs : List Item, (simplifyAll xs).2 = false →
    (simplifyAll xs).1 = xs
  | [], _ => rfl
  | x :: xs, unchanged => by
    simp only [simplifyAll, Bool.or_eq_false_iff] at unchanged ⊢
    rw [simplify_unchanged x unchanged.1, simplifyAll_unchanged xs unchanged.2]

end

theorem simplifyAll_eq (xs : List Item) : (simplifyAll xs).1 = xs.map reduce := by
  induction xs with
  | nil => rfl
  | cons x xs ih =>
    rw [List.map_cons, ← ih]
    rfl

theorem reduce_node (t : Ty) (annots : List String) (producer : String) (literal : Option Literal)
    (ops : List Item) : (node t annots producer literal ops).reduce =
      (collapse? producer (ops.map reduce)).getD
        (node t annots producer literal (ops.map reduce)) := by
  rw [← simplifyAll_eq, reduce, simplify]
  dsimp only
  cases collapse? producer (simplifyAll ops).1 with
  | some x => rfl
  | none =>
    cases changed : (simplifyAll ops).2 with
    | true => simp
    | false => simp [simplifyAll_unchanged ops changed]

theorem projected_operand {producer : String} {src w : Item}
    (found : projected? producer src = some w) : w ∈ src.operands := by
  unfold projected? at found
  split at found
  · exact List.mem_of_getElem? (Option.ite_none_right_eq_some.mp found).2
  · exact List.mem_of_getElem? (Option.ite_none_right_eq_some.mp found).2
  · split at found
    · rename_i first
      obtain ⟨_, same⟩ := Option.ite_none_right_eq_some.mp found
      cases same
      rw [first]
      exact List.mem_cons_self
    · cases found

/-- A node collapses to an operand of its only operand. -/
theorem collapse_operand {producer : String} {ops : List Item} {w : Item}
    (found : collapse? producer ops = some w) : ∃ src, ops = [src] ∧ w ∈ src.operands := by
  unfold collapse? at found
  split at found
  · exact ⟨_, rfl, projected_operand (Option.ite_none_left_eq_some.mp found).2⟩
  · cases found

/-- What is left of an item by simplification is a part of it that did not collapse, with each of its
operands simplified. -/
theorem occurs_reduce : ∀ (x : Item) {y : Item}, y.Occurs x.reduce →
    ∃ z : Item, z.Occurs x ∧ y = z.reduce ∧ y.producer = z.producer ∧
      y.operands = z.operands.map reduce
  | .absent, y, occurs => by
    cases occurs with
    | here => exact ⟨.absent, .here, rfl, rfl, rfl⟩
    | operand member => cases member
  | .node t annots producer literal ops, y, occurs => by
    rw [reduce_node] at occurs
    cases collapsed : collapse? producer (ops.map reduce) with
    | some w =>
      -- a projection gives way to a component of its operand, which was simplified before
      rw [collapsed] at occurs
      obtain ⟨src, single, member⟩ := collapse_operand collapsed
      obtain ⟨o, rfl, rfl⟩ := List.map_eq_singleton_iff.mp single
      obtain ⟨z, inside, kept⟩ := occurs_reduce o (occurs.trans (.operand member .here))
      exact ⟨z, .operand List.mem_cons_self inside, kept⟩
    | none =>
      rw [collapsed] at occurs
      cases occurs with
      | here => exact ⟨_, .here, by rw [reduce_node, collapsed, Option.getD_none], rfl, rfl⟩
      | operand member inside =>
        obtain ⟨o, among, rfl⟩ := List.mem_map.mp member
        obtain ⟨z, found, kept⟩ := occurs_reduce o inside
        exact ⟨z, .operand among found, kept⟩

end Item

/-! ## Main statement -/

theorem initialStack_all (c : Contract) (env : Env) : (c.initialStack env).All Item.Complete := by
  have leaf (t : Ty) (annots : List String) : (Item.placeholder t annots).Complete :=
    Item.complete_node nofun fun made => absurd rfl made
  refine ⟨rfl, List.forall_mem_singleton.mpr (Item.complete_node ?_ fun made => absurd rfl made)⟩
  exact List.forall_mem_cons.mpr ⟨leaf _ _, List.forall_mem_singleton.mpr (leaf _ _)⟩

/-- Whatever occurs in an item of a run is present and has the operands that its producer declares;
what simplification leaves of any item is a part of it, with its operands simplified one by one and
none of them dropped or added. -/
theorem items_have_arity (c : Contract) (env : Env) {g : Graph} {budget : Int} {tag : String}
    {k : Nat} {v : Valve} (run : Valve.Advances k (Valve.opened g (c.initialStack env) budget tag) v) :
    (∀ s : Stack, v.Holds s → ∀ x ∈ s.items, ∀ y : Item, y.Occurs x → y.HasArity) ∧
    ∀ x y : Item, y.Occurs x.reduce → ∃ z : Item, z.Occurs x ∧ y = z.reduce ∧
      y.producer = z.producer ∧ y.operands = z.operands.map Item.reduce ∧
      y.operands.length = z.operands.length := by
  constructor
  · intro s holds x member
    have all : s.All Item.Complete := Valve.advances_stacks (initialStack_all c env)
      (fun n s outs o all flowed => flow_all Item.formed_complete all flowed o) run holds
    exact all.items x member
  · intro x y occurs
    obtain ⟨z, inside, reduced, same, operands⟩ := Item.occurs_reduce x occurs
    exact ⟨z, inside, reduced, same, operands, by rw [operands, List.length_map]⟩

/-- A contract that joins the texts of a list, the first one last. -/
def joiningContract : Contract :=
  { parameter := .app "list" [.leaf "string"], storage := .leaf "unit"
    code := [.op "CAR" [] [], .op "IF_CONS" []
      [.code [.op "SWAP" [] [], .op "CONCAT" [] [], .op "CONCAT" [] []],
        .code [.op "UNIT" [] [], .op "FAILWITH" [] []]]] }

theorem build_joining : Graph.build joiningContract.code =
    { nodes := #[.tube 0 [] noNode, .tube 1 [.op "CAR" [] []] 2, .fork 2 "IF_CONS" [3, 4],
        .tube 3 [.op "SWAP" [] [], .op "CONCAT" [] [], .op "CONCAT" [] []] 0,
        .tube 4 [.op "UNIT" [] [], .op "FAILWITH" [] []] 0]
      root := 1 } := by
  cbv

/-- A concatenation of two texts, of which one is the concatenation of a list. -/
theorem joined_items_have_arity : ∃ v,
    Valve.Advances 4 (Valve.opened (Graph.build joiningContract.code)
      (joiningContract.initialStack Env.default) 0 "") v ∧
    v.finished.toList.map (fun f => f.stack.items.map fun x =>
      (x.producer, x.operands.map Item.producer)) = [[("CONCAT", ["CONCAT", "IF_CONS.head"])]] ∧
    ∀ s : Stack, v.Holds s → ∀ x ∈ s.items, ∀ y : Item, y.Occurs x → y.HasArity := by
  have run : ∃ v, Valve.Advances 4 (Valve.opened (Graph.build joiningContract.code)
      (joiningContract.initialStack Env.default) 0 "") v ∧
    v.finished.toList.map (fun f => f.stack.items.map fun x =>
      (x.producer, x.operands.map Item.producer)) = [[("CONCAT", ["CONCAT", "IF_CONS.head"])]] := by
    rw [build_joining]
    exact ⟨_, .next (.next (.next (.next .none rfl) rfl) rfl) rfl, rfl⟩
  obtain ⟨v, steps, joined⟩ := run
  exact ⟨v, steps, joined, (items_have_arity joiningContract Env.default steps).1⟩

end StackFlow
