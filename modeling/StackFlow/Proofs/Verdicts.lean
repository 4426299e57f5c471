import Mathlib
import StackFlow.Proofs.Chart

/-!
Which graphs are valid. Depths are consistent when every node that the root leads to holds names of
the table only and sends stacks on to nodes of the graph, at the depths that these have. Main
statement: a graph is valid exactly when its root is a node and there are consistent depths, and a
crawl that takes the waiting nodes in any other order comes to the same verdict.
-/

namespace StackFlow.Graph

open Micheline (Instruction Code)
open Relation (ReflTransGen)

variable {known : String → Bool} {g : Graph} {depth : Int → Int}

/-! ## Consistent depths -/

/-- The depth behind code that is entered at depth `d`. -/
def depthBehind (d : Int) (code : Code) : Int :=
  code.foldl (fun d i => if isMarker i then wrap (d + markerDelta i) else d) d

/-- No marker of the code takes the depth below zero. -/
def StaysAbove (d : Int) (code : Code) : Prop :=
  ∀ before i after, code = before ++ i :: after → isMarker i → 0 ≤ depthBehind d (before ++ [i])

/-- The positions to which the root leads, along what tubes go on to and the edges of joints. -/
inductive Linked (g : Graph) : Int → Prop where
  | root : Linked g g.root
  | next {id : Int} {n : Node} :
      Linked g id → g.node? id = some n → n.kind = .tube → n.next ≠ noNode → Linked g n.next
  | edge {id e : Int} {n : Node} :
      Linked g id → g.node? id = some n → n.kind = .joint → e ∈ n.edges → Linked g e

/-- A tube that is entered at depth `d`. -/
structure TubeFits (known : String → Bool) (g : Graph) (depth : Int → Int) (d : Int) (n : Node) :
    Prop where
  names : ∀ i ∈ n.code, known i.name
  above : StaysAbove d n.code
  ends : n.next = noNode → depthBehind d n.code = 0
  goesOn : n.next ≠ noNode → (g.node? n.next).isSome ∧ depth n.next = depthBehind d n.code

/-- A joint that is entered at depth `d`: only the first edge of an iteration leads deeper. -/
structure JointFits (known : String → Bool) (g : Graph) (depth : Int → Int) (d : Int) (n : Node) :
    Prop where
  name : known n.joint
  two : n.edges.length = 2
  edges : ∀ k e, n.edges[k]? = some e → (g.node? e).isSome ∧
    depth e = if n.joint = "ITER" ∧ k = 0 then wrap (d + 1) else d

structure Consistent (known : String → Bool) (g : Graph) (depth : Int → Int) : Prop where
  root : depth g.root = 0
  tube : ∀ id n, Linked g id → g.node? id = some n → n.kind = .tube →
    TubeFits known g depth (depth id) n
  joint : ∀ id n, Linked g id → g.node? id = some n → n.kind = .joint →
    JointFits known g depth (depth id) n

section Nodes

variable {id d : Int} {n : Node} {i : Instruction} {is code : Code}

theorem depthBehind_cons : depthBehind d (i :: is) = depthBehind (depthBehind d [i]) is := rfl

theorem staysAbove_cons : StaysAbove d (i :: is) ↔
    (isMarker i → 0 ≤ depthBehind d [i]) ∧ StaysAbove (depthBehind d [i]) is := by
  constructor
  · intro above
    constructor
    · exact above [] i is rfl
    · intro before k after split marks
      have later := above (i :: before) k after (by rw [split, List.cons_append]) marks
      rwa [List.cons_append, depthBehind_cons] at later
  · rintro ⟨first, rest⟩ before k after split marks
    cases before with
    | nil =>
      cases split
      exact first marks
    | cons l before =>
      cases split
      rw [List.cons_append, depthBehind_cons]
      exact rest before k after rfl marks

theorem checkTube_depth : (checkTube known id code d).1 = depthBehind d code := by
  induction code generalizing d with
  | nil => rfl
  | cons i is ih => exact ih

theorem checkTube_passed : (checkTube known id code d).2 = [] ↔
    (∀ i ∈ code, known i.name) ∧ StaysAbove d code := by
  induction code generalizing d with
  | nil => simp [checkTube, StaysAbove]
  | cons i is ih =>
    have next : (if isMarker i then wrap (d + markerDelta i) else d) = depthBehind d [i] := rfl
    simp only [checkTube, next, List.append_eq_nil_iff, ih, List.forall_mem_cons, staysAbove_cons]
    constructor
    · rintro ⟨⟨named, own⟩, names, rest⟩
      refine ⟨⟨?_, names⟩, ?_, rest⟩
      · by_contra unknown
        simp [unknown] at named
      · intro marks
        by_contra below
        simp [marks, Int.not_le.mp below] at own
    · rintro ⟨⟨named, names⟩, own, rest⟩
      refine ⟨⟨by simp [named], ?_⟩, names, rest⟩
      apply if_neg
      intro below
      simp only [Bool.and_eq_true, decide_eq_true_eq] at below
      exact Int.not_lt.mpr (own below.1) below.2

/-- Passing the checks, with all targets at the depths that they have. -/
def Settles (known : String → Bool) (g : Graph) (depth : Int → Int) (id d : Int) (n : Node) : Prop :=
  (checkNode known id n d).2 = [] ∧
    ∀ target ∈ (checkNode known id n d).1, (g.node? target.1).isSome ∧ depth target.1 = target.2

theorem settles_tube (tube : n.kind = .tube) :
    Settles known g depth id d n ↔ TubeFits known g depth d n := by
  unfold Settles
  by_cases last : n.next = noNode
  · simp only [checkNode, tube, last, if_true, checkTube_depth, List.append_eq_nil_iff,
      checkTube_passed, List.not_mem_nil, false_implies, implies_true, and_true]
    constructor
    · rintro ⟨⟨names, above⟩, ends⟩
      refine ⟨names, above, fun _ => ?_, fun active => absurd last active⟩
      by_contra deep
      simp [deep] at ends
    · intro fits
      exact ⟨⟨fits.names, fits.above⟩, if_pos (fits.ends last)⟩
  · simp only [checkNode, tube, last, if_false, checkTube_depth, checkTube_passed,
      List.mem_singleton, forall_eq]
    constructor
    · rintro ⟨⟨names, above⟩, goesOn⟩
      exact ⟨names, above, fun ended => absurd ended last, fun _ => goesOn⟩
    · intro fits
      exact ⟨⟨fits.names, fits.above⟩, fits.goesOn last⟩

theorem settles_joint (joint : n.kind = .joint) :
    Settles known g depth id d n ↔ JointFits known g depth d n := by
  constructor
  · rintro ⟨passed, targets⟩
    obtain ⟨name, two⟩ := checkNode_joint joint passed
    refine ⟨name, two, ?_⟩
    obtain ⟨a, b, edges⟩ := List.length_eq_two.mp two
    simp only [checkNode, joint, edges, edgeDepths, beq_iff_eq, List.map_singleton,
      List.forall_mem_cons, List.not_mem_nil, false_implies, implies_true, and_true] at targets
    obtain ⟨first, second⟩ := targets
    rintro (_ | _ | k) e taken
    · simp only [edges, List.getElem?_cons_zero, Option.some.injEq] at taken
      subst taken
      refine ⟨first.1, first.2.trans ?_⟩
      by_cases iter : n.joint = "ITER" <;> simp [Joint.name, iter]
    · simp only [edges, Nat.zero_add, List.getElem?_cons_succ, List.getElem?_cons_zero,
        Option.some.injEq] at taken
      subst taken
      simpa using second
    · simp [edges] at taken
  · intro fits
    obtain ⟨a, b, edges⟩ := List.length_eq_two.mp fits.two
    have first := fits.edges 0 a (by simp [edges])
    have second := fits.edges 1 b (by simp [edges])
    constructor
    · simp [checkNode, joint, fits.name, fits.two]
    · intro target member
      simp only [checkNode, joint, edges, edgeDepths, List.map_singleton, List.mem_cons,
        List.not_mem_nil, or_false] at member
      rcases member with rfl | rfl
      · simpa [Joint.name] using first
      · simpa using second

theorem settles_other (other : n.kind = .other) : Settles known g depth id d n := by
  simp [Settles, checkNode, other]

end Nodes

/-! ## Charts and consistent depths -/

theorem linked_charted {chart : Int → Option Int} (charted : Charted known g chart) {id : Int}
    (linked : Linked g id) : ∃ d, chart id = some d := by
  induction linked with
  | root => exact ⟨0, charted.root⟩
  | @next id n _ found tube active ih =>
    obtain ⟨d, given⟩ := ih
    obtain ⟨m, there, _, targets⟩ := charted.node id d given
    cases Option.some.inj (there.symm.trans found)
    have target : n.next ∈ (checkNode known id n d).1.map Prod.fst := by
      rw [checkNode_targets (by simp [tube])]
      simp [Node.successors, tube, active]
    obtain ⟨target, member, same⟩ := List.mem_map.mp target
    exact ⟨target.2, same ▸ targets target member⟩
  | @edge id e n _ found joint among ih =>
    obtain ⟨d, given⟩ := ih
    obtain ⟨m, there, _, targets⟩ := charted.node id d given
    cases Option.some.inj (there.symm.trans found)
    have target : e ∈ (checkNode known id n d).1.map Prod.fst := by
      rw [checkNode_targets (by simp [joint])]
      simpa [Node.successors, joint] using among
    obtain ⟨target, member, same⟩ := List.mem_map.mp target
    exact ⟨target.2, same ▸ targets target member⟩

theorem consistent_of_charted {chart : Int → Option Int} (charted : Charted known g chart) :
    Consistent known g fun id => (chart id).getD 0 := by
  have settles (id : Int) (n : Node) (linked : Linked g id) (found : g.node? id = some n) :
      Settles known g (fun id => (chart id).getD 0) id ((chart id).getD 0) n := by
    obtain ⟨d, given⟩ := linked_charted charted linked
    obtain ⟨m, there, passed, targets⟩ := charted.node id d given
    cases Option.some.inj (there.symm.trans found)
    rw [given, Option.getD_some]
    refine ⟨passed, fun target member => ?_⟩
    have level := targets target member
    obtain ⟨m, present, _⟩ := charted.node target.1 target.2 level
    simp [present, level]
  constructor
  · simp [charted.root]
  · intro id n linked found tube
    exact (settles_tube tube).mp (settles id n linked found)
  · intro id n linked found joint
    exact (settles_joint joint).mp (settles id n linked found)

theorem linked_present (consistent : Consistent known g depth) (root : (g.node? g.root).isSome)
    {id : Int} (linked : Linked g id) : (g.node? id).isSome := by
  cases linked with
  | root => exact root
  | next linked found tube active =>
    exact ((consistent.tube _ _ linked found tube).goesOn active).1
  | edge linked found joint among =>
    obtain ⟨k, taken⟩ := List.getElem?_of_mem among
    exact ((consistent.joint _ _ linked found joint).edges k _ taken).1

theorem linked_target {id d : Int} {n : Node} (linked : Linked g id) (found : g.node? id = some n)
    {target : Int × Int} (member : target ∈ (checkNode known id n d).1) : Linked g target.1 := by
  have successor : target.1 ∈ (checkNode known id n d).1.map Prod.fst :=
    List.mem_map_of_mem member
  cases kind : n.kind with
  | tube =>
    rw [checkNode_targets (by simp [kind])] at successor
    by_cases last : n.next = noNode
    · simp [Node.successors, kind, last] at successor
    · simp only [Node.successors, kind, last, reduceCtorEq, if_false, List.mem_singleton]
        at successor
      rw [successor]
      exact .next linked found kind last
  | joint =>
    rw [checkNode_targets (by simp [kind])] at successor
    simp only [Node.successors, kind, if_true] at successor
    exact .edge linked found kind successor
  | other => simp [checkNode, kind] at member

-- A chart has to say that a node is present where it gives a depth, which is known of linked ones only.
open Classical in
noncomputable def chartOf (g : Graph) (depth : Int → Int) (id : Int) : Option Int :=
  if Linked g id then some (depth id) else none

theorem charted_of_consistent (consistent : Consistent known g depth)
    (root : (g.node? g.root).isSome) : Charted known g (g.chartOf depth) := by
  constructor
  · rw [chartOf, if_pos .root, consistent.root]
  · intro id d given
    obtain ⟨linked, level⟩ := Option.ite_none_right_eq_some.mp given
    cases Option.some.inj level
    obtain ⟨n, found⟩ := Option.isSome_iff_exists.mp (linked_present consistent root linked)
    have settles : Settles known g depth id (depth id) n := by
      cases kind : n.kind with
      | tube => exact (settles_tube kind).mpr (consistent.tube id n linked found kind)
      | joint => exact (settles_joint kind).mpr (consistent.joint id n linked found kind)
      | other => exact settles_other kind
    refine ⟨n, found, settles.1, fun target member => ?_⟩
    rw [chartOf, if_pos (linked_target linked found member), (settles.2 target member).2]

/-! ## Crawls in any order -/

namespace Crawl

/-- One turn of a crawl that takes any of the waiting nodes next. -/
inductive Turns (known : String → Bool) (g : Graph) : Crawl → Crawl → Prop where
  | visit {c : Crawl} (id : Int) (queue : List Int) : c.queue.Perm (id :: queue) → id ∈ c.fresh →
      Turns known g c (visit known g id { c with queue, fresh := c.fresh.erase id })
  | skip {c : Crawl} (id : Int) (queue : List Int) : c.queue.Perm (id :: queue) → id ∉ c.fresh →
      Turns known g c { c with queue }

variable {c c' : Crawl}

theorem turns_surveyed (root : (g.node? g.root).isSome)
    (turns : ReflTransGen (Turns known g) g.outset c) (clean : c.problems = []) :
    Surveyed known g c := by
  induction turns with
  | refl => exact survey_start root
  | tail _ turn ih =>
    -- problems stay, so a crawl that ends without any has had none on the way
    cases turn with
    | visit id queue picked fresh =>
      have before := visit_clean clean
      exact surveyed_visit (ih before) picked clean
    | skip id queue picked looked => exact surveyed_skip (ih clean) picked looked

theorem turns_tracks {chart : Int → Option Int} (charted : Charted known g chart)
    (turns : ReflTransGen (Turns known g) g.outset c) : c.Tracks chart := by
  induction turns with
  | refl => exact tracks_start charted
  | tail _ turn ih =>
    cases turn with
    | visit id queue picked _ => exact tracks_visit charted ih picked
    | skip id queue picked _ => exact tracks_skip ih picked

end Crawl

/-- A graph is valid exactly when its root is a node and depths can be given to all nodes that it
leads to, with which every one of them fits; and so does any crawl find that has no node left. -/
theorem valid_iff_consistent (known : String → Bool) (g : Graph) :
    (g.validate known = .ok () ↔
      (g.node? g.root).isSome ∧ ∃ depth : Int → Int, g.Consistent known depth) ∧
    ∀ c, (g.node? g.root).isSome → ReflTransGen (Crawl.Turns known g) g.outset c → c.queue = [] →
      (c.problems = [] ↔ g.validate known = .ok ()) := by
  constructor
  · constructor
    · intro valid
      have charted := charted_of_validate valid
      obtain ⟨n, found, _⟩ := charted.node g.root 0 charted.root
      exact ⟨by simp [found], _, consistent_of_charted charted⟩
    · rintro ⟨root, depth, consistent⟩
      exact validate_of_charted (charted_of_consistent consistent root)
  · intro c root turns empty
    constructor
    · intro clean
      exact validate_of_charted (charted_of_surveyed (Crawl.turns_surveyed root turns clean) empty)
    · intro valid
      exact (Crawl.turns_tracks (charted_of_validate valid) turns).clean

/-! ## A crawl in another order -/

/-- An iteration with an empty body. -/
def emptyIteration : Graph :=
  { nodes := #[.fork 0 "ITER" [1, 2], .tube 1 [marker (-1)] 0, .tube 2 [] noNode], root := 0 }

/-- The exit is looked at before the body. -/
theorem exit_first_agrees : ∃ c, (emptyIteration.node? emptyIteration.root).isSome ∧
    ReflTransGen (Crawl.Turns supports emptyIteration) emptyIteration.outset c ∧ c.queue = [] ∧
    c.problems = [] ∧ emptyIteration.validate supports = .ok () := by
  have valid : emptyIteration.validate supports = .ok () := by cbv
  have root : Crawl.Turns supports emptyIteration emptyIteration.outset
      ⟨[1, 2], [1, 2], [(2, 0), (1, 1), (0, 0)], []⟩ :=
    .visit 0 [] (.refl [0]) (by decide)
  have exit : Crawl.Turns supports emptyIteration ⟨[1, 2], [1, 2], [(2, 0), (1, 1), (0, 0)], []⟩
      ⟨[1], [1], [(2, 0), (1, 1), (0, 0)], []⟩ :=
    .visit 2 [1] (.swap 2 1 []) (by decide)
  have body : Crawl.Turns supports emptyIteration ⟨[1], [1], [(2, 0), (1, 1), (0, 0)], []⟩
      ⟨[], [], [(2, 0), (1, 1), (0, 0)], []⟩ :=
    .visit 1 [] (.refl [1]) (by decide)
  have turns := ((ReflTransGen.refl.tail root).tail exit).tail body
  have agrees := (valid_iff_consistent supports emptyIteration).2 _ (by decide) turns rfl
  exact ⟨_, by decide, turns, rfl, agrees.mpr valid, valid⟩

end StackFlow.Graph
