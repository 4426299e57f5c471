import StackFlow.Proofs.Descent
import StackFlow.Proofs.Drawing
import StackFlow.Proofs.Inlets

/-!
The edges that go back to loops. In a compiled graph a loop is entered through the tube that was
made together with its joint, and all other edges to the joint come from its body, whose nodes were
made later. Main statement: where every loop has a block, the edges that are drawn dotted are those
that come from the body of a loop, and the others make no cycle.
-/

namespace StackFlow

open Micheline (Instruction Code)

namespace Graph

/-- An edge that is drawn, and not dotted. -/
def Solid (g : Graph) (id t : Int) : Prop := ∃ s ∈ g.strokes id, s.target = t ∧ s.dotted = false

/-- At `t` stands the joint of a loop, and its continue edge leads to `id`. -/
def Turns (g : Graph) (id t : Int) : Prop :=
  ∃ n, g.node? t = some n ∧ n.loops = true ∧
    ∃ s ∈ g.strokes t, s.label = some "continue" ∧ g.Leads s.target id

section Edges

variable {g : Graph} {id t p q : Int} {n m : Node} {s : Stroke} {j : Joint}

theorem isBackEdge_eq (found : g.node? t = some m) :
    g.isBackEdge id t = (m.loops && decide (t < id)) := by
  simp only [isBackEdge, found, Node.loops, beq_eq_decide]
  cases Joint.ofName? m.joint <;> simp

theorem isBackEdge_iff : g.isBackEdge id t = true ↔
    ∃ m, g.node? t = some m ∧ m.loops = true ∧ t < id := by
  cases found : g.node? t with
  | none => simp [isBackEdge, found]
  | some m => simp [isBackEdge_eq found]

theorem stroke_of_joint (found : g.node? id = some n) (joint : n.kind = .joint)
    (drawn : s ∈ g.strokes id) : s.dotted = false := by
  simp only [strokes, found, if_pos joint] at drawn
  obtain ⟨i, _, rfl⟩ := List.mem_mapIdx.mp drawn
  rfl

theorem stroke_of_other (found : g.node? id = some n) (other : n.kind ≠ .joint)
    (drawn : s ∈ g.strokes id) :
    s.target = n.next ∧ n.next ≠ noNode ∧ s.dotted = g.isBackEdge id n.next := by
  simp only [strokes, found, if_neg other] at drawn
  split at drawn
  · cases drawn
  · rename_i active
    obtain rfl := List.mem_singleton.mp drawn
    exact ⟨rfl, active, rfl⟩

theorem stroke_of_tube {next : Int} {code : Code} (found : g.node? id = some (.tube id code next))
    (drawn : s ∈ g.strokes id) :
    s.target = next ∧ next ≠ noNode ∧ s.dotted = g.isBackEdge id next :=
  stroke_of_other found (by simp [Node.tube]) drawn

theorem target_of_stroke (drawn : s ∈ g.strokes id) : s.target ∈ g.successorsOf id := by
  rw [← strokes_targets]
  exact List.mem_map_of_mem drawn

theorem solid_tube {next : Int} {code : Code} (found : g.node? id = some (.tube id code next))
    (solid : g.Solid id t) : t = next ∧ t ≠ noNode := by
  obtain ⟨s, drawn, rfl, _⟩ := solid
  obtain ⟨goes, active, _⟩ := stroke_of_tube found drawn
  exact ⟨goes, goes ▸ active⟩

theorem solid_fork {name : String} (found : g.node? id = some (.fork id name [p, q]))
    (solid : g.Solid id t) : t = p ∨ t = q := by
  obtain ⟨s, drawn, rfl, _⟩ := solid
  simpa [successorsOf, found, Node.successors, Node.fork] using target_of_stroke drawn

theorem kind_of_loops (loops : n.loops = true) : n.kind = .joint := by
  simp only [Node.loops, Bool.and_eq_true, beq_iff_eq] at loops
  exact loops.1

/-- The node to which a joint leads is a tube. -/
theorem joint_onto_tube (inlets : Inlets g.nodes) (found : g.node? id = some n)
    (joint : n.kind = .joint) (edge : t ∈ n.edges) (there : g.node? t = some m) :
    m.kind = .tube := by
  have member : n ∈ g.nodes := Array.mem_toList_iff.mp (mem_of_node? found)
  obtain ⟨k, rfl, m', found', tube⟩ := inlets.edges n member joint t edge
  rw [node?_natCast, found'] at there
  cases there
  exact tube

/-- Solid edges enter a loop from in front of its joint only. -/
theorem solid_onto_loop (inlets : Inlets g.nodes) (solid : g.Solid id t)
    (there : g.node? t = some m) (loops : m.loops = true) : id < t := by
  obtain ⟨s, drawn, rfl, solid⟩ := solid
  have goal := target_of_stroke drawn
  cases found : g.node? id with
  | none => simp [successorsOf, found] at goal
  | some n =>
    by_cases joint : n.kind = .joint
    · have edge : s.target ∈ n.edges := by
        simpa [successorsOf, found, Node.successors, joint] using goal
      have tube := joint_onto_tube inlets found joint edge there
      cases tube.symm.trans (kind_of_loops loops)
    · obtain ⟨same, _, dots⟩ := stroke_of_other found joint drawn
      rw [← same, solid, isBackEdge_eq there, loops] at dots
      have above : ¬ s.target < id := by simpa using dots
      have apart : s.target ≠ id := by
        intro here
        rw [here, found] at there
        cases there
        exact joint (kind_of_loops loops)
      omega

end Edges

end Graph

/-! ## Solid edges -/

section Falls

variable {R : Int → Int → Prop} {x y id t : Int} {order : List Int}

/-- Where nothing leads to the end of a list, the list may end anywhere. -/
theorem falls_over (falls : Falls R x order) (none : ∀ id ∈ order, ¬ R id x) : Falls R y order := by
  induction falls with
  | nil => exact .nil
  | cons leads _ ih =>
    obtain ⟨here, later⟩ := List.forall_mem_cons.mp none
    refine .cons (fun t goes => .inr ?_) (ih later)
    rcases leads t goes with rfl | among
    · exact absurd goes here
    · exact among

theorem falls_idxOf (falls : Falls R x order) (distinct : order.Nodup) (outside : x ∉ order)
    (inside : id ∈ order) (goes : R id t) : order.idxOf id < order.idxOf t := by
  induction falls with
  | nil => cases inside
  | @cons k rest leads falls ih =>
    obtain ⟨fresh, distinct⟩ := List.nodup_cons.mp distinct
    have beyond : x ∉ rest := fun member => outside (List.mem_cons_of_mem k member)
    have past (among : t = x ∨ t ∈ rest) : k ≠ t := by
      rintro rfl
      rcases among with rfl | member
      · exact outside List.mem_cons_self
      · exact fresh member
    rcases List.mem_cons.mp inside with rfl | later
    · rw [List.idxOf_cons_self, List.idxOf_cons_ne rest (past (leads t goes))]
      exact Nat.succ_pos _
    · have other : k ≠ id := fun same => fresh (same ▸ later)
      have behind := past (falls_target falls later goes)
      rw [List.idxOf_cons_ne rest other, List.idxOf_cons_ne rest behind]
      exact Nat.succ_lt_succ (ih distinct beyond later)

/-- What falls along a list makes no cycle. -/
theorem falls_acyclic (falls : Falls R x order) (distinct : order.Nodup) (outside : x ∉ order)
    (inside : ∀ id t, R id t → id ∈ order) (id : Int) : ¬ Relation.TransGen R id id := by
  intro cycle
  have down : ∀ id t, R id t → order.idxOf id < order.idxOf t :=
    fun id t goes => falls_idxOf falls distinct outside (inside id t goes) goes
  have less : Relation.TransGen (· < ·) (order.idxOf id) (order.idxOf id) :=
    cycle.lift order.idxOf down
  rw [Relation.transGen_eq_self] at less
  exact Nat.lt_irrefl _ less

end Falls

theorem span_bounds {a b : Nat} {id : Int} (member : id ∈ span a b) : (a : Int) ≤ id ∧ id < b := by
  obtain ⟨k, within, rfl⟩ := List.mem_map.mp member
  have bounds := List.mem_range'_1.mp within
  simp only [Int.ofNat_eq_natCast]
  omega

/-- A tube and its joint in front of what they lead to. -/
theorem falls_forks {g : Graph} {b : Nat} {before : Code} {j : Joint} {p q x : Int}
    {order : List Int} (forks : g.Forks b before j p q) (below : Falls g.Solid x order)
    (first : g.Solid (b + 1) p → p = x ∨ p ∈ order) (second : q = x ∨ q ∈ order) :
    Falls g.Solid x ((b : Int) :: ((b : Int) + 1) :: order) := by
  refine .cons (fun t solid => ?_) (.cons (fun t solid => ?_) below)
  · rw [(Graph.solid_tube forks.tube solid).1]
    exact .inr List.mem_cons_self
  · rcases Graph.solid_fork forks.joint solid with rfl | rfl
    · exact first solid
    · exact second

/-- What compilation makes can be ordered so that solid edges lead down. -/
theorem made_falls {g : Graph} {flat : Code} {last entry : Int} {a b : Nat}
    (inlets : Inlets g.nodes) (made : Made g flat last a b entry) :
    ∃ order, Falls g.Solid (landing last) order ∧ order.Perm (span a b) ∧
      (entry = landing last ∨ entry ∈ order) := by
  induction made with
  | skip active =>
    rw [landing_active active, span_empty]
    exact ⟨[], .nil, .refl _, .inl rfl⟩
  | terminal =>
    rw [span_empty]
    exact ⟨[], .nil, .refl _, .inl rfl⟩
  | @tube flat last a straight found =>
    refine ⟨[(a : Int)], .cons (fun t solid => .inl ?_) .nil, ?_, .inr List.mem_cons_self⟩
    · obtain ⟨rfl, active⟩ := Graph.solid_tube found solid
      exact (landing_active active).symm
    · rw [span_cons (Nat.lt_succ_self a), span_empty]
  | @fork i j before after last p q r a b c d _ _ forks behind left right ih ih₁ ih₂ =>
    obtain ⟨lower, falls, perm, entry⟩ := ih
    obtain ⟨first, falls₁, perm₁, entry₁⟩ := ih₁
    obtain ⟨second, falls₂, perm₂, entry₂⟩ := ih₂
    have active := made_entry behind
    rw [landing_active active] at falls₁ falls₂ entry₁ entry₂
    have inner := falls_append (falls_append falls₁ falls₂ (.inl rfl)) falls entry
    have leads (t : Int) (goes : t = r ∨ t ∈ first ++ second) :
        t = landing last ∨ t ∈ (first ++ second) ++ lower := by
      rcases goes with rfl | within
      · exact entry.imp_right (List.mem_append_right _)
      · exact .inr (List.mem_append_left _ within)
    have whole := falls_forks forks inner
      (fun _ => leads p (entry₁.imp_right (List.mem_append_left _)))
      (leads q (entry₂.imp_right (List.mem_append_right _)))
    refine ⟨_, whole, ?_, .inr List.mem_cons_self⟩
    have le := made_size behind
    have le₁ := made_size left
    have le₂ := made_size right
    have newer := perm₁.append perm₂
    rw [span_append le₁ le₂] at newer
    exact span_level perm newer le (by omega)
  | @loop i j before after last p r a b d _ loops _ forks behind body ih ih₁ =>
    obtain ⟨lower, falls, perm, entry⟩ := ih
    obtain ⟨inner, falls₁, perm₁, entry₁⟩ := ih₁
    rw [landing_active (by unfold noNode; omega)] at falls₁ entry₁
    -- the body stands behind the joint, so its ways back are dotted
    have there : g.node? ((b : Int) + 1) = some (.fork (b + 1) j.name [p, r]) := forks.joint
    have onto {id : Int} (solid : g.Solid id (b + 1)) : id < b + 1 :=
      Graph.solid_onto_loop inlets solid there ((loops_fork _ j _).trans loops)
    have apart : ∀ id ∈ inner, ¬ g.Solid id (b + 1) := by
      intro id member solid
      have above := span_bounds (perm₁.mem_iff.mp member)
      have below := onto solid
      omega
    have below := falls_append (falls_over falls₁ apart) falls (.inl rfl)
    have exit := entry.imp_right (List.mem_append_right inner)
    refine ⟨_, falls_forks forks below (fun solid => ?_) exit, ?_, .inr List.mem_cons_self⟩
    · rcases entry₁ with rfl | within
      · exact absurd (onto solid) (Int.lt_irrefl _)
      · exact .inr (List.mem_append_left _ within)
    · exact span_level perm perm₁ (made_size behind) (made_size body)
  | @iter i before after last p r a b d _ forks behind back body ih ih₁ =>
    obtain ⟨lower, falls, perm, entry⟩ := ih
    obtain ⟨inner, falls₁, perm₁, entry₁⟩ := ih₁
    rw [landing_active (by unfold noNode; omega)] at falls₁ entry₁
    -- the tube through which the body comes back has no solid edge
    have stays : ∀ t, ¬ g.Solid (b + 2) t := by
      intro t solid
      obtain ⟨rfl, _⟩ := Graph.solid_tube back solid
      have below := Graph.solid_onto_loop inlets solid forks.joint (loops_fork _ .iter _)
      omega
    have turn : Falls g.Solid (landing last) [(b : Int) + 2] :=
      .cons (fun t solid => absurd solid (stays t)) .nil
    have whole := falls_append (falls_append falls₁ turn (.inr List.mem_cons_self)) falls (.inl rfl)
    have exit := entry.imp_right (List.mem_append_right (inner ++ [(b : Int) + 2]))
    refine ⟨_, falls_forks forks whole (fun _ => .inr (List.mem_append_left _ ?_)) exit, ?_,
      .inr List.mem_cons_self⟩
    · rcases entry₁ with rfl | within
      · simp
      · exact List.mem_append_left _ within
    · have le := made_size body
      have newer : (inner ++ [(b : Int) + 2]).Perm (span (b + 2) d) := by
        rw [span_cons (by omega)]
        exact List.perm_append_comm.trans (perm₁.cons _)
      exact span_level perm newer (made_size behind) (by omega)

/-- Solid edges of a compiled graph make no cycle. -/
theorem build_acyclic {code : Code} (armed : LoopsArmed code) (id : Int) :
    ¬ Relation.TransGen (Graph.build code).Solid id id := by
  have made := build_made code
  obtain ⟨order, falls, positions, _⟩ := made_falls (build_inlets armed) made
  have last : Falls (Graph.build code).Solid noNode [terminalId] := by
    refine .cons (fun t solid => absurd (Graph.solid_tube (build_terminal code) solid) ?_) .nil
    rintro ⟨rfl, active⟩
    exact active rfl
  have whole := falls_append falls last (.inr List.mem_cons_self)
  have covers := perm_positions positions (made_size made)
  refine falls_acyclic whole (covers.nodup_iff.mpr Graph.positions_nodup)
    (fun member => Graph.noNode_outside (covers.mem_iff.mp member))
    (fun id t solid => covers.mem_iff.mpr ?_) id
  obtain ⟨s, drawn, _⟩ := solid
  by_contra outside
  have goal := Graph.target_of_stroke drawn
  rw [Graph.successorsOf_missing outside] at goal
  cases goal

/-! ## Dotted edges -/

/-- If a tube at `k` leads to a loop, that is where its code goes on, or the loop behind the tube,
or one in whose body the tube is. -/
def Graph.ReturnsAt (g : Graph) (last : Int) (k : Nat) : Prop :=
  ∀ n m, g.node? k = some n → n.kind = .tube → g.node? n.next = some m → m.loops = true →
    n.next = last ∨ n.next = k + 1 ∨ n.next < k ∧ g.Turns k n.next

section Returns

variable {g : Graph} {flat before : Code} {last entry p q : Int} {a b k : Nat} {j : Joint}

theorem made_entry_tube (made : Made g flat last a b entry) :
    entry = last ∨ ∃ code next, g.node? entry = some (.tube entry code next) := by
  cases made with
  | skip => exact .inl rfl
  | terminal found => exact .inr ⟨_, _, found⟩
  | tube _ found => exact .inr ⟨_, _, found⟩
  | fork _ _ forks => exact .inr ⟨_, _, forks.tube⟩
  | loop _ _ _ forks => exact .inr ⟨_, _, forks.tube⟩
  | iter _ forks => exact .inr ⟨_, _, forks.tube⟩

theorem returns_tube {code : Code} {next : Int} (found : g.node? k = some (.tube k code next))
    (goes : ∀ m, g.node? next = some m → m.loops = true →
      next = last ∨ next = k + 1 ∨ next < k ∧ g.Turns k next) : g.ReturnsAt last k := by
  intro n m there _ target loops
  cases Option.some.inj (found.symm.trans there)
  exact goes m target loops

theorem returns_forks (forks : g.Forks b before j p q) :
    g.ReturnsAt last b ∧ g.ReturnsAt last (b + 1) := by
  refine ⟨returns_tube forks.tube fun _ _ _ => .inr (.inl rfl), fun n m there tube => ?_⟩
  rw [Nat.cast_add, Nat.cast_one, forks.joint] at there
  cases there
  cases tube

/-- Code that goes on at a tube leads to no other loops than those of its own. -/
theorem returns_over {code : Code} {r next : Int} (tube : g.node? r = some (.tube r code next))
    (returns : g.ReturnsAt r k) : g.ReturnsAt last k := by
  intro n m found kind target loops
  rcases returns n m found kind target loops with same | back
  · rw [same, tube] at target
    cases target
    cases loops
  · exact .inr back

/-- The continue edge of a loop leads to all nodes of its body. -/
theorem turns_of_region {x : Int} {d : Nat} (forks : g.Forks b before j p q)
    (loops : j.isLoop = true) (region : g.Region a d p x) (among : Among a d x k) :
    g.Turns k (b + 1) := by
  have label : Graph.edgeLabel j.name 0 = "continue" := by cases j <;> first | rfl | cases loops
  refine ⟨_, forks.joint, (loops_fork _ j _).trans loops,
    { source := b + 1, target := p, label := some "continue" }, ?_, rfl, region.reach k among⟩
  simp [Graph.strokes, forks.joint, Node.fork, label]

theorem made_returns (made : Made g flat last a b entry) :
    ∀ k : Nat, a ≤ k → k < b → g.ReturnsAt last k := by
  induction made with
  | skip | terminal =>
    intro k lower upper
    omega
  | tube _ found =>
    intro k lower upper
    obtain rfl : k = _ := Nat.le_antisymm (Nat.le_of_lt_succ upper) lower
    exact returns_tube found fun _ _ _ => .inl rfl
  | @fork i j before after last p q r a b c d _ _ forks behind _ _ older first second =>
    have beyond (k : Nat) (returns : g.ReturnsAt r k) : g.ReturnsAt last k := by
      rcases made_entry_tube behind with rfl | ⟨code, next, tube⟩
      · exact returns
      · exact returns_over tube returns
    refine each_of_level older (returns_forks forks).1 (returns_forks forks).2 ?_
    intro k lower upper
    by_cases early : k < c
    · exact beyond k (first k lower early)
    · exact beyond k (second k (by omega) upper)
  | @loop i j before after last p r a b d _ loops _ forks _ body older inner =>
    refine each_of_level older (returns_forks forks).1 (returns_forks forks).2 ?_
    intro k lower upper n m found kind target loops'
    obtain ⟨x, ends, region⟩ := made_region body
    rcases inner k lower upper n m found kind target loops' with same | back
    · refine .inr (.inr ⟨by omega, ?_⟩)
      rw [same]
      exact turns_of_region forks loops region (.inr ⟨by omega, by omega⟩)
    · exact .inr back
  | @iter i before after last p r a b d _ forks _ back body older inner =>
    refine each_of_level older (returns_forks forks).1 (returns_forks forks).2 ?_
    intro k lower upper
    by_cases turn : k = b + 2
    · obtain ⟨x, ends, region⟩ := made_region body
      rw [ends_active (by unfold noNode; omega) ends] at region
      subst turn
      refine returns_tube (by exact_mod_cast back) fun _ _ _ => .inr (.inr ⟨by omega, ?_⟩)
      exact turns_of_region forks rfl region (.inl (by simp))
    · exact returns_over back (inner k (by omega) upper)

/-- If a joint stands at `k`, the tube that was made with it stands in front of it. -/
def Graph.EnteredAt (g : Graph) (k : Nat) : Prop :=
  ∀ n, g.node? k = some n → n.kind = .joint →
    ∃ code, g.node? ((k : Int) - 1) = some (.tube (k - 1) code k)

theorem entered_tube {code : Code} {id next : Int} (found : g.node? k = some (.tube id code next)) :
    g.EnteredAt k := by
  intro n there joint
  cases Option.some.inj (found.symm.trans there)
  cases joint

theorem entered_joint (forks : g.Forks b before j p q) : g.EnteredAt (b + 1) := by
  intro n _ _
  rw [Nat.cast_add, Nat.cast_one, Int.add_sub_cancel]
  exact ⟨before, forks.tube⟩

theorem made_entered (made : Made g flat last a b entry) :
    ∀ k : Nat, a ≤ k → k < b → g.EnteredAt k := by
  induction made with
  | skip | terminal =>
    intro k lower upper
    omega
  | tube _ found =>
    intro k lower upper
    obtain rfl : k = _ := Nat.le_antisymm (Nat.le_of_lt_succ upper) lower
    exact entered_tube found
  | @fork i j before after last p q r a b c d _ _ forks _ _ _ older first second =>
    refine each_of_level older (entered_tube forks.tube) (entered_joint forks) ?_
    intro k lower upper
    by_cases early : k < c
    · exact first k lower early
    · exact second k (by omega) upper
  | loop _ _ _ forks _ _ older inner =>
    exact each_of_level older (entered_tube forks.tube) (entered_joint forks) inner
  | @iter i before after last p r a b d _ forks _ back _ older inner =>
    refine each_of_level older (entered_tube forks.tube) (entered_joint forks) ?_
    intro k lower upper
    by_cases turn : k = b + 2
    · subst turn
      exact entered_tube (by exact_mod_cast back)
    · exact inner k (by omega) upper

end Returns

section Build

variable {code : Code} {id t : Int} {n m : Node} {s : Stroke}

/-- A tube leads to a loop that stands behind it, or to one in whose body it is. -/
theorem build_returns {body : Code} {next : Int}
    (found : (Graph.build code).node? id = some (.tube id body next))
    (target : (Graph.build code).node? next = some m) (loops : m.loops = true) :
    next = id + 1 ∨ next < id ∧ (Graph.build code).Turns id next := by
  have active : next ≠ noNode := by
    rintro rfl
    rw [node?_noNode] at target
    cases target
  have behind : id ≠ terminalId := by
    rintro rfl
    cases (build_terminal code).symm.trans found
    exact active rfl
  have present : ((Graph.build code).node? id).isSome := by simp [found]
  obtain ⟨k, rfl, lower, upper⟩ := Graph.position_behind present behind
  have returns := made_returns (build_made code) k lower upper
  exact (returns _ m found rfl target loops).resolve_left active

theorem build_entered (found : (Graph.build code).node? id = some n) (joint : n.kind = .joint) :
    ∃ before, (Graph.build code).node? (id - 1) = some (.tube (id - 1) before id) := by
  have behind : id ≠ terminalId := by
    rintro rfl
    cases (build_terminal code).symm.trans found
    cases joint
  have present : ((Graph.build code).node? id).isSome := by simp [found]
  obtain ⟨k, rfl, lower, upper⟩ := Graph.position_behind present behind
  exact made_entered (build_made code) k lower upper n found joint

/-- A dotted edge leads from a tube to a loop in whose body the tube is. -/
theorem dotted_turns (drawn : s ∈ (Graph.build code).strokes id) (dotted : s.dotted = true) :
    (∃ body, (Graph.build code).node? id = some (.tube id body s.target)) ∧
      (Graph.build code).Turns id s.target := by
  cases found : (Graph.build code).node? id with
  | none => simp [Graph.strokes, found] at drawn
  | some n =>
    cases (build_wellFormed code).nodes id n found with
    | joint =>
      cases dotted.symm.trans (Graph.stroke_of_joint found rfl drawn)
    | @tube body next _ _ =>
      obtain ⟨goes, _, back⟩ := Graph.stroke_of_tube found drawn
      obtain ⟨m, target, loops, lower⟩ := Graph.isBackEdge_iff.mp (back.symm.trans dotted)
      rw [goes]
      refine ⟨⟨body, rfl⟩, ?_⟩
      rcases build_returns found target loops with behind | ⟨_, turns⟩
      · omega
      · exact turns

/-- Of all edges to a loop, only that of the tube that was made with its joint is solid. -/
theorem solid_entry (armed : LoopsArmed code) (found : (Graph.build code).node? t = some m)
    (loops : m.loops = true) (drawn : s ∈ (Graph.build code).strokes id) (goes : s.target = t) :
    s.dotted = false ↔ id = t - 1 := by
  subst goes
  cases there : (Graph.build code).node? id with
  | none => simp [Graph.strokes, there] at drawn
  | some n =>
    cases (build_wellFormed code).nodes id n there with
    | @joint j p q =>
      have edge : s.target ∈ (Node.fork id j.name [p, q]).edges := by
        simpa [Graph.successorsOf, there, Node.successors, Node.fork] using
          Graph.target_of_stroke drawn
      have tube := Graph.joint_onto_tube (build_inlets armed) there rfl edge found
      cases tube.symm.trans (Graph.kind_of_loops loops)
    | tube =>
      obtain ⟨goes, _, back⟩ := Graph.stroke_of_tube there drawn
      rw [← goes] at back
      rw [back, Graph.isBackEdge_eq found, loops, Bool.true_and, decide_eq_false_iff_not]
      rcases build_returns there (goes ▸ found) loops with behind | ⟨lower, _⟩ <;> omega

/-- If all loops that are compiled have blocks, the edges back to them are the dotted ones. -/
theorem dotted_edges_return (armed : LoopsArmed code) :
    (Graph.build code).Pictured ∧
    (∀ id, ¬ Relation.TransGen (Graph.build code).Solid id id) ∧
    (∀ id, ∀ s ∈ (Graph.build code).strokes id, s.dotted = true →
      (∃ body, (Graph.build code).node? id = some (.tube id body s.target)) ∧
        (Graph.build code).Turns id s.target) ∧
    (∀ t m, (Graph.build code).node? t = some m → m.loops = true →
      (∃ before, (Graph.build code).node? (t - 1) = some (.tube (t - 1) before t)) ∧
      ∀ id, ∀ s ∈ (Graph.build code).strokes id, s.target = t →
        (s.dotted = false ↔ id = t - 1)) := by
  refine ⟨Graph.pictured _, build_acyclic armed, fun id s drawn => dotted_turns drawn, ?_⟩
  intro t m found loops
  exact ⟨build_entered found (Graph.kind_of_loops loops),
    fun id s drawn goes => solid_entry armed found loops drawn goes⟩

end Build

/-! ## A branching at the end of an iteration at the end of a loop -/

def innerLoop : Instruction := .op "ITER" [] [.code [guardingJoint]]

def outerLoop : Instruction := .op "LOOP" [] [.code [innerLoop]]

theorem outerLoop_nested {r : Int} {c : Code} (nested : Nested [outerLoop] r c) :
    c = [] ∨ c = [outerLoop] ∨ c = [innerLoop] ∨ c = [guardingJoint] ∨
      c = [.op "FAILWITH" [] []] := by
  induction nested with
  | whole => simp
  | rest _ ih =>
    rcases ih with h | h | h | h | h <;> cases h <;> exact .inl rfl
  | group _ group ih =>
    rcases ih with h | h | h | h | h <;> cases h <;> cases group
  | dip _ dip ih =>
    rcases ih with h | h | h | h | h <;> cases h <;> exact absurd dip (by decide)
  | @arm r i is j k _ found branches small ih =>
    rcases ih with h | h | h | h | h <;> cases h <;> cases found
    · cases branches
    · cases branches
    · match k, small with
      | 0, _ => exact .inl rfl
      | 1, _ => exact .inr (.inr (.inr (.inr rfl)))
  | turn _ found loops ih =>
    rcases ih with h | h | h | h | h <;> cases h <;> cases found
    · exact .inr (.inr (.inl rfl))
    · exact .inr (.inr (.inr (.inl rfl)))
    · cases loops

theorem outerLoop_armed : LoopsArmed [outerLoop] := by
  intro r i is nested j found loops
  rcases outerLoop_nested nested with h | h | h | h | h <;> cases h
  · simp [outerLoop, Instruction.codeArgs, Instruction.args, Micheline.Arg.code?]
  · simp [innerLoop, Instruction.codeArgs, Instruction.args, Micheline.Arg.code?]
  · cases found
    cases loops
  · cases found

def nestedGraph : Graph :=
  { nodes := #[.tube 0 [] noNode, .tube 1 [] 2, .fork 2 "LOOP" [4, 0], .tube 3 [] 2, .tube 4 [] 5,
      .fork 5 "ITER" [8, 3], .tube 6 [marker (-1)] 5, .tube 7 [] 6, .tube 8 [] 9,
      .fork 9 "IF" [10, 11], .tube 10 [] 7, .tube 11 [.op "FAILWITH" [] []] 7]
    root := 1 }

theorem build_outerLoop : Graph.build [outerLoop] = nestedGraph := by
  cbv

/-- Each of two nested loops has one dotted edge, that of its way back. -/
theorem nested_loops_return : LoopsArmed [outerLoop] ∧
    nestedGraph.strokes 3 = [{ source := 3, target := 2, dotted := true }] ∧
    nestedGraph.strokes 6 = [{ source := 6, target := 5, dotted := true }] ∧
    nestedGraph.Turns 3 2 ∧ nestedGraph.Turns 6 5 ∧
    ¬ Relation.TransGen nestedGraph.Solid 2 2 := by
  have outer : nestedGraph.strokes 3 = [{ source := 3, target := 2, dotted := true }] := by rfl
  have inner : nestedGraph.strokes 6 = [{ source := 6, target := 5, dotted := true }] := by rfl
  obtain ⟨_, acyclic, back, _⟩ := dotted_edges_return outerLoop_armed
  rw [build_outerLoop] at acyclic back
  exact ⟨outerLoop_armed, outer, inner,
    (back 3 _ (outer ▸ List.mem_singleton_self _) rfl).2,
    (back 6 _ (inner ▸ List.mem_singleton_self _) rfl).2, acyclic 2⟩

end StackFlow
