import Mathlib.Data.List.Basic
import StackFlow.Proofs.Origins

/-!
Compiled graphs without their loops. The nodes of a compiled graph can be put in an order in which
only the joints of loops lead back up: the code behind a joint comes last, and before it the arms,
which were made later. Main statement: every cycle passes through the joint of a loop.
-/

namespace StackFlow

open Micheline (Instruction Code)

/-- The joint of a loop. -/
def Node.loops (n : Node) : Bool :=
  n.kind == .joint && (Joint.ofName? n.joint).any Joint.isLoop

@[simp] theorem loops_tube (id next : Int) (code : Code) : (Node.tube id code next).loops = false := rfl

theorem loops_fork (id : Int) (j : Joint) (edges : List Int) :
    (Node.fork id j.name edges).loops = j.isLoop := by
  cases j <;> rfl

/-- The positions from `a` to `b`. -/
def span (a b : Nat) : List Int := (List.range' a (b - a)).map Int.ofNat

section Spans

variable {a b c : Nat} {upper lower inner : List Int}

theorem span_empty (a : Nat) : span a a = [] := by
  simp [span]

theorem span_cons (inside : a < b) : span a b = (a : Int) :: span (a + 1) b := by
  unfold span
  obtain ⟨n, rfl⟩ := Nat.exists_eq_add_of_lt inside
  have wide : a + n + 1 - a = n + 1 := by omega
  have narrow : a + n + 1 - (a + 1) = n := by omega
  rw [wide, narrow, List.range'_succ]
  rfl

theorem span_append (first : a ≤ b) (second : b ≤ c) : span a b ++ span b c = span a c := by
  unfold span
  obtain ⟨m, rfl⟩ := Nat.exists_eq_add_of_le first
  obtain ⟨n, rfl⟩ := Nat.exists_eq_add_of_le second
  have whole : a + m + n - a = m + n := by omega
  rw [whole, Nat.add_sub_cancel_left, Nat.add_sub_cancel_left, ← List.map_append,
    List.range'_append_1]

/-- The positions of one level: a tube, its joint, what was made for the arms, and the code behind. -/
theorem span_level (older : lower.Perm (span a b)) (newer : inner.Perm (span (b + 2) c))
    (first : a ≤ b) (second : b + 2 ≤ c) :
    ((b : Int) :: ((b : Int) + 1) :: (inner ++ lower)).Perm (span a c) := by
  have split : span b c = (b : Int) :: ((b : Int) + 1) :: span (b + 2) c := by
    rw [span_cons (by omega), span_cons (by omega)]
    rfl
  have swapped : (span b c ++ span a b).Perm (span a b ++ span b c) := List.perm_append_comm
  rw [span_append first (by omega)] at swapped
  refine List.Perm.trans ?_ swapped
  rw [split]
  exact ((newer.append older).cons _).cons _

end Spans

/-- `Falls R x order`: what is in the list leads to `x` and to what is further down only. -/
inductive Falls (R : Int → Int → Prop) (x : Int) : List Int → Prop where
  | nil : Falls R x []
  | cons {id : Int} {rest : List Int} : (∀ t, R id t → t = x ∨ t ∈ rest) → Falls R x rest →
      Falls R x (id :: rest)

section Falls

variable {R : Int → Int → Prop} {x y id t : Int} {order upper lower : List Int}

theorem falls_append (first : Falls R x upper) (second : Falls R y lower)
    (joined : x = y ∨ x ∈ lower) : Falls R y (upper ++ lower) := by
  induction first with
  | nil => exact second
  | cons leads _ ih =>
    refine .cons (fun t goes => ?_) ih
    rcases leads t goes with rfl | among
    · exact joined.imp_right (List.mem_append_right _)
    · exact .inr (List.mem_append_left _ among)

theorem falls_target (falls : Falls R x order) (inside : id ∈ order) (goes : R id t) :
    t = x ∨ t ∈ order := by
  induction falls with
  | nil => cases inside
  | @cons k rest leads _ ih =>
    apply Or.imp_right (List.mem_cons_of_mem k)
    rcases List.mem_cons.mp inside with rfl | later
    · exact leads t goes
    · exact ih later

end Falls

namespace Graph

/-- `Descends g x order`: a node of the list, unless it is the joint of a loop, leads to `x` and to
nodes further down only. -/
inductive Descends (g : Graph) (x : Int) : List Int → Prop where
  | nil : Descends g x []
  | cons {id : Int} {rest : List Int} :
      (∀ n, g.node? id = some n → n.loops = false → ∀ t ∈ n.successors, t = x ∨ t ∈ rest) →
      Descends g x rest → Descends g x (id :: rest)

/-- From a node that is not the joint of a loop to a target. -/
def Straight (g : Graph) (id t : Int) : Prop :=
  ∃ n, g.node? id = some n ∧ n.loops = false ∧ t ∈ n.successors

section Descends

variable {g : Graph} {x y id next p q : Int} {upper lower rest : List Int} {code : Code} {j : Joint}

theorem descends_iff {order : List Int} : g.Descends x order ↔ Falls g.Straight x order := by
  constructor
  · intro descends
    induction descends with
    | nil => exact .nil
    | cons leads _ ih =>
      refine .cons (fun t goes => ?_) ih
      obtain ⟨n, found, straight, target⟩ := goes
      exact leads n found straight t target
  · intro falls
    induction falls with
    | nil => exact .nil
    | cons leads _ ih =>
      exact .cons (fun n found straight t target => leads t ⟨n, found, straight, target⟩) ih

theorem descends_append (first : g.Descends x upper) (second : g.Descends y lower)
    (joined : x = y ∨ x ∈ lower) : g.Descends y (upper ++ lower) :=
  descends_iff.mpr (falls_append (descends_iff.mp first) (descends_iff.mp second) joined)

theorem descends_tube (found : g.node? id = some (.tube id code next))
    (goes : next = noNode ∨ next = x ∨ next ∈ rest) (below : g.Descends x rest) :
    g.Descends x (id :: rest) := by
  apply Descends.cons _ below
  intro n there _ t member
  cases Option.some.inj (found.symm.trans there)
  by_cases ends : next = noNode
  · simp [Node.successors, Node.tube, ends] at member
  · have same : t = next := by simpa [Node.successors, Node.tube, ends] using member
    rw [same]
    exact goes.resolve_left ends

theorem descends_fork {name : String} (found : g.node? id = some (.fork id name [p, q]))
    (first : p = x ∨ p ∈ rest) (second : q = x ∨ q ∈ rest) (below : g.Descends x rest) :
    g.Descends x (id :: rest) := by
  apply Descends.cons _ below
  intro n there _ t member
  cases Option.some.inj (found.symm.trans there)
  have either : t = p ∨ t = q := by simpa [Node.successors, Node.fork] using member
  rcases either with rfl | rfl
  · exact first
  · exact second

theorem descends_loop (found : g.node? id = some (.fork id j.name [p, q]))
    (loops : j.isLoop = true) (below : g.Descends x rest) : g.Descends x (id :: rest) := by
  apply Descends.cons _ below
  intro n there straight
  cases Option.some.inj (found.symm.trans there)
  rw [loops_fork, loops] at straight
  contradiction

end Descends

end Graph

/-- The node in which code ends that goes on at `last`: without one, the terminal node. -/
def landing (last : Int) : Int := if last = noNode then terminalId else last

theorem landing_active {last : Int} (active : last ≠ noNode) : landing last = last := if_neg active

/-- What compilation makes can be ordered so that only loops lead back up. -/
theorem made_descends {g : Graph} {flat : Code} {last entry : Int} {a b : Nat}
    (made : Made g flat last a b entry) : ∃ order, g.Descends (landing last) order ∧
      order.Perm (span a b) ∧ (entry = landing last ∨ entry ∈ order) := by
  induction made with
  | skip active =>
    rw [landing_active active, span_empty]
    exact ⟨[], .nil, .refl _, .inl rfl⟩
  | terminal =>
    rw [span_empty]
    exact ⟨[], .nil, .refl _, .inl rfl⟩
  | @tube flat last a straight found =>
    refine ⟨[(a : Int)], Graph.descends_tube found ?_ .nil, ?_, .inr List.mem_cons_self⟩
    · by_cases ends : last = noNode
      · exact .inl ends
      · exact .inr (.inl (landing_active ends).symm)
    · rw [span_cons (Nat.lt_succ_self a), span_empty]
  | @fork i j before after last p q r a b c d _ _ forks behind left right ih ih₁ ih₂ =>
    obtain ⟨lower, descends, perm, entry⟩ := ih
    obtain ⟨first, descends₁, perm₁, entry₁⟩ := ih₁
    obtain ⟨second, descends₂, perm₂, entry₂⟩ := ih₂
    have active := made_entry behind
    rw [landing_active active] at descends₁ descends₂ entry₁ entry₂
    have arms := Graph.descends_append descends₁ descends₂ (.inl rfl)
    have inner := Graph.descends_append arms descends entry
    have place (t : Int) (within : t ∈ first ++ second) : t ∈ (first ++ second) ++ lower :=
      List.mem_append_left _ within
    have leads (t : Int) (goes : t = r ∨ t ∈ first ++ second) :
        t = landing last ∨ t ∈ (first ++ second) ++ lower := by
      rcases goes with rfl | within
      · exact entry.imp_right (List.mem_append_right _)
      · exact .inr (place t within)
    have joint := Graph.descends_fork forks.joint
      (leads p (entry₁.imp_right (List.mem_append_left _)))
      (leads q (entry₂.imp_right (List.mem_append_right _))) inner
    refine ⟨_, Graph.descends_tube forks.tube (.inr (.inr List.mem_cons_self)) joint, ?_,
      .inr List.mem_cons_self⟩
    have le := made_size behind
    have le₁ := made_size left
    have le₂ := made_size right
    have newer := perm₁.append perm₂
    rw [span_append le₁ le₂] at newer
    exact span_level perm newer le (by omega)
  | @loop i j before after last p r a b d _ loops _ forks behind body ih ih₁ =>
    obtain ⟨lower, descends, perm, _⟩ := ih
    obtain ⟨inner, descends₁, perm₁, _⟩ := ih₁
    rw [landing_active (by unfold noNode; omega)] at descends₁
    have joint := Graph.descends_loop forks.joint loops descends
    have turn := Graph.descends_append descends₁ joint (.inr List.mem_cons_self)
    have comes : ((b : Int) + 1) ∈ inner ++ ((b : Int) + 1) :: lower := by simp
    refine ⟨_, Graph.descends_tube forks.tube (.inr (.inr comes)) turn, ?_, .inr List.mem_cons_self⟩
    have le := made_size behind
    have le₁ := made_size body
    exact (List.perm_middle.cons _).trans (span_level perm perm₁ le le₁)
  | @iter i before after last p r a b d _ forks behind back body ih ih₁ =>
    obtain ⟨lower, descends, perm, _⟩ := ih
    obtain ⟨inner, descends₁, perm₁, _⟩ := ih₁
    rw [landing_active (by unfold noNode; omega)] at descends₁
    have joint := Graph.descends_loop forks.joint (j := .iter) rfl descends
    have turn := Graph.descends_tube back (.inr (.inr List.mem_cons_self)) joint
    have whole := Graph.descends_append descends₁ turn (.inr List.mem_cons_self)
    have comes : ((b : Int) + 1) ∈ inner ++ ((b : Int) + 2) :: ((b : Int) + 1) :: lower := by simp
    refine ⟨_, Graph.descends_tube forks.tube (.inr (.inr comes)) whole, ?_,
      .inr List.mem_cons_self⟩
    have le := made_size behind
    have le₁ := made_size body
    have newer : (((b : Int) + 2) :: inner).Perm (span (b + 2) d) := by
      rw [span_cons (by omega)]
      exact perm₁.cons _
    refine List.Perm.trans ?_ (span_level perm newer le (by omega))
    refine List.Perm.cons _ (List.perm_middle.trans ?_)
    exact (List.perm_middle.cons _).trans (List.Perm.swap ..)

/-! ## Whole graphs -/

namespace Graph

/-- An order of all positions in which only the joints of loops lead back up. -/
structure Ordered (g : Graph) (order : List Int) : Prop where
  descends : g.Descends noNode order
  covers : order.Perm g.positions

/-- The part of an order from a node on; where a path has ended nothing is left. -/
def below (order : List Int) (id : Int) : List Int := order.dropWhile (· != id)

/-- The targets from `id` through `ids` lead back to `id`. -/
def Cycle (g : Graph) (id : Int) (ids : List Int) : Prop :=
  List.IsChain (fun id target => target ∈ g.successorsOf id) (id :: (ids ++ [id]))

section Below

variable {g : Graph} {order rest ids : List Int} {id t : Int} {n : Node}

theorem below_self (id : Int) (rest : List Int) : below (id :: rest) id = id :: rest := by
  simp [below]

theorem below_other (other : id ≠ t) : below (id :: rest) t = below rest t := by
  simp [below, other]

theorem below_suffix (order : List Int) (id : Int) : below order id <:+ order :=
  List.dropWhile_suffix _

theorem below_outside (outside : id ∉ order) : below order id = [] := by
  apply List.dropWhile_eq_nil_iff.mpr
  intro k member
  have other : k ≠ id := fun same => outside (same ▸ member)
  simpa using other

theorem below_inside (inside : id ∈ order) : ∃ rest, below order id = id :: rest := by
  induction order with
  | nil => cases inside
  | cons k rest ih =>
    by_cases same : k = id
    · subst same
      exact ⟨rest, below_self k rest⟩
    · rw [below_other same]
      exact ih (List.mem_of_ne_of_mem (Ne.symm same) inside)

theorem descends_target {x : Int} (descends : g.Descends x order) (inside : id ∈ order)
    (found : g.node? id = some n) (straight : n.loops = false) (target : t ∈ n.successors) :
    t = x ∨ t ∈ order :=
  falls_target (descends_iff.mp descends) inside ⟨n, found, straight, target⟩

/-- Behind a node that is not the joint of a loop, less is left. -/
theorem below_target {x : Int} (descends : g.Descends x order) (distinct : order.Nodup)
    (outside : x ∉ order) (inside : id ∈ order) (found : g.node? id = some n)
    (straight : n.loops = false) (target : t ∈ n.successors) :
    ∃ rest, below order id = id :: rest ∧ below order t <:+ rest := by
  induction descends with
  | nil => cases inside
  | @cons k rest leads descends ih =>
    obtain ⟨fresh, distinct⟩ := List.nodup_cons.mp distinct
    have beyond : x ∉ rest := fun member => outside (List.mem_cons_of_mem k member)
    have past (goes : t = x ∨ t ∈ rest) : below (k :: rest) t = below rest t := by
      apply below_other
      rintro rfl
      rcases goes with rfl | among
      · exact outside List.mem_cons_self
      · exact fresh among
    rcases List.mem_cons.mp inside with rfl | later
    · rw [below_self, past (leads n found straight t target)]
      exact ⟨rest, rfl, below_suffix rest t⟩
    · have apart : k ≠ id := fun same => fresh (same ▸ later)
      rw [below_other apart, past (descends_target descends later found straight target)]
      exact ih distinct beyond later

end Below

section Ordered

variable {g : Graph} {order ids : List Int} {id t : Int} {n : Node}

theorem Ordered.nodup (ordered : g.Ordered order) : order.Nodup :=
  ordered.covers.nodup_iff.mpr positions_nodup

theorem noNode_outside : noNode ∉ g.positions := by
  intro member
  obtain ⟨k, _, same⟩ := List.mem_map.mp member
  cases same

theorem Ordered.active (ordered : g.Ordered order) : noNode ∉ order :=
  fun member => noNode_outside (ordered.covers.mem_iff.mp member)

theorem Ordered.mem (ordered : g.Ordered order) (found : g.node? id = some n) : id ∈ order :=
  ordered.covers.mem_iff.mpr (node?_positions (by simp [found]))

theorem Ordered.node (ordered : g.Ordered order) (inside : id ∈ order) :
    ∃ n, g.node? id = some n := by
  obtain ⟨k, below, rfl⟩ := List.mem_map.mp (ordered.covers.mem_iff.mp inside)
  have bound := List.mem_range.mp below
  exact ⟨g.nodes[k], by simp [node?_natCast, Array.getElem?_eq_getElem bound]⟩

theorem Ordered.length (ordered : g.Ordered order) : order.length = g.size := by
  rw [ordered.covers.length_eq, positions, List.length_map, List.length_range]

theorem Ordered.target (ordered : g.Ordered order) (found : g.node? id = some n)
    (straight : n.loops = false) (target : t ∈ n.successors) :
    ∃ rest, below order id = id :: rest ∧ below order t <:+ rest :=
  below_target ordered.descends ordered.nodup ordered.active (ordered.mem found) found straight
    target

/-- Along targets, without the joint of a loop, less and less is left. -/
theorem Ordered.chain (ordered : g.Ordered order)
    (chain : List.IsChain (fun id target => target ∈ g.successorsOf id) (id :: (ids ++ [t])))
    (straight : ∀ k ∈ id :: ids, ∀ n, g.node? k = some n → n.loops = false) :
    (below order t).length < (below order id).length := by
  have step {k m : Int} (leads : m ∈ g.successorsOf k)
      (straight : ∀ n, g.node? k = some n → n.loops = false) :
      (below order m).length < (below order k).length := by
    cases found : g.node? k with
    | none => simp [successorsOf, found] at leads
    | some n =>
      have target : m ∈ n.successors := by simpa [successorsOf, found] using leads
      obtain ⟨rest, here, there⟩ := ordered.target found (straight n found) target
      rw [here, List.length_cons]
      exact Nat.lt_succ_of_le there.length_le
  induction ids generalizing id with
  | nil =>
    have leads : t ∈ g.successorsOf id := by simpa using chain
    exact step leads (straight id List.mem_cons_self)
  | cons m ids ih =>
    obtain ⟨leads, later⟩ := List.isChain_cons_cons.mp chain
    have first := step leads (straight id List.mem_cons_self)
    exact (ih later fun k member => straight k (List.mem_cons_of_mem id member)).trans first

theorem Ordered.cycle (ordered : g.Ordered order) (cycle : g.Cycle id ids) :
    ∃ k ∈ id :: ids, ∃ n, g.node? k = some n ∧ n.loops = true := by
  by_contra none
  push Not at none
  refine Nat.lt_irrefl _ (ordered.chain cycle fun k member n found => ?_)
  exact Bool.eq_false_of_not_eq_true (none k member n found)

end Ordered

end Graph

/-- The positions behind the terminal node, and that node. -/
theorem perm_positions {g : Graph} {order : List Int} (behind : order.Perm (span 1 g.size))
    (filled : 1 ≤ g.size) : (order ++ [terminalId]).Perm g.positions := by
  have first : [terminalId] = span 0 1 := rfl
  have all : g.positions = span 0 g.size := by
    rw [Graph.positions, span, List.range_eq_range', Nat.sub_zero]
  rw [first, all, ← span_append (Nat.zero_le 1) filled]
  exact (behind.append_right _).trans List.perm_append_comm

/-- A compiled graph has an order: what was made for the code, then the terminal node. -/
theorem build_ordered (code : Code) : ∃ order, (Graph.build code).Ordered order := by
  have made := build_made code
  obtain ⟨order, descends, positions, _⟩ := made_descends made
  have last : (Graph.build code).Descends noNode [terminalId] :=
    Graph.descends_tube (build_terminal code) (.inl rfl) .nil
  refine ⟨order ++ [terminalId], ?_, perm_positions positions (made_size made)⟩
  exact Graph.descends_append descends last (.inr List.mem_cons_self)

end StackFlow
