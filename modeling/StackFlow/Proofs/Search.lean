import StackFlow.Proofs.Breakage

/-!
Breadth-first search. The queue holds the nodes of one distance from the root and behind them those
of the next one; a node that leaves the list of fresh nodes has put its targets into the queue.
Main statement: the search finds each node that can be reached, once, and the nearer ones first.
-/

namespace StackFlow.Graph

/-- The root leads to the node along `n` edges. -/
inductive Steps (g : Graph) : Nat → Int → Prop where
  | root : Steps g 0 g.root
  | next {n : Nat} {id target : Int} :
      Steps g n id → target ∈ g.successorsOf id → Steps g (n + 1) target

/-- The first node is at least as near to the root as the second. -/
def Nearer (g : Graph) (id other : Int) : Prop := ∀ n, g.Steps n other → ∃ m ≤ n, g.Steps m id

/-- A search that is at distance `d`: nodes of this distance in front in the queue, and behind them
nodes of the next one. -/
structure Layered (g : Graph) (d : Nat) (front back fresh : List Int) : Prop where
  here : ∀ id ∈ front, g.Steps d id
  ahead : ∀ id ∈ back, g.Steps (d + 1) id
  farther : ∀ n id, g.Steps n id → id ∈ fresh → d ≤ n
  waiting : ∀ id, g.Steps d id → id ∈ fresh → id ∈ front
  queued : ∀ id target, id ∉ fresh → target ∈ g.successorsOf id → target ∈ fresh →
    target ∈ front ++ back

section Search

variable {g : Graph} {d n : Nat} {id target : Int} {front back fresh queue : List Int}

theorem steps_target (steps : g.Steps (n + 1) target) :
    ∃ id, g.Steps n id ∧ target ∈ g.successorsOf id := by
  cases steps with
  | next steps leads => exact ⟨_, steps, leads⟩

/-- The next distance begins when no node of the last one waits. -/
theorem Layered.turn (layered : g.Layered d [] back fresh) : g.Layered (d + 1) back [] fresh where
  here := layered.ahead
  ahead := by simp
  farther := by
    intro n id steps member
    rcases Nat.lt_or_eq_of_le (layered.farther n id steps member) with farther | rfl
    · exact farther
    · cases layered.waiting id steps member
  waiting := by
    intro target steps member
    obtain ⟨id, before, leads⟩ := steps_target steps
    have gone : id ∉ fresh := fun here => by cases layered.waiting id before here
    exact layered.queued id target gone leads member
  queued := by
    intro id target gone leads member
    rw [List.append_nil]
    exact layered.queued id target gone leads member

/-- The head of the queue belongs to the distance that the search is at, or begins the next one. -/
theorem Layered.head (layered : g.Layered d front back fresh) (same : front ++ back = id :: queue) :
    ∃ d front back, g.Layered d (id :: front) back fresh ∧ front ++ back = queue := by
  cases front with
  | nil =>
    rw [List.nil_append] at same
    subst same
    exact ⟨d + 1, queue, [], layered.turn, List.append_nil queue⟩
  | cons k front =>
    obtain ⟨rfl, rest⟩ := List.cons.inj same
    exact ⟨d, front, back, layered, rest⟩

theorem Layered.pass (layered : g.Layered d (id :: front) back fresh) (stale : id ∉ fresh) :
    g.Layered d front back fresh where
  here := fun k member => layered.here k (List.mem_cons_of_mem id member)
  ahead := layered.ahead
  farther := layered.farther
  waiting := by
    intro k steps member
    have other : k ≠ id := fun same => stale (same ▸ member)
    exact List.mem_of_ne_of_mem other (layered.waiting k steps member)
  queued := by
    intro k target gone leads member
    have other : target ≠ id := fun same => stale (same ▸ member)
    exact List.mem_of_ne_of_mem other (layered.queued k target gone leads member)

theorem Layered.visit (layered : g.Layered d (id :: front) back fresh) (distinct : fresh.Nodup) :
    g.Layered d front (back ++ g.successorsOf id) (fresh.erase id) where
  here := fun k member => layered.here k (List.mem_cons_of_mem id member)
  ahead := by
    intro k member
    rcases List.mem_append.mp member with waits | leads
    · exact layered.ahead k waits
    · exact .next (layered.here id List.mem_cons_self) leads
  farther := fun n k steps member => layered.farther n k steps (List.mem_of_mem_erase member)
  waiting := by
    intro k steps member
    obtain ⟨other, member⟩ := distinct.mem_erase_iff.mp member
    exact List.mem_of_ne_of_mem other (layered.waiting k steps member)
  queued := by
    intro k target gone leads member
    obtain ⟨other, member⟩ := distinct.mem_erase_iff.mp member
    -- the targets of the visited node have just been queued
    by_cases same : k = id
    · subst same
      simp [leads]
    · have gone : k ∉ fresh := fun fresh => gone (distinct.mem_erase_iff.mpr ⟨same, fresh⟩)
      have waits := List.mem_of_ne_of_mem other (layered.queued k target gone leads member)
      rw [← List.append_assoc]
      exact List.mem_append_left _ waits

/-- When the queue is empty, no node that can be reached is left. -/
theorem Layered.done (layered : g.Layered d [] [] fresh) (steps : g.Steps n id) : id ∉ fresh := by
  induction steps with
  | root =>
    intro member
    have start := layered.farther 0 g.root .root member
    cases layered.waiting g.root (Nat.le_zero.mp start ▸ .root) member
  | @next n id target _ leads ih =>
    intro member
    cases layered.queued id target ih leads member

theorem mem_fresh_of_search (found : id ∈ g.search queue fresh) : id ∈ fresh := by
  fun_induction Graph.search g queue fresh with
  | case1 => cases found
  | case2 fresh k queue member _ _ ih =>
    rcases List.mem_cons.mp found with rfl | later
    · exact member
    · exact List.mem_of_mem_erase (ih later)
  | case3 fresh k queue stale ih => exact ih found

theorem search_nodup (distinct : fresh.Nodup) : (g.search queue fresh).Nodup := by
  fun_induction Graph.search g queue fresh with
  | case1 => exact List.nodup_nil
  | case2 fresh k queue member _ _ ih =>
    refine List.nodup_cons.mpr ⟨fun again => ?_, ih (distinct.erase k)⟩
    exact (distinct.mem_erase_iff.mp (mem_fresh_of_search again)).1 rfl
  | case3 fresh k queue stale ih => exact ih distinct

theorem mem_search (layered : g.Layered d front back fresh) (distinct : fresh.Nodup) :
    id ∈ g.search (front ++ back) fresh ↔ id ∈ fresh ∧ ∃ n, g.Steps n id := by
  generalize whole : front ++ back = queue
  fun_induction Graph.search g queue fresh generalizing d front back with
  | case1 fresh =>
    obtain ⟨rfl, rfl⟩ := List.append_eq_nil_iff.mp whole
    have none : ¬ (id ∈ fresh ∧ ∃ n, g.Steps n id) :=
      fun ⟨member, n, steps⟩ => layered.done steps member
    simpa using none
  | case2 fresh k queue member _ _ ih =>
    obtain ⟨d, front, back, layered, rfl⟩ := layered.head whole
    have later := ih (layered.visit distinct) (distinct.erase k) (by simp)
    rw [List.mem_cons, later, distinct.mem_erase_iff]
    constructor
    · rintro (rfl | ⟨⟨_, member⟩, steps⟩)
      · exact ⟨member, d, layered.here id List.mem_cons_self⟩
      · exact ⟨member, steps⟩
    · rintro ⟨member, steps⟩
      by_cases here : id = k
      · exact .inl here
      · exact .inr ⟨⟨here, member⟩, steps⟩
  | case3 fresh k queue stale ih =>
    obtain ⟨d, front, back, layered, rfl⟩ := layered.head whole
    exact ih (layered.pass stale) distinct rfl

theorem search_nearest (layered : g.Layered d front back fresh) (distinct : fresh.Nodup) :
    (g.search (front ++ back) fresh).Pairwise g.Nearer := by
  generalize whole : front ++ back = queue
  fun_induction Graph.search g queue fresh generalizing d front back with
  | case1 => exact .nil
  | case2 fresh k queue member _ _ ih =>
    obtain ⟨d, front, back, layered, rfl⟩ := layered.head whole
    have later := ih (layered.visit distinct) (distinct.erase k) (by simp)
    refine .cons (fun id found n steps => ?_) later
    have fresh := List.mem_of_mem_erase (mem_fresh_of_search found)
    exact ⟨d, layered.farther n id steps fresh, layered.here k List.mem_cons_self⟩
  | case3 fresh k queue stale ih =>
    obtain ⟨d, front, back, layered, rfl⟩ := layered.head whole
    exact ih (layered.pass stale) distinct rfl

end Search

/-! ## From the root -/

section Reachable

variable {g : Graph} {id : Int}

theorem successorsOf_missing (missing : id ∉ g.positions) : g.successorsOf id = [] := by
  have none : g.node? id = none := by
    by_contra present
    exact missing (node?_positions (Option.isSome_iff_ne_none.mpr present))
  simp [successorsOf, none]

theorem layered_root : g.Layered 0 [g.root] [] g.positions where
  here := by
    intro id member
    obtain rfl := List.mem_singleton.mp member
    exact .root
  ahead := by simp
  farther := fun n _ _ _ => Nat.zero_le n
  waiting := by
    intro id steps _
    cases steps
    exact List.mem_cons_self
  queued := by
    intro id target outside leads _
    rw [successorsOf_missing outside] at leads
    cases leads

theorem reachable_nodup : g.reachable.Nodup := search_nodup positions_nodup

theorem reachable_nearest : g.reachable.Pairwise g.Nearer :=
  search_nearest layered_root positions_nodup

theorem mem_reachable : id ∈ g.reachable ↔ id ∈ g.positions ∧ ∃ n, g.Steps n id :=
  mem_search layered_root positions_nodup

theorem reaches_iff_steps : g.Reaches id ↔ ∃ n, g.Steps n id := by
  constructor
  · intro reaches
    induction reaches with
    | root => exact ⟨0, .root⟩
    | step _ found member ih =>
      obtain ⟨n, steps⟩ := ih
      exact ⟨n + 1, .next steps (by simpa [successorsOf, found] using member)⟩
  · rintro ⟨n, steps⟩
    induction steps with
    | root => exact .root
    | @next n id target _ leads ih =>
      cases found : g.node? id with
      | none => simp [successorsOf, found] at leads
      | some n => exact .step ih found (by simpa [successorsOf, found] using leads)

end Reachable

end StackFlow.Graph
