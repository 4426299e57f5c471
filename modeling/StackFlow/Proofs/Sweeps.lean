import Mathlib
import StackFlow.Proofs.Search

/-!
The search from the root as a loop. Each turn takes one position from the queue and passes over it if
it was found before or is outside the graph. A position may wait in the queue many times; but only a
node that is found puts new ones there, and it is found once. Main statement: the loop ends after one
turn for the root and one for each edge of a node that is found, and has then found the nodes that
the root leads to, each once and in the order of their distances.
-/

namespace StackFlow.Graph

/-- A search on its way: the positions that wait, and the nodes found so far. -/
structure Sweep where
  queue : List Int
  found : List Int

def Sweep.turn (g : Graph) (s : Sweep) : Sweep :=
  match s.queue with
  | [] => s
  | id :: queue =>
    if id ∈ s.found ∨ id < 0 ∨ g.size ≤ id then { s with queue }
    else ⟨queue ++ g.successorsOf id, s.found ++ [id]⟩

/-- The number of edges that leave the nodes, each counted as often as it is there. -/
def edgesFrom (g : Graph) (ids : List Int) : Nat :=
  (ids.map fun id => (g.successorsOf id).length).sum

/-- The least number of edges from the root to a node. -/
noncomputable def distance (g : Graph) (id : Int) : Nat := sInf {n | g.Steps n id}

section Turns

variable {g : Graph} {id : Int} {queue found fresh : List Int}

theorem mem_positions : id ∈ g.positions ↔ 0 ≤ id ∧ id < g.size := by
  constructor
  · intro member
    obtain ⟨k, inside, rfl⟩ := List.mem_map.mp member
    have upper := List.mem_range.mp inside
    simp only [Int.ofNat_eq_natCast]
    omega
  · rintro ⟨lower, upper⟩
    obtain ⟨k, rfl⟩ := Int.eq_ofNat_of_zero_le lower
    exact List.mem_map.mpr ⟨k, List.mem_range.mpr (by omega), rfl⟩

/-- The fresh positions are those of the graph that have not been found. -/
structure Left (g : Graph) (found fresh : List Int) : Prop where
  distinct : fresh.Nodup
  mem_iff : ∀ id, id ∈ fresh ↔ id ∈ g.positions ∧ id ∉ found

theorem left_root : g.Left [] g.positions := ⟨positions_nodup, by simp⟩

theorem Left.find (left : g.Left found fresh) : g.Left (found ++ [id]) (fresh.erase id) where
  distinct := left.distinct.erase id
  mem_iff := by
    intro k
    rw [left.distinct.mem_erase_iff, left.mem_iff k, List.mem_append, List.mem_singleton]
    tauto

theorem turn_finds (left : g.Left found fresh) (member : id ∈ fresh) :
    Sweep.turn g ⟨id :: queue, found⟩ = ⟨queue ++ g.successorsOf id, found ++ [id]⟩ := by
  obtain ⟨inside, unseen⟩ := (left.mem_iff id).mp member
  obtain ⟨lower, upper⟩ := mem_positions.mp inside
  refine if_neg ?_
  rintro (seen | below | above)
  · exact unseen seen
  · omega
  · omega

theorem turn_passes (left : g.Left found fresh) (stale : id ∉ fresh) :
    Sweep.turn g ⟨id :: queue, found⟩ = ⟨queue, found⟩ := by
  refine if_pos ?_
  by_contra wanted
  simp only [not_or] at wanted
  exact stale ((left.mem_iff id).mpr ⟨mem_positions.mpr (by omega), wanted.1⟩)

/-- The loop ends: it takes what waits from the queue, and the target of each edge of the nodes that
are still to be found. -/
theorem turns_search (left : g.Left found fresh) :
    (Sweep.turn g)^[queue.length + g.edgesFrom (g.search queue fresh)] ⟨queue, found⟩ =
      ⟨[], found ++ g.search queue fresh⟩ := by
  fun_induction Graph.search g queue fresh generalizing found with
  | case1 => simp [edgesFrom]
  | case2 fresh id queue member _ _ ih =>
    have turns : (id :: queue).length +
        g.edgesFrom (id :: g.search (queue ++ g.successorsOf id) (fresh.erase id)) =
        (queue ++ g.successorsOf id).length +
          g.edgesFrom (g.search (queue ++ g.successorsOf id) (fresh.erase id)) + 1 := by
      simp only [edgesFrom, List.map_cons, List.sum_cons, List.length_cons, List.length_append]
      omega
    rw [turns, Function.iterate_succ_apply, turn_finds left member, ih left.find,
      List.append_assoc, List.singleton_append]
  | case3 fresh id queue stale ih =>
    rw [List.length_cons, Nat.add_right_comm, Function.iterate_succ_apply, turn_passes left stale,
      ih left]

end Turns

section Root

variable {g : Graph} {id : Int}

theorem steps_distance (member : id ∈ g.reachable) : g.Steps (g.distance id) id :=
  Nat.sInf_mem (mem_reachable.mp member).2

theorem distance_le {n : Nat} (steps : g.Steps n id) : g.distance id ≤ n := Nat.sInf_le steps

theorem distances_sorted : (g.reachable.map g.distance).Pairwise (· ≤ ·) := by
  rw [List.pairwise_map]
  refine reachable_nearest.imp_of_mem fun {id other} _ member nearer => ?_
  obtain ⟨m, below, steps⟩ := nearer _ (steps_distance member)
  exact Nat.le_trans (distance_le steps) below

end Root

/-! ## Main statement -/

/-- The search from the root ends and is exact, whatever targets the nodes have: it finds the nodes
of the graph to which edges lead from the root through nodes of the graph, each once and the nearer
ones first. -/
theorem reachable_breadth_first (g : Graph) :
    (Sweep.turn g)^[1 + g.edgesFrom g.reachable] ⟨[g.root], []⟩ = ⟨[], g.reachable⟩ ∧
    g.reachable.Nodup ∧
    (∀ id, id ∈ g.reachable ↔ (0 ≤ id ∧ id < g.size) ∧ ∃ n, g.Steps n id) ∧
    (g.reachable.map g.distance).Pairwise (· ≤ ·) := by
  have ends := @turns_search g [g.root] [] g.positions left_root
  refine ⟨ends, reachable_nodup, fun id => ?_, distances_sorted⟩
  rw [mem_reachable, mem_positions]

/-- A cycle, an edge that is there twice and targets outside the graph. -/
example : reachable ⟨#[.fork 0 "IF" [2, 2], .tube 1 [] 0, .fork 2 "LOOP" [1, -7, 3]], 0⟩ =
    [0, 2, 1] := by
  cbv

end StackFlow.Graph
