import StackFlow.Proofs.Flow
import StackFlow.Proofs.Walks

/-!
Courses: the ways in which one flight can go on until it ends, fails or breaks. The books of a valve
hold exactly the ends of the courses of its seed, and a course that breaks stops the valve.
-/

namespace StackFlow

open Micheline (Instruction Code)

/-- `Course g n f r`: from `f`, through `n` nodes, a path ends with the stack `r`, or breaks if `r`
is none. -/
inductive Course (g : Graph) : Nat → Flight → Option Stack → Prop where
  | failed {f : Flight} : f.stack.isFailed = true → Course g 0 f (some f.stack)
  | ended {f : Flight} : f.stack.isFailed = false → f.node = noNode → Course g 0 f (some f.stack)
  | broken {f : Flight} {n : Node} {e : RunError} :
      f.stack.isFailed = false → g.node? f.node = some n → flow n f.stack = .error e →
      Course g 0 f none
  | flow {m : Nat} {f o : Flight} {n : Node} {outs : List Flight} {r : Option Stack} :
      f.stack.isFailed = false → g.node? f.node = some n → flow n f.stack = .ok outs → o ∈ outs →
      Course g m o r → Course g (m + 1) f r

section Walks

variable {g : Graph} {seed f : Flight} {w : List Nat} {via : Option Int}
  {r : Option Stack} {n : Nat}

theorem node?_noNode : g.node? noNode = none := by
  simp [Graph.node?, noNode]

theorem walk_alive (alive : seed.stack.isFailed = false) (walk : Walk g seed w via f)
    (sound : ¬ Fails via f) : f.stack.isFailed = false := by
  cases walk with
  | start => exact alive
  | flow _ _ _ _ => simpa [Fails] using sound

theorem walk_course (alive : seed.stack.isFailed = false) (walk : Walk g seed w via f)
    (course : Course g n f r) : ∃ m, Course g m seed r := by
  induction walk generalizing n with
  | start => exact ⟨n, course⟩
  | @flow w via f o i before active sound taken ih =>
    have alive := walk_alive alive before sound
    unfold Graph.outputs at taken
    split at taken
    · simp at taken
    · rename_i node found
      split at taken
      · rename_i outs flowed
        exact ih (.flow alive found flowed (List.mem_of_getElem? taken) course)
      · simp at taken

/-- Where a course from a seed leads, after walks through at most `k` nodes. -/
def Leads (g : Graph) (seed : Flight) (k : Nat) : Option Stack → Prop
  | some t =>
    (∃ w via f, w.length ≤ k ∧ Walk g seed w via f ∧ ¬ Fails via f ∧ f.node = noNode ∧
      f.stack = t) ∨
    ∃ w id f, w.length ≤ k ∧ Walk g seed w (some id) f ∧ f.stack.isFailed = true ∧ f.stack = t
  | none =>
    ∃ w via f, w.length ≤ k ∧ Walk g seed w via f ∧ ¬ Fails via f ∧
      ∃ n e, g.node? f.node = some n ∧ flow n f.stack = .error e

theorem course_leads (alive : seed.stack.isFailed = false) (course : Course g n f r)
    (walk : Walk g seed w via f) : Leads g seed (w.length + n) r := by
  induction course generalizing w via with
  | @failed f fails =>
    cases walk with
    | start => simp [alive] at fails
    | flow before active sound taken =>
      exact .inr ⟨_, _, f, Nat.le_refl _, .flow before active sound taken, fails, rfl⟩
  | @ended f sound ends =>
    exact .inl ⟨w, via, f, Nat.le_refl _, walk, by simp [Fails, sound], ends, rfl⟩
  | @broken f n e sound found refused =>
    exact ⟨w, via, f, Nat.le_refl _, walk, by simp [Fails, sound], n, e, found, refused⟩
  | @flow m f o n outs r sound found flowed member _ ih =>
    obtain ⟨i, taken⟩ := List.mem_iff_getElem?.mp member
    have active : f.node ≠ noNode := by
      intro none
      simp [none, node?_noNode] at found
    have outputs : g.outputs f = outs := by simp [Graph.outputs, found, flowed]
    have next := ih (.flow walk active (by simp [Fails, sound]) (outputs ▸ taken))
    have length : (w ++ [i]).length + m = w.length + (m + 1) := by
      simp
      omega
    rwa [length] at next

end Walks

/-! ## The books of a valve -/

section Books

variable {g : Graph} {initial : Stack} {budget : Int} {tag : String} {k : Nat} {v : Valve}
  (alive : initial.isFailed = false)
  (run : Valve.Advances k (Valve.opened g initial budget tag) v)

include alive run

theorem finished_course {f : Flight} (member : f ∈ v.finished) :
    f.stack.isFailed = false ∧ ∃ n, Course g n ⟨g.root, initial⟩ (some f.stack) := by
  obtain ⟨w, _, _, via, walk, sound, ends⟩ :=
    (enumerates_mem (exact_advances run).finished f).mp (Array.mem_toList_iff.mpr member)
  have alive' := walk_alive alive walk sound
  exact ⟨alive', walk_course alive walk (.ended alive' ends)⟩

theorem failed_course {f : Flight} (member : f ∈ v.failed) :
    f.stack.isFailed = true ∧ ∃ n, Course g n ⟨g.root, initial⟩ (some f.stack) := by
  obtain ⟨w, _, o, walk, fails, same⟩ :=
    (enumerates_mem (exact_advances run).failed f).mp (Array.mem_toList_iff.mpr member)
  rw [← same]
  exact ⟨fails, walk_course alive walk (.failed fails)⟩

/-- After enough steps every course has come to its end, and stands in the books. -/
theorem course_recorded {n : Nat} {r : Option Stack} (course : Course g n ⟨g.root, initial⟩ r)
    (enough : n < k) : ∃ t, r = some t ∧
      ((t.isFailed = false ∧ ∃ f ∈ v.finished, f.stack = t) ∨
        (t.isFailed = true ∧ ∃ f ∈ v.failed, f.stack = t)) := by
  have leads := course_leads alive course .start
  rw [List.length_nil, Nat.zero_add] at leads
  have books := exact_advances run
  cases r with
  | some t =>
    refine ⟨t, rfl, ?_⟩
    rcases leads with ⟨w, via, f, short, walk, sound, ends, rfl⟩ |
      ⟨w, id, f, short, walk, fails, rfl⟩
    · have member : f ∈ v.finished.toList := (enumerates_mem books.finished f).mpr
        ⟨w, by omega, by omega, via, walk, sound, ends⟩
      exact .inl ⟨walk_alive alive walk sound, f, Array.mem_toList_iff.mp member, rfl⟩
    · have member : (⟨id, f.stack⟩ : Flight) ∈ v.failed.toList :=
        (enumerates_mem books.failed _).mpr ⟨w, by omega, f, walk, fails, rfl⟩
      exact .inr ⟨fails, _, Array.mem_toList_iff.mp member, rfl⟩
  | none =>
    -- the step at which the course breaks cannot have succeeded
    obtain ⟨w, via, f, short, walk, sound, node, e, found, refused⟩ := leads
    obtain ⟨u, u', canceled, entries, before, accepted⟩ :=
      Valve.advances_within run (show w.length < k by omega)
    have active : f.node ≠ noNode := by
      intro none
      simp [none, node?_noNode] at found
    have front : f ∈ u.frontier := (enumerates_mem (exact_advances before).frontier f).mpr
      ⟨w, rfl, via, walk, sound, .inr active⟩
    have graph : u.graph = g := Valve.advances_graph before
    obtain ⟨p, passed⟩ := Valve.advance_passes accepted front
    rcases Valve.passage_ok passed with ⟨ended, _⟩ | ⟨node', outs, _, there, flowed, _⟩
    · exact absurd ended active
    · rw [graph] at there
      cases Option.some.inj (found.symm.trans there)
      cases refused.symm.trans flowed

end Books

end StackFlow
