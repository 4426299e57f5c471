import Mathlib.Data.List.Forall2
import StackFlow.Proofs.Drafts
import StackFlow.Proofs.Flow

/-!
What one step of a valve does. A step that succeeds has flowed every flight of the frontier and
commits the passages in order; a step that fails does so at one flight, or because it was canceled
or ran out of budget. Runs are sequences of steps that succeeded.
-/

namespace StackFlow.Valve

variable {v v' : Valve} {canceled : Nat → Bool} {a : Abort} {f : Flight} {p : Passage}

theorem passage_ok (accepted : v.passage f = .ok p) :
    (f.node = noNode ∧ p = .ended f) ∨
    ∃ n outs, f.node ≠ noNode ∧ v.graph.node? f.node = some n ∧ flow n f.stack = .ok outs ∧
      p = .through f.node n outs := by
  unfold passage at accepted
  split at accepted
  · rename_i ended
    exact .inl ⟨ended, (Except.ok.inj accepted).symm⟩
  · rename_i active
    split at accepted
    · contradiction
    · rename_i n found
      split at accepted
      · rename_i outs flowed
        exact .inr ⟨n, outs, active, found, flowed, (Except.ok.inj accepted).symm⟩
      · contradiction

theorem passage_graph {u : Valve} (same : u.graph = v.graph) (accepted : v.passage f = .ok p) :
    u.passage f = .ok p := by
  rcases passage_ok accepted with ⟨ended, rfl⟩ | ⟨n, outs, active, found, flowed, rfl⟩
  · rw [passage, if_pos ended]
  · rw [← same] at found
    rw [passage, if_neg active, found]
    simp only [flowed]

theorem passage_error (refused : v.passage f = .error a) :
    f.node ≠ noNode ∧
    ((v.graph.node? f.node = none ∧ a.cause = .missingNode f.node v.graph.size) ∨
      ∃ n, v.graph.node? f.node = some n ∧ flow n f.stack = .error a.cause) := by
  unfold passage at refused
  split at refused
  · contradiction
  · rename_i active
    refine ⟨active, ?_⟩
    split at refused
    · rename_i missing
      cases Except.error.inj refused
      exact .inl ⟨missing, rfl⟩
    · rename_i n found
      split at refused
      · contradiction
      · rename_i e failed
        cases Except.error.inj refused
        exact .inr ⟨n, found, failed⟩

theorem passages_ok {fs : List Flight} {done : Array Passage} {count : Nat} {ps : Array Passage}
    (accepted : v.passages canceled fs done count = .ok ps) :
    ∃ qs, ps.toList = done.toList ++ qs ∧ List.Forall₂ (fun f p => v.passage f = .ok p) fs qs := by
  induction fs generalizing done count with
  | nil =>
    cases Except.ok.inj accepted
    exact ⟨[], by simp, .nil⟩
  | cons f fs ih =>
    unfold passages at accepted
    split at accepted
    · contradiction
    · split at accepted
      · contradiction
      · rename_i p passed
        dsimp only at accepted
        split at accepted
        · contradiction
        · obtain ⟨qs, split, rest⟩ := ih accepted
          refine ⟨p :: qs, ?_, .cons passed rest⟩
          rw [split, Array.toList_push, List.append_assoc, List.singleton_append]

theorem passages_error {fs : List Flight} {done : Array Passage} {count : Nat}
    (refused : v.passages canceled fs done count = .error a) :
    a.cause = .canceled ∨ a.cause = .stackBudget v.maxStacks ∨
      ∃ f ∈ fs, v.passage f = .error a := by
  induction fs generalizing done count with
  | nil => contradiction
  | cons f fs ih =>
    unfold passages at refused
    split at refused
    · cases Except.error.inj refused
      exact .inl rfl
    · split at refused
      · rename_i failed
        cases Except.error.inj refused
        exact .inr (.inr ⟨f, List.mem_cons_self, failed⟩)
      · dsimp only at refused
        split at refused
        · cases Except.error.inj refused
          exact .inr (.inl rfl)
        · rcases ih refused with h | h | ⟨g, member, failed⟩
          · exact .inl h
          · exact .inr (.inl h)
          · exact .inr (.inr ⟨g, List.mem_cons_of_mem f member, failed⟩)

theorem passage_of_mem {fs : List Flight} {ps : List Passage}
    (passed : List.Forall₂ (fun f p => v.passage f = .ok p) fs ps) (member : p ∈ ps) :
    ∃ f ∈ fs, v.passage f = .ok p := by
  induction passed with
  | nil => contradiction
  | cons first _ ih =>
    rcases List.mem_cons.mp member with rfl | member
    · exact ⟨_, List.mem_cons_self, first⟩
    · obtain ⟨f, among, flowed⟩ := ih member
      exact ⟨f, List.mem_cons_of_mem _ among, flowed⟩

theorem mem_appendList {α : Type} {xs : Array α} {l : List α} {a : α} :
    a ∈ xs ++ l ↔ a ∈ xs ∨ a ∈ l := by
  rw [← Array.mem_toList_iff, Array.toList_appendList, List.mem_append, Array.mem_toList_iff]

theorem map_appendList {α β : Type} (f : α → β) (xs : Array α) (l : List α) :
    (xs ++ l).map f = xs.map f ++ l.map f := by
  apply Array.toList_inj.mp
  simp

/-- A step that succeeds has flowed all of the frontier, and commits it. -/
theorem advance_commit {entries : List Entry} (accepted : v.advance canceled = .ok (v', entries)) :
    ∃ ps, List.Forall₂ (fun f p => v.passage f = .ok p) v.frontier ps ∧
      v.commit ps = (v', entries) := by
  rw [advance_eq] at accepted
  split at accepted
  · rename_i ps passed
    obtain ⟨qs, split, flowed⟩ := passages_ok passed
    have same : ps.toList = qs := by simpa using split
    rw [same] at accepted
    exact ⟨qs, flowed, Except.ok.inj accepted⟩
  · contradiction

theorem advance_ok {entries : List Entry} (accepted : v.advance canceled = .ok (v', entries)) :
    ∃ ps, List.Forall₂ (fun f p => v.passage f = .ok p) v.frontier ps ∧
      v' = (v.commit ps).1 := by
  obtain ⟨ps, flowed, commits⟩ := advance_commit accepted
  exact ⟨ps, flowed, (congrArg Prod.fst commits).symm⟩

theorem advance_passes {entries : List Entry} (accepted : v.advance canceled = .ok (v', entries))
    (front : f ∈ v.frontier) : ∃ p, v.passage f = .ok p := by
  obtain ⟨ps, passed, commits⟩ := advance_ok accepted
  clear commits
  generalize v.frontier = fs at passed front
  induction passed with
  | nil => contradiction
  | cons first _ ih =>
    rcases List.mem_cons.mp front with rfl | front
    · exact ⟨_, first⟩
    · exact ih front

/-- A flight that is in the frontier behind a step has come through a node in it. -/
theorem advance_frontier {entries : List Entry}
    (accepted : v.advance canceled = .ok (v', entries)) {o : Flight} (member : o ∈ v'.frontier) :
    ∃ f ∈ v.frontier, ∃ n outs, v.graph.node? f.node = some n ∧ flow n f.stack = .ok outs ∧
      o ∈ outs ∧ o.stack.isFailed = false ∧ o.node ≠ noNode := by
  obtain ⟨ps, passed, rfl⟩ := advance_ok accepted
  obtain ⟨p, among, next⟩ := List.mem_flatMap.mp member
  obtain ⟨f, front, crossed⟩ := passage_of_mem passed among
  rcases passage_ok crossed with ⟨_, rfl⟩ | ⟨n, outs, _, found, flowed, rfl⟩
  · contradiction
  · simp only [Passage.next, List.mem_filter, Bool.and_eq_true, Bool.not_eq_true',
      bne_iff_ne] at next
    exact ⟨f, front, n, outs, found, flowed, next.1, next.2.1, next.2.2⟩

theorem advance_error (refused : v.advance canceled = .error a) :
    a.cause = .canceled ∨ a.cause = .stackBudget v.maxStacks ∨
      ∃ f ∈ v.frontier, v.passage f = .error a := by
  rw [advance_eq] at refused
  split at refused
  · contradiction
  · rename_i failed
    cases Except.error.inj refused
    exact passages_error failed

theorem passage_left (refused : v.passage f = .error a) :
    a.valve = v ∧ ∃ rs : List Log.Record, a.entries = rs.map Entry.log := by
  unfold passage at refused
  split at refused
  · contradiction
  · split at refused
    · cases Except.error.inj refused
      exact ⟨rfl, [], rfl⟩
    · split at refused
      · contradiction
      · cases Except.error.inj refused
        exact ⟨rfl, [_], rfl⟩

theorem passages_left {fs : List Flight} {done : Array Passage} {count : Nat}
    (refused : v.passages canceled fs done count = .error a) :
    a.valve = v ∧ ∃ rs : List Log.Record, a.entries = rs.map Entry.log := by
  induction fs generalizing done count with
  | nil => contradiction
  | cons f fs ih =>
    unfold passages at refused
    split at refused
    · cases Except.error.inj refused
      exact ⟨rfl, [], rfl⟩
    · split at refused
      · rename_i failed
        cases Except.error.inj refused
        exact passage_left failed
      · dsimp only at refused
        split at refused
        · cases Except.error.inj refused
          exact ⟨rfl, [_], rfl⟩
        · exact ih refused

/-- A step that fails leaves the valve as it was, and has reported nothing but log records. -/
theorem advance_left (refused : v.advance canceled = .error a) :
    a.valve = v ∧ ∃ rs : List Log.Record, a.entries = rs.map Entry.log := by
  rw [advance_eq] at refused
  split at refused
  · contradiction
  · rename_i failed
    cases Except.error.inj refused
    exact passages_left failed

/-! ## What a step records -/

theorem passage_productive (passed : v.passage f = .ok p) : p.Productive := by
  rcases passage_ok passed with ⟨_, rfl⟩ | ⟨n, outs, _, _, flowed, rfl⟩
  · trivial
  · rintro rfl
    rcases flow_cases flowed with ⟨_, _, _, empty⟩ | ⟨_, _, _, _, _, _, _, _, empty⟩ <;>
      cases empty

theorem passed_productive {fs : List Flight} {ps : List Passage}
    (passed : List.Forall₂ (fun f p => v.passage f = .ok p) fs ps) : ∀ p ∈ ps, p.Productive := by
  intro p member
  obtain ⟨f, _, through⟩ := passage_of_mem passed member
  exact passage_productive through

/-- Node by node, a step records just the stacks that were put out. -/
theorem memoAt_commit {fs : List Flight} {ps : List Passage}
    (passed : List.Forall₂ (fun f p => v.passage f = .ok p) fs ps) (id : Int) :
    (v.commit ps).1.memoAt id = v.memoAt id ++ stacksOf id (ps.flatMap Passage.recorded) :=
  Draft.stacksAt_record (Draft.tracks_ofPassages (passed_productive passed)) v.memo

theorem memo_commit {fs : List Flight} {ps : List Passage}
    (passed : List.Forall₂ (fun f p => v.passage f = .ok p) fs ps) :
    (v.commit ps).1.memo.all.Perm (v.memo.all ++ ps.flatMap Passage.recorded) :=
  Memo.all_perm fun id => memoAt_commit passed id

theorem commit_recorded (ps : List Passage) :
    (v.commit ps).1.recorded = v.recorded + (ps.flatMap Passage.recorded).length := rfl

/-- The counter of recorded stacks counts what the memo holds. -/
def Counted (v : Valve) : Prop := v.recorded = v.memo.all.length

theorem advance_counted {entries : List Entry} (counted : v.Counted)
    (accepted : v.advance canceled = .ok (v', entries)) : v'.Counted := by
  obtain ⟨ps, passed, rfl⟩ := advance_ok accepted
  rw [Counted, (memo_commit passed).length_eq, List.length_append, commit_recorded, counted]

/-- `Advances k v v'`: `k` steps from `v` succeeded, each under a signal of its own, and led to
`v'`. -/
inductive Advances : Nat → Valve → Valve → Prop where
  | none {v : Valve} : Advances 0 v v
  | step {k : Nat} {v v' v'' : Valve} {canceled : Nat → Bool} {entries : List Entry} :
      Advances k v v' → v'.advance canceled = .ok (v'', entries) → Advances (k + 1) v v''

/-- A run goes on with the passages of its frontier, if nobody cancels it and they can be made. -/
theorem Advances.next {k : Nat} {ps : Array Passage} (before : Advances k v v')
    (passed : v'.passages (fun _ => false) v'.frontier #[] 0 = .ok ps) :
    Advances (k + 1) v (v'.commit ps.toList).1 :=
  .step before (by rw [advance_eq, passed])

theorem advances_graph {k : Nat} (run : Advances k v v') : v'.graph = v.graph := by
  induction run with
  | none => rfl
  | step _ accepted ih =>
    obtain ⟨ps, _, rfl⟩ := advance_ok accepted
    exact ih

/-- A run goes through all shorter ones. -/
theorem advances_within {k l : Nat} (run : Advances k v v') (shorter : l < k) :
    ∃ u u' canceled entries, Advances l v u ∧ u.advance canceled = .ok (u', entries) := by
  induction run with
  | none => omega
  | step before accepted ih =>
    rename_i k _ _ _ _ _
    by_cases last : l = k
    · subst last
      exact ⟨_, _, _, _, before, accepted⟩
    · exact ih (by omega)

/-- A valve without a frontier can step on, and its books stay as they are. -/
theorem advances_drained {k : Nat} (run : Advances k v v') (drained : v'.frontier = []) (m : Nat) :
    ∃ u, Advances (k + m) v u ∧ u.frontier = [] ∧
      u.finished = v'.finished ∧ u.failed = v'.failed := by
  induction m with
  | zero => exact ⟨v', run, drained, rfl, rfl⟩
  | succ m ih =>
    obtain ⟨u, before, empty, finished, failed⟩ := ih
    have accepted : u.advance (fun _ => false) = .ok (u.commit []) := by
      simp [advance_eq, empty, passages]
    exact ⟨(u.commit []).1, .step before accepted, rfl, by simp [commit, finished],
      by simp [commit, failed]⟩

/-- A valve that has not stepped yet, with any budget and tag. -/
def opened (g : Graph) (initial : Stack) (budget : Int) (tag : String) : Valve :=
  { start g initial with maxStacks := budget, analysisId := tag }

end StackFlow.Valve
