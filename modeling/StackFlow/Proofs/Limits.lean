import Mathlib.Algebra.BigOperators.Ring.Finset
import StackFlow.Engine
import StackFlow.Proofs.Balance

/-!
Limits cut runs short and change nothing else. A run that nobody cancels makes its steps until the
frontier is empty, the step limit is reached, or a step is given up; a looser limit makes at least
the same steps. Main statement: cut runs are resumed where they stopped, what they have found stays a
prefix of what longer runs find, and a run that was not cut is the same under all limits that permit
it.
-/

namespace StackFlow

/-- A limit permits an amount; there is no bound unless it is positive. -/
def Permits (limit amount : Int) : Prop := limit ≤ 0 ∨ amount ≤ limit

/-- The second limit is at most as strict as the first. -/
def Looser (limit limit' : Int) : Prop := limit' ≤ 0 ∨ 0 < limit ∧ limit ≤ limit'

theorem permits_of_looser {limit limit' amount : Int} (looser : Looser limit limit')
    (permits : Permits limit amount) : Permits limit' amount := by
  unfold Looser at looser
  unfold Permits at permits ⊢
  omega

theorem permits_of_le {limit amount amount' : Int} (permits : Permits limit amount')
    (le : amount ≤ amount') : Permits limit amount := by
  unfold Permits at permits ⊢
  omega

namespace Valve

def withBudget (v : Valve) (budget : Int) : Valve := { v with maxStacks := budget }

/-! ## One step under another budget -/

section Budgets

variable {v v' : Valve} {canceled : Nat → Bool} {entries : List Entry} {budget : Int}

theorem passages_rebudget {fs : List Flight} {done ps : Array Passage} {count : Nat}
    (counted : (done.toList.flatMap (·.recorded)).length = count)
    (passed : v.passages canceled fs done count = .ok ps)
    (room : ∀ x : Int, x ≤ v.recorded + (ps.toList.flatMap (·.recorded)).length →
      Permits v.maxStacks x → Permits budget x) :
    (v.withBudget budget).passages canceled fs done count = .ok ps := by
  induction fs generalizing done count with
  | nil => exact passed
  | cons f fs ih =>
    unfold passages at passed ⊢
    split at passed
    · contradiction
    · rename_i going
      rw [if_neg going]
      split at passed
      · contradiction
      · rename_i p crossed
        have again : (v.withBudget budget).passage f = .ok p := passage_graph (v := v) rfl crossed
        rw [again]
        dsimp only at passed ⊢
        split at passed
        · contradiction
        · rename_i within
          have recounted :
              ((done.push p).toList.flatMap (·.recorded)).length = count + p.recorded.length := by
            simp [counted]
          obtain ⟨qs, split, _⟩ := passages_ok passed
          have upper : count + p.recorded.length ≤ (ps.toList.flatMap (·.recorded)).length := by
            rw [split, List.flatMap_append, List.length_append, recounted]
            omega
          rw [if_neg]
          · exact ih recounted passed
          · cases p with
            | ended f => exact Bool.false_ne_true
            | through id n outs =>
              have old : Permits v.maxStacks
                  (v.recorded + (count + (Passage.through id n outs).recorded.length : Nat)) := by
                unfold Permits
                simp only [overdrawn, Bool.and_eq_true, decide_eq_true_eq] at within
                omega
              have new := room _ (by omega) old
              unfold Permits at new
              simp only [overdrawn, Bool.and_eq_true, decide_eq_true_eq]
              change ¬ (0 < budget ∧ budget < v.recorded + (count + _ : Nat))
              omega

/-- A step that is made under one budget is made under every other one that permits as much. -/
theorem advance_rebudget (accepted : v.advance canceled = .ok (v', entries))
    (room : ∀ x : Int, x ≤ v'.recorded → Permits v.maxStacks x → Permits budget x) :
    (v.withBudget budget).advance canceled = .ok (v'.withBudget budget, entries) := by
  rw [advance_eq] at accepted ⊢
  split at accepted
  · rename_i ps passed
    have commits := Except.ok.inj accepted
    have behind : v' = (v.commit ps.toList).1 := (congrArg Prod.fst commits).symm
    rw [behind, commit_recorded] at room
    have again : (v.withBudget budget).passages canceled v.frontier #[] 0 = .ok ps :=
      passages_rebudget (by simp) passed fun x le => room x (by simpa using le)
    have same : (v.withBudget budget).commit ps.toList =
        ((v.commit ps.toList).1.withBudget budget, (v.commit ps.toList).2) := rfl
    have frontier : (v.withBudget budget).frontier = v.frontier := rfl
    rw [frontier, again]
    simp only [same, commits]
  · contradiction

theorem advance_grows (accepted : v.advance canceled = .ok (v', entries)) :
    v.finished.toList <+: v'.finished.toList ∧ v.failed.toList <+: v'.failed.toList ∧
      v.recorded ≤ v'.recorded := by
  obtain ⟨ps, _, rfl⟩ := advance_ok accepted
  rw [commit_recorded]
  refine ⟨⟨_, (Array.toList_appendList ..).symm⟩, ⟨_, (Array.toList_appendList ..).symm⟩, by omega⟩

end Budgets

/-! ## Runs that nobody cancels -/

/-- `Runs limit v events w e`: a run from `v` with a limit on the steps ends at `w`, with the error
`e` if there is one, and reports `events`. -/
inductive Runs (limit : Int) : Valve → List Event → Valve → Option RunError → Prop where
  | drained {v : Valve} : v.frontier = [] → Runs limit v [] v none
  | limited {v : Valve} : v.frontier ≠ [] → ¬ Permits limit (v.steps + 1) →
      Runs limit v [] v (some .stepLimit)
  | aborted {v : Valve} {a : Abort} : v.frontier ≠ [] → Permits limit (v.steps + 1) →
      v.advance (fun _ => false) = .error a → Runs limit v [] v (some a.cause)
  | step {v v' w : Valve} {entries : List Entry} {events : List Event} {e : Option RunError} :
      v.frontier ≠ [] → Permits limit (v.steps + 1) →
      v.advance (fun _ => false) = .ok (v', entries) → Runs limit v' events w e →
      Runs limit v (eventsOf entries ++ events) w e

section Runs

variable {v u w w' : Valve} {limit limit' budget : Int} {events events' : List Event}
  {e e' : Option RunError} {fuel : Nat} {t : Array Entry} {r : Run}

theorem limited_iff : (0 < limit && limit ≤ v.steps) = true ↔ ¬ Permits limit (v.steps + 1) := by
  unfold Permits
  simp only [Bool.and_eq_true, decide_eq_true_eq]
  omega

theorem isDone_iff : v.isDone = true ↔ v.frontier = [] := by
  simp [isDone]

theorem runs_steps (runs : Runs limit v events w e) : v.steps ≤ w.steps := by
  induction runs with
  | drained | limited | aborted => exact Nat.le_refl _
  | step _ _ accepted _ ih =>
    have one := advance_steps accepted
    omega

theorem runs_of_run (ended : run .never limit fuel v t = some r) :
    ∃ events, Runs limit v events r.valve r.error ∧
      eventsOf r.trace.toList = eventsOf t.toList ++ events ∧ r.valve.steps < v.steps + fuel := by
  induction fuel generalizing v t with
  | zero => cases ended
  | succ fuel ih =>
    rw [run_succ] at ended
    split at ended
    · rename_i done
      cases ended
      exact ⟨[], .drained (isDone_iff.mp done), by simp [eventsOf, Entry.event?], by simp⟩
    · rename_i going
      have active : v.frontier ≠ [] := fun empty => going (isDone_iff.mpr empty)
      split at ended
      · rename_i reached
        cases ended
        exact ⟨[], .limited active (limited_iff.mp reached), by simp [eventsOf, Entry.event?],
          by simp⟩
      · rename_i below
        have permitted : Permits limit (v.steps + 1) := by
          by_contra reached
          exact below (limited_iff.mpr reached)
        split at ended
        · rename_i a refused
          obtain ⟨cause, valve, entries⟩ := a
          obtain ⟨rfl, rs, rfl⟩ := advance_left refused
          cases ended
          exact ⟨[], .aborted active permitted refused, by simp, by simp⟩
        · rename_i v' entries accepted
          obtain ⟨events, runs, reported, bound⟩ := ih ended
          have one := advance_steps accepted
          refine ⟨_, .step active permitted accepted runs, ?_, by omega⟩
          rw [reported]
          simp

theorem run_of_runs (runs : Runs limit v events w e) (enough : w.steps < v.steps + fuel)
    (t : Array Entry) : ∃ trace, run .never limit fuel v t = some ⟨w, trace, e⟩ ∧
      eventsOf trace.toList = eventsOf t.toList ++ events := by
  induction runs generalizing fuel t with
  | drained empty =>
    obtain ⟨fuel, rfl⟩ := Nat.exists_eq_succ_of_ne_zero (n := fuel) (by omega)
    rw [run_succ, if_pos (isDone_iff.mpr empty)]
    exact ⟨_, rfl, by simp [eventsOf, Entry.event?]⟩
  | limited active reached =>
    obtain ⟨fuel, rfl⟩ := Nat.exists_eq_succ_of_ne_zero (n := fuel) (by omega)
    rw [run_succ, if_neg (mt isDone_iff.mp active), if_pos (limited_iff.mpr reached)]
    exact ⟨_, rfl, by simp [eventsOf, Entry.event?]⟩
  | @aborted v a active permitted refused =>
    obtain ⟨fuel, rfl⟩ := Nat.exists_eq_succ_of_ne_zero (n := fuel) (by omega)
    have below := fun reached => limited_iff.mp reached permitted
    have left := advance_left refused
    have refused : v.advance (Signal.never t) = .error a := refused
    rw [run_succ, if_neg (mt isDone_iff.mp active), if_neg below, refused]
    obtain ⟨cause, valve, entries⟩ := a
    obtain ⟨rfl, rs, rfl⟩ := left
    exact ⟨_, rfl, by simp⟩
  | @step v v' w entries events e active permitted accepted rest ih =>
    have one := advance_steps accepted
    have more := runs_steps rest
    obtain ⟨fuel, rfl⟩ := Nat.exists_eq_succ_of_ne_zero (n := fuel) (by omega)
    have below := fun reached => limited_iff.mp reached permitted
    have accepted : v.advance (Signal.never t) = .ok (v', entries) := accepted
    obtain ⟨trace, ended, reported⟩ := @ih fuel (by omega) (t ++ entries)
    rw [run_succ, if_neg (mt isDone_iff.mp active), if_neg below, accepted]
    refine ⟨trace, ended, ?_⟩
    rw [reported]
    simp

theorem runs_grow (runs : Runs limit v events w e) :
    v.finished.toList <+: w.finished.toList ∧ v.failed.toList <+: w.failed.toList ∧
      v.recorded ≤ w.recorded := by
  induction runs with
  | drained | limited | aborted =>
    exact ⟨List.prefix_refl _, List.prefix_refl _, Nat.le_refl _⟩
  | step _ _ accepted _ ih =>
    obtain ⟨finished, failed, recorded⟩ := advance_grows accepted
    exact ⟨finished.trans ih.1, failed.trans ih.2.1, Nat.le_trans recorded ih.2.2⟩

theorem runs_counted (runs : Runs limit v events w e) (counted : v.Counted) : w.Counted := by
  induction runs with
  | drained | limited | aborted => exact counted
  | step _ _ accepted _ ih => exact ih (advance_counted counted accepted)

theorem runs_unique (one : Runs limit v events w e) (other : Runs limit v events' w' e') :
    events' = events ∧ w' = w ∧ e' = e := by
  induction one generalizing events' with
  | drained empty =>
    cases other with
    | drained => exact ⟨rfl, rfl, rfl⟩
    | limited active | aborted active | step active => exact absurd empty active
  | limited active reached =>
    cases other with
    | drained empty => exact absurd empty active
    | limited => exact ⟨rfl, rfl, rfl⟩
    | aborted _ permitted | step _ permitted => exact absurd permitted reached
  | aborted active permitted refused =>
    cases other with
    | drained empty => exact absurd empty active
    | limited _ reached => exact absurd permitted reached
    | aborted _ _ refused' =>
      cases refused.symm.trans refused'
      exact ⟨rfl, rfl, rfl⟩
    | step _ _ accepted => cases refused.symm.trans accepted
  | step active permitted accepted _ ih =>
    cases other with
    | drained empty => exact absurd empty active
    | limited _ reached => exact absurd permitted reached
    | aborted _ _ refused => cases accepted.symm.trans refused
    | step _ _ accepted' rest =>
      cases accepted.symm.trans accepted'
      obtain ⟨rfl, rfl, rfl⟩ := ih rest
      exact ⟨rfl, rfl, rfl⟩

/-- A run that was cut goes on, under a looser limit, as one that was not. -/
theorem runs_resume (looser : Looser limit limit') (first : Runs limit v events u e)
    (second : Runs limit' u events' w e') : Runs limit' v (events ++ events') w e' := by
  induction first with
  | drained | limited | aborted => exact second
  | step active permitted accepted _ ih =>
    rw [List.append_assoc]
    exact .step active (permits_of_looser looser permitted) accepted (ih second)

/-- Under looser limits a run makes at least the same steps. -/
theorem runs_prefix (looser : Looser limit limit') (roomier : Looser v.maxStacks budget)
    (short : Runs limit v events w e) (long : Runs limit' (v.withBudget budget) events' w' e') :
    w.finished.toList <+: w'.finished.toList ∧ w.failed.toList <+: w'.failed.toList := by
  induction short generalizing events' with
  | drained | limited | aborted =>
    obtain ⟨finished, failed, _⟩ := runs_grow long
    exact ⟨finished, failed⟩
  | @step v v' w entries events e active permitted accepted rest ih =>
    have again := advance_rebudget accepted fun x _ => permits_of_looser roomier
    have same := advance_maxStacks accepted
    rw [← same] at roomier
    cases long with
    | drained empty => exact absurd empty active
    | limited _ reached => exact absurd (permits_of_looser looser permitted) reached
    | aborted _ _ refused => cases again.symm.trans refused
    | step _ _ accepted' rest' =>
      cases again.symm.trans accepted'
      exact ih roomier rest'

/-- A run that was not cut is the same under all limits that permit what it did. -/
theorem runs_permitted (runs : Runs limit v events w none) (steps : Permits limit' w.steps)
    (room : Permits budget w.recorded) :
    Runs limit' (v.withBudget budget) events (w.withBudget budget) none := by
  generalize outcome : (none : Option RunError) = e at runs ⊢
  induction runs with
  | drained empty => exact .drained empty
  | limited | aborted => cases outcome
  | @step v v' w entries events e active permitted accepted rest ih =>
    have one := advance_steps accepted
    have more := runs_steps rest
    have recorded := (runs_grow rest).2.2
    have again : (v.withBudget budget).advance (fun _ => false) =
        .ok (v'.withBudget budget, entries) := by
      apply advance_rebudget accepted
      intro x le _
      exact permits_of_le room (by omega)
    refine .step active (permits_of_le steps ?_) again (ih steps room outcome)
    change (v.steps : Int) + 1 ≤ w.steps
    omega

theorem runs_exists (v : Valve) (positive : 0 < limit) : ∃ events w e, Runs limit v events w e := by
  induction left : (limit - v.steps).toNat generalizing v with
  | zero =>
    by_cases empty : v.frontier = []
    · exact ⟨[], v, none, .drained empty⟩
    · refine ⟨[], v, _, .limited empty ?_⟩
      unfold Permits
      omega
  | succ k ih =>
    by_cases empty : v.frontier = []
    · exact ⟨[], v, none, .drained empty⟩
    · have permitted : Permits limit (v.steps + 1) := by
        unfold Permits
        omega
      cases outcome : v.advance (fun _ => false) with
      | error a => exact ⟨[], v, _, .aborted empty permitted outcome⟩
      | ok result =>
        obtain ⟨v', entries⟩ := result
        have one := advance_steps outcome
        obtain ⟨events, w, e, rest⟩ := ih v' (by omega)
        exact ⟨_, w, e, .step empty permitted outcome rest⟩

theorem runs_of_gives (gives : Call.Gives v t (.run .never limit) r) :
    ∃ events, Runs limit v events r.valve r.error ∧
      eventsOf r.trace.toList = eventsOf t.toList ++ events := by
  cases gives with
  | run ended =>
    obtain ⟨events, runs, reported, _⟩ := runs_of_run ended
    exact ⟨events, runs, reported⟩

theorem gives_of_runs (runs : Runs limit v events w e) (t : Array Entry) :
    ∃ trace, Call.Gives v t (.run .never limit) ⟨w, trace, e⟩ ∧
      eventsOf trace.toList = eventsOf t.toList ++ events := by
  have enough : w.steps < v.steps + (w.steps + 1) := by omega
  obtain ⟨trace, ended, reported⟩ := run_of_runs runs enough t
  exact ⟨trace, .run ended, reported⟩

end Runs

end Valve

/-! ## Reports -/

section Reports

variable {e : Engine} {g : Graph} {c : Contract} {now : String} {limit limit' budget : Int}
  {report : Report}

/-- An analysis that is not truncated has run to the end. -/
theorem analyzeGraph_runs
    (analysed : (e.analyzeGraph .never now c g limit).outcome = .ok report)
    (whole : report.truncated = false) :
    Engine.validate g = .ok () ∧ ∃ events w,
      Valve.Runs limit (e.valve g (c.initialStack e.env) (e.reportId c)) events w none ∧
      w.steps < Valve.patience ∧ report = Report.ofValve (e.reportId c) c.name now false w := by
  unfold Engine.analyzeGraph at analysed
  cases valid : Engine.validate g with
  | error err => simp [valid] at analysed
  | ok _ =>
    simp only [valid] at analysed
    refine ⟨rfl, ?_⟩
    cases ended : Valve.run .never limit Valve.patience
        (e.valve g (c.initialStack e.env) (e.reportId c)) #[] with
    | none =>
      simp only [Valve.drain, ended, Option.getD_none, RunError.isLimit] at analysed
      simp at analysed
    | some r =>
      simp only [Valve.drain, ended, Option.getD_some] at analysed
      obtain ⟨events, runs, _, bound⟩ := Valve.runs_of_run ended
      cases stopped : r.error with
      | none =>
        rw [stopped] at analysed runs
        have fresh : (e.valve g (c.initialStack e.env) (e.reportId c)).steps = 0 := rfl
        exact ⟨events, r.valve, runs, by omega, (Except.ok.inj analysed).symm⟩
      | some err =>
        simp only [stopped] at analysed
        split at analysed
        · cases analysed
          cases whole
        · cases analysed

theorem runs_analyzeGraph {events : List Event} {w : Valve} (valid : Engine.validate g = .ok ())
    (runs : Valve.Runs limit (e.valve g (c.initialStack e.env) (e.reportId c)) events w none)
    (bound : w.steps < Valve.patience) :
    (e.analyzeGraph .never now c g limit).outcome =
      .ok (Report.ofValve (e.reportId c) c.name now false w) := by
  have fresh : (e.valve g (c.initialStack e.env) (e.reportId c)).steps = 0 := rfl
  have enough : w.steps <
      (e.valve g (c.initialStack e.env) (e.reportId c)).steps + Valve.patience := by omega
  obtain ⟨trace, ended, _⟩ := Valve.run_of_runs runs enough #[]
  simp only [Engine.analyzeGraph, valid, Valve.drain, ended, Option.getD_some]

/-- A run that drains the frontier tells the report, however much fuel it was given. -/
theorem run_analyzeGraph {fuel : Nat} {r : Run} (valid : Engine.validate g = .ok ())
    (ran : Valve.run .never limit fuel (e.valve g (c.initialStack e.env) (e.reportId c)) #[] =
      some r) (drained : r.error = none) (bound : r.valve.steps < Valve.patience) :
    (e.analyzeGraph .never now c g limit).outcome =
      .ok (Report.ofValve (e.reportId c) c.name now false r.valve) := by
  obtain ⟨events, runs, _⟩ := Valve.runs_of_run ran
  exact runs_analyzeGraph valid (drained ▸ runs) bound

theorem compile_budget : ({ e with maxStacks := budget }.compile c.code).1 = (e.compile c.code).1 := by
  unfold Engine.compile
  cases e.cache with
  | none => rfl
  | some cache =>
    dsimp only
    cases cache.get? (Micheline.Code.fingerprint c.code) <;> rfl

theorem ofValve_visits (id name : String) (truncated : Bool) {v : Valve} (counted : v.Counted) :
    ((Report.ofValve id name now truncated v).visits.map (·.2)).sum = v.recorded := by
  rw [counted, ← visits_sum, Nat.cast_list_sum]
  simp [Report.ofValve, Function.comp_def]

/-- A report that is not truncated comes out under all limits that permit its run. -/
theorem analyzeLimit_permitted
    (analysed : (e.analyzeLimit .never now c limit).1.outcome = .ok report)
    (whole : report.truncated = false) (steps : Permits limit' report.steps)
    (room : Permits budget (report.visits.map (·.2)).sum) (now' : String) :
    ({ e with maxStacks := budget }.analyzeLimit .never now' c limit').1.outcome =
      .ok { report with createdAt := now' } := by
  have compiled : (e.analyzeGraph .never now c (e.compile c.code).1 limit).outcome = .ok report :=
    analysed
  change ({ e with maxStacks := budget }.analyzeGraph .never now' c
    ({ e with maxStacks := budget }.compile c.code).1 limit').outcome = _
  rw [compile_budget]
  obtain ⟨valid, events, w, runs, bound, rfl⟩ := analyzeGraph_runs compiled whole
  rw [ofValve_visits _ _ _ (Valve.runs_counted runs rfl)] at room
  have again := Valve.runs_permitted runs steps room
  exact @runs_analyzeGraph { e with maxStacks := budget } _ c now' limit' events
    (w.withBudget budget) valid again bound

end Reports

def Run.Alike (r r' : Run) : Prop :=
  r.valve = r'.valve ∧ r.error = r'.error ∧ eventsOf r.trace.toList = eventsOf r'.trace.toList

/-- Runs that nobody cancels, from any valve. Under a positive limit they end; one that is resumed
under a looser limit is alike one that was not cut; what is found under stricter limits is a prefix
of what is found under looser ones; a run that drains the frontier is alike under all limits that
permit its steps and stacks; and reports that are not truncated do not depend on limits. -/
theorem limits_only_cut :
    (∀ v t n, 0 < n → ∃ r, Valve.Call.Gives v t (.run .never n) r) ∧
    (∀ v t n m r₁ r₂ r, Looser n m → Valve.Call.Gives v t (.run .never n) r₁ →
      Valve.Call.Gives r₁.valve r₁.trace (.run .never m) r₂ →
      Valve.Call.Gives v t (.run .never m) r → r₂.Alike r) ∧
    (∀ v t n m b r r', Looser n m → Looser v.maxStacks b →
      Valve.Call.Gives v t (.run .never n) r →
      Valve.Call.Gives (v.withBudget b) t (.run .never m) r' →
      r.valve.finished.toList <+: r'.valve.finished.toList ∧
        r.valve.failed.toList <+: r'.valve.failed.toList) ∧
    (∀ v t n m b r, Valve.Call.Gives v t (.run .never n) r → r.error = none →
      Permits m r.valve.steps → Permits b r.valve.recorded →
      (∃ r', Valve.Call.Gives (v.withBudget b) t (.run .never m) r') ∧
        ∀ r', Valve.Call.Gives (v.withBudget b) t (.run .never m) r' →
          r'.Alike { r with valve := r.valve.withBudget b }) ∧
    ∀ (e : Engine) c now n report,
      (e.analyzeLimit .never now c n).1.outcome = .ok report → report.truncated = false →
      (∀ m b now', Permits m report.steps → Permits b (report.visits.map (·.2)).sum →
        ({ e with maxStacks := b }.analyzeLimit .never now' c m).1.outcome =
          .ok { report with createdAt := now' }) ∧
      ∀ m b now' report',
        ({ e with maxStacks := b }.analyzeLimit .never now' c m).1.outcome = .ok report' →
        report'.truncated = false → report' = { report with createdAt := now' } := by
  refine ⟨?_, ?_, ?_, ?_, ?_⟩
  · intro v t n positive
    obtain ⟨events, w, e, runs⟩ := Valve.runs_exists v positive
    obtain ⟨trace, gives, _⟩ := Valve.gives_of_runs runs t
    exact ⟨_, gives⟩
  · intro v t n m r₁ r₂ r looser first second whole
    obtain ⟨events₁, runs₁, reported₁⟩ := Valve.runs_of_gives first
    obtain ⟨events₂, runs₂, reported₂⟩ := Valve.runs_of_gives second
    obtain ⟨events, runs, reported⟩ := Valve.runs_of_gives whole
    obtain ⟨same, valve, error⟩ := Valve.runs_unique runs (Valve.runs_resume looser runs₁ runs₂)
    refine ⟨valve, error, ?_⟩
    rw [reported, reported₂, reported₁, List.append_assoc, same]
  · intro v t n m b r r' looser roomier short long
    obtain ⟨_, runs, _⟩ := Valve.runs_of_gives short
    obtain ⟨_, runs', _⟩ := Valve.runs_of_gives long
    exact Valve.runs_prefix looser roomier runs runs'
  · intro v t n m b r gives drained steps room
    obtain ⟨events, runs, reported⟩ := Valve.runs_of_gives gives
    rw [drained] at runs
    have again := Valve.runs_permitted runs steps room
    constructor
    · obtain ⟨trace, gives', _⟩ := Valve.gives_of_runs again t
      exact ⟨_, gives'⟩
    · intro r' gives'
      obtain ⟨events', runs', reported'⟩ := Valve.runs_of_gives gives'
      obtain ⟨rfl, valve, error⟩ := Valve.runs_unique again runs'
      exact ⟨valve, error.trans drained.symm, reported'.trans reported.symm⟩
  · intro e c now n report analysed whole
    constructor
    · intro m b now' steps room
      exact analyzeLimit_permitted analysed whole steps room now'
    · intro m b now' report' analysed' whole'
      -- both are the report of a run without limits
      have unbounded (x : Int) : Permits 0 x := .inl (Int.le_refl 0)
      have free := analyzeLimit_permitted analysed whole (unbounded _) (unbounded _) now'
      have free' := analyzeLimit_permitted analysed' whole' (unbounded _) (unbounded _) now'
      have same := Except.ok.inj (free'.symm.trans free)
      obtain ⟨_, _, w, _, _, rfl⟩ := analyzeGraph_runs analysed' whole'
      exact same

/-- The run of two steps is cut behind the fork and resumed; the limits permit it exactly. -/
theorem forked_run_resumed :
    ∃ r₁ r₂ r, Valve.Call.Gives roomyValve #[] (.run .never 1) r₁ ∧
      Valve.Call.Gives r₁.valve r₁.trace (.run .never 2) r₂ ∧
      Valve.Call.Gives roomyValve #[] (.run .never 2) r ∧
      r₁.error = some .stepLimit ∧ r.error = none ∧ r.valve.recorded = 4 ∧ r₂.Alike r ∧
      ∀ r', Valve.Call.Gives (roomyValve.withBudget 4) #[] (.run .never 2) r' →
        r'.Alike { r with valve := r.valve.withBudget 4 } := by
  have first : ∃ r₁ r₂, Valve.Call.Gives roomyValve #[] (.run .never 1) r₁ ∧
      Valve.Call.Gives r₁.valve r₁.trace (.run .never 2) r₂ ∧ r₁.error = some .stepLimit :=
    ⟨_, _, @Valve.Call.Gives.run _ _ _ _ 2 _
        ((Valve.run_ok rfl rfl (Valve.advance_eq.trans rfl)).trans (Valve.run_succ.trans rfl)),
      @Valve.Call.Gives.run _ _ _ _ 2 _
        ((Valve.run_ok rfl rfl (Valve.advance_eq.trans rfl)).trans (Valve.run_succ.trans rfl)), rfl⟩
  have whole : ∃ r, Valve.Call.Gives roomyValve #[] (.run .never 2) r ∧ r.error = none ∧
      r.valve.steps = 2 ∧ r.valve.recorded = 4 :=
    ⟨_, @Valve.Call.Gives.run _ _ _ _ 3 _
      ((Valve.run_ok rfl rfl (Valve.advance_eq.trans rfl)).trans
        ((Valve.run_ok rfl rfl (Valve.advance_eq.trans rfl)).trans (Valve.run_succ.trans rfl))),
      rfl, rfl, rfl⟩
  obtain ⟨r₁, r₂, first, second, cut⟩ := first
  obtain ⟨r, whole, drained, steps, recorded⟩ := whole
  obtain ⟨_, resumed, _, permitted, _⟩ := limits_only_cut
  have alike := resumed roomyValve #[] 1 2 r₁ r₂ r (by unfold Looser; omega) first second whole
  have exactly := permitted roomyValve #[] 2 2 4 r whole drained
    (by unfold Permits; omega) (by unfold Permits; omega)
  exact ⟨r₁, r₂, r, first, second, whole, cut, drained, recorded, alike, exactly.2⟩

end StackFlow
