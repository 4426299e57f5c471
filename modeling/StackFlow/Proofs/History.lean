import StackFlow.Proofs.Valve

/-!
Histories of calls on a valve: single steps and runs, each under a signal of its own that may cancel
it in front of any flight, also because of what a step before reported. Main statement: what a
history leaves behind, and the events that it reports, are those of its successful steps alone.
-/

namespace StackFlow

/-- The events of a trace, without its log records. -/
def eventsOf (trace : List Entry) : List Event := trace.filterMap Entry.event?

@[simp] theorem eventsOf_nil : eventsOf [] = [] := rfl

@[simp] theorem eventsOf_append (a b : List Entry) : eventsOf (a ++ b) = eventsOf a ++ eventsOf b :=
  List.filterMap_append

@[simp] theorem eventsOf_events (es : List Event) : eventsOf (es.map .event) = es := by
  induction es with
  | nil => rfl
  | cons e es ih => simpa [eventsOf, Entry.event?] using ih

@[simp] theorem eventsOf_logs (rs : List Log.Record) : eventsOf (rs.map .log) = [] := by
  induction rs with
  | nil => rfl
  | cons r rs ih => exact ih

namespace Valve

/-- The outcome of one step that is tried: the valve and the trace as the step leaves them. -/
def attempt (v : Valve) (signal : Signal) (trace : Array Entry) : Run :=
  match (step signal).run ⟨v, trace⟩ with
  | .ok _ w => ⟨w.valve, w.trace, none⟩
  | .error e w => ⟨w.valve, w.trace, some e⟩

/-- `Unbroken v us es v'`: steps that nobody cancels, one from each of the valves `us`, lead from
`v` to `v'` and report `es`. -/
inductive Unbroken (v : Valve) : List Valve → List Entry → Valve → Prop where
  | none : Unbroken v [] [] v
  | step {us : List Valve} {es new : List Entry} {u u' : Valve} :
      Unbroken v us es u → u.advance (fun _ => false) = .ok (u', new) →
      Unbroken v (us ++ [u]) (es ++ new) u'

end Valve

inductive Valve.Call where
  | advance (signal : Signal)
  | run (signal : Signal) (maxSteps : Int)

/-- What a call on a valve gives. A run that never ends gives nothing. -/
inductive Valve.Call.Gives (v : Valve) (trace : Array Entry) : Valve.Call → Run → Prop where
  | advance {signal : Signal} : Gives v trace (.advance signal) (v.attempt signal trace)
  | run {signal : Signal} {maxSteps : Int} {fuel : Nat} {r : Run} :
      Valve.run signal maxSteps fuel v trace = some r → Gives v trace (.run signal maxSteps) r

/-- `History v t calls v' t'`: the calls, in order, lead from `v` with the trace `t` to `v'` with the
trace `t'`. -/
inductive History (v : Valve) (t : Array Entry) : List Valve.Call → Valve → Array Entry → Prop where
  | start : History v t [] v t
  | call {calls : List Valve.Call} {v' : Valve} {t' : Array Entry} {c : Valve.Call} {r : Run} :
      History v t calls v' t' → c.Gives v' t' r → History v t (calls ++ [c]) r.valve r.trace

namespace Valve

/-! ## Cancellation -/

section Steps

variable {v v' : Valve} {canceled : Nat → Bool} {fs : List Flight} {done ps : Array Passage}
  {count : Nat} {entries : List Entry}

theorem passages_uncanceled (clear : ∀ j, done.size ≤ j → j < done.size + fs.length →
    canceled j = false) :
    v.passages canceled fs done count = v.passages (fun _ => false) fs done count := by
  induction fs generalizing done count with
  | nil => rfl
  | cons f fs ih =>
    have here : canceled done.size = false := clear _ (Nat.le_refl _) (by simp)
    unfold passages
    rw [if_neg (by simp [here]), if_neg (by simp)]
    cases v.passage f with
    | error a => rfl
    | ok p =>
      have rest := @ih (done.push p) (count + p.recorded.length) (by
        intro j lower upper
        simp only [Array.size_push] at lower upper
        exact clear j (by omega) (by simp only [List.length_cons]; omega))
      simp only [rest]

theorem passages_clear (accepted : v.passages canceled fs done count = .ok ps) :
    ∀ j, done.size ≤ j → j < done.size + fs.length → canceled j = false := by
  induction fs generalizing done count with
  | nil =>
    intro j lower upper
    simp only [List.length_nil] at upper
    omega
  | cons f fs ih =>
    intro j lower upper
    unfold passages at accepted
    split at accepted
    · contradiction
    · rename_i here
      split at accepted
      · contradiction
      · dsimp only at accepted
        split at accepted
        · contradiction
        · rcases Nat.eq_or_lt_of_le lower with same | later
          · rw [← same]
            simpa using here
          · refine ih accepted j ?_ ?_
            · rw [Array.size_push]
              omega
            · simp only [Array.size_push]
              simp only [List.length_cons] at upper
              omega

/-- A step that succeeds would have gone the same way with nobody there to cancel it. -/
theorem advance_never (accepted : v.advance canceled = .ok (v', entries)) :
    v.advance (fun _ => false) = .ok (v', entries) := by
  rw [advance_eq] at accepted ⊢
  split at accepted
  · rename_i ps passed
    rw [← passages_uncanceled (passages_clear passed), passed]
    exact accepted
  · contradiction

theorem commit_events (ps : List Passage) : eventsOf (v.commit ps).2 =
    ps.flatMap Passage.events ++
      (ps.flatMap Passage.finished).map (fun f => .finished (pathEvent f.stack)) ++
      (ps.flatMap Passage.failed).map (fun f => .failed (pathEvent f.stack)) := by
  simp only [commit, eventsOf_append, eventsOf_events]
  simp [eventsOf, Entry.event?]

theorem advance_steps (accepted : v.advance canceled = .ok (v', entries)) :
    v'.steps = v.steps + 1 := by
  obtain ⟨ps, _, rfl⟩ := advance_ok accepted
  rfl

end Steps

/-! ## Calls -/

section Calls

variable {v u u' w : Valve} {us ws : List Valve} {es fs : List Entry} {t : Array Entry}
  {signal : Signal}

theorem unbroken_append (before : Unbroken v us es u) (after : Unbroken u ws fs w) :
    Unbroken v (us ++ ws) (es ++ fs) w := by
  induction after with
  | none => simpa using before
  | step _ accepted ih =>
    rw [← List.append_assoc, ← List.append_assoc]
    exact .step ih accepted

theorem unbroken_steps (steps : Unbroken v us es u) : u.steps = v.steps + us.length := by
  induction steps with
  | none => rfl
  | step _ accepted ih =>
    rw [advance_steps accepted, ih, List.length_append, List.length_singleton, Nat.add_assoc]

theorem attempt_eq (v : Valve) (signal : Signal) (t : Array Entry) : v.attempt signal t =
    match v.advance (signal t) with
    | .error a => ⟨a.valve, t ++ a.entries, some a.cause⟩
    | .ok (v', entries) => ⟨v', t ++ entries, none⟩ := by
  unfold attempt
  rw [step_eq]
  cases v.advance (signal t) <;> rfl

theorem gives_ok (accepted : v.advance (signal t) = .ok (u, es)) :
    Call.Gives v t (.advance signal) ⟨u, t ++ es, none⟩ := by
  have made : v.attempt signal t = ⟨u, t ++ es, none⟩ := by rw [attempt_eq, accepted]
  exact made ▸ .advance

theorem attempt_unbroken (v : Valve) (signal : Signal) (t : Array Entry) :
    ∃ us es, Unbroken v us es (v.attempt signal t).valve ∧
      eventsOf (v.attempt signal t).trace.toList = eventsOf t.toList ++ eventsOf es := by
  rw [attempt_eq]
  cases outcome : v.advance (signal t) with
  | error a =>
    obtain ⟨cause, valve, entries⟩ := a
    obtain ⟨rfl, rs, rfl⟩ := advance_left outcome
    exact ⟨[], [], .none, by simp⟩
  | ok result =>
    obtain ⟨v', entries⟩ := result
    exact ⟨[v], entries, .step .none (advance_never outcome), by simp⟩

/-- A run makes steps until it ends, and reports nothing else but log records. -/
theorem run_unbroken {maxSteps : Int} {fuel : Nat} {r : Run}
    (ended : run signal maxSteps fuel v t = some r) :
    ∃ us es, Unbroken v us es r.valve ∧
      eventsOf r.trace.toList = eventsOf t.toList ++ eventsOf es := by
  induction fuel generalizing v t with
  | zero => cases ended
  | succ fuel ih =>
    rw [run_succ] at ended
    split at ended
    · cases ended
      exact ⟨[], [], .none, by simp [eventsOf, Entry.event?]⟩
    · split at ended
      · cases ended
        exact ⟨[], [], .none, by simp [eventsOf, Entry.event?]⟩
      · split at ended
        · rename_i a refused
          obtain ⟨cause, valve, entries⟩ := a
          obtain ⟨rfl, rs, rfl⟩ := advance_left refused
          cases ended
          exact ⟨[], [], .none, by simp⟩
        · rename_i v' entries accepted
          obtain ⟨us, es, steps, events⟩ := ih ended
          have first : Unbroken v [v] entries v' := .step .none (advance_never accepted)
          refine ⟨[v] ++ us, entries ++ es, unbroken_append first steps, ?_⟩
          rw [events]
          simp

theorem history_unbroken {calls : List Valve.Call} {t' : Array Entry}
    (history : History v t calls u t') :
    ∃ us es, Unbroken v us es u ∧ eventsOf t'.toList = eventsOf t.toList ++ eventsOf es := by
  induction history with
  | start => exact ⟨[], [], .none, by simp⟩
  | @call calls v' t' c r before gives ih =>
    obtain ⟨us, es, steps, events⟩ := ih
    have made : ∃ ws fs, Unbroken v' ws fs r.valve ∧
        eventsOf r.trace.toList = eventsOf t'.toList ++ eventsOf fs := by
      cases gives with
      | advance => exact attempt_unbroken v' _ t'
      | run ended => exact run_unbroken ended
    obtain ⟨ws, fs, more, reported⟩ := made
    refine ⟨us ++ ws, es ++ fs, unbroken_append steps more, ?_⟩
    rw [reported, events]
    simp

end Calls

/-- A step was given up: the valve is what it was, and no event went out. -/
def GivenUp (v : Valve) (t : Array Entry) (r : Run) : Prop :=
  r.error.isSome ∧ r.valve = v ∧ eventsOf r.trace.toList = eventsOf t.toList

/-- A step was made: all of the frontier flowed, and all that it put out is committed and
reported. -/
def Made (v : Valve) (t : Array Entry) (r : Run) : Prop :=
  ∃ ps, List.Forall₂ (fun f p => v.passage f = .ok p) v.frontier ps ∧
    r = ⟨(v.commit ps).1, t ++ (v.commit ps).2, none⟩

theorem attempt_givenUp_or_made (v : Valve) (signal : Signal) (t : Array Entry) :
    GivenUp v t (v.attempt signal t) ∨ Made v t (v.attempt signal t) := by
  rw [attempt_eq]
  cases outcome : v.advance (signal t) with
  | error a =>
    left
    obtain ⟨same, rs, logs⟩ := advance_left outcome
    exact ⟨rfl, same, by simp [logs]⟩
  | ok result =>
    right
    obtain ⟨ps, flowed, commits⟩ := advance_commit outcome
    exact ⟨ps, flowed, by rw [commits]⟩

theorem attempt_uncanceled {v : Valve} {signal : Signal} {t : Array Entry}
    (clear : ∀ j < v.frontier.length, signal t j = false) :
    v.attempt signal t = v.attempt Signal.never t := by
  have same : v.advance (signal t) = v.advance (fun _ => false) := by
    rw [advance_eq, advance_eq, passages_uncanceled]
    intro j _ upper
    exact clear j (by simpa using upper)
  rw [attempt_eq, attempt_eq, same]
  rfl

end Valve

/-- In every history each step that is tried is given up without a mark or is made completely, also
when what it reports gets later steps canceled, and valve and events are those of the steps that
were made alone. -/
theorem failed_steps_never_happened {v v' : Valve} {t t' : Array Entry} {calls : List Valve.Call}
    (history : History v t calls v' t') :
    (∀ signal, v'.GivenUp t' (v'.attempt signal t') ∨ v'.Made t' (v'.attempt signal t')) ∧
    (∀ signal, (∀ j < v'.frontier.length, signal t' j = false) →
      v'.attempt signal t' = v'.attempt Signal.never t') ∧
    ∃ us es, v.Unbroken us es v' ∧ v'.steps = v.steps + us.length ∧
      eventsOf t'.toList = eventsOf t.toList ++ eventsOf es := by
  refine ⟨fun signal => Valve.attempt_givenUp_or_made v' signal t',
    fun signal => Valve.attempt_uncanceled, ?_⟩
  obtain ⟨us, es, steps, events⟩ := Valve.history_unbroken history
  exact ⟨us, es, steps, Valve.unbroken_steps steps, events⟩

def forkedPaths : Graph := { nodes := #[.fork 0 "IF" [1, 1], .tube 1 [] noNode], root := 0 }

def forkedValve : Valve := Valve.opened forkedPaths { visible := [.ofText Ty.bool "guard"] } 3 ""

/-- The first step reports a stack that gets the second one canceled, and the third one exceeds the
budget with its second flight: only the first step is left. -/
theorem forked_history_keeps_first_step :
    ∃ v' t', History forkedValve #[]
        [.advance (.afterLeaves 1), .advance (.afterLeaves 1), .advance .never] v' t' ∧
      v'.frontier.length = 2 ∧ v'.recorded = 2 ∧
      ∃ us es, forkedValve.Unbroken us es v' ∧ us.length = 1 ∧
        eventsOf t'.toList = eventsOf es := by
  have history : ∃ v' t', History forkedValve #[]
        [.advance (.afterLeaves 1), .advance (.afterLeaves 1), .advance .never] v' t' ∧
      v'.frontier.length = 2 ∧ v'.recorded = 2 ∧ v'.steps = 1 :=
    ⟨_, _, .call (.call (.call .start .advance) .advance) .advance, rfl, rfl, rfl⟩
  obtain ⟨v', t', history, front, recorded, steps⟩ := history
  obtain ⟨_, _, us, es, unbroken, count, events⟩ := failed_steps_never_happened history
  have zero : forkedValve.steps = 0 := rfl
  have one : us.length = 1 := by omega
  exact ⟨v', t', history, front, recorded, us, es, unbroken, one, by simpa using events⟩

end StackFlow
