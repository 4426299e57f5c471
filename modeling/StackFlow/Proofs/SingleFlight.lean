import Mathlib
import StackFlow.Proofs.Stores

/-!
Whoever enters while a report is in store is served it. Main statement: the reports in store are whole
and lie under their own IDs, a failed call has left the store as it was, and an ID is analysed for the
store once until it is deleted.
-/

namespace StackFlow

/-- How far a call has come that finds a report, by the number of its steps since it has entered. -/
inductive Stage.Serves (r : Report) : Nat → Stage → Prop where
  | entered {n : Nat} {token : Option String} {c : Contract} :
      Serves r 0 (.working n token (.serve c))
  | ending {n : Nat} {token : Option String} : Serves r 1 (.ending n token (.ok (.report r true)))
  | unlocking {n : Nat} : Serves r 2 (.unlocking n (.ok (.report r true)))
  | leaving : Serves r 3 (.leaving (.ok (.report r true)))
  | returned {steps : Nat} : 4 ≤ steps → Serves r steps (.returned (.ok (.report r true)))

namespace Stage

variable {a b : Stage} {o : Outcome} {r : Report} {steps : Nat}

theorem act_settled (settled : a.outcome? = some o) : a.act b = .other := by
  cases a with
  | ending | unlocking | leaving | returned => rfl
  | _ => cases settled

theorem early_settled (settled : a.outcome? = some o) : a.early = false := by
  cases a with
  | ending | unlocking | leaving | returned => rfl
  | _ => cases settled

theorem holds_serves (serves : a.Serves r steps) (early : a.early) : a.holds := by
  cases serves with
  | entered => rfl
  | _ => cases early

end Stage

def stepsOf (k : Nat) (h : List Deed) : Nat := h.countP (·.call == k)

theorem stepsOf_snoc (k : Nat) (h : List Deed) (d : Deed) :
    stepsOf k (h ++ [d]) = stepsOf k h + if d.call = k then 1 else 0 := by
  simp [stepsOf, List.countP_append, List.countP_cons]

theorem Manager.turns_enters {m : Manager} {id : String} {a b : Stage} {after : Memory}
    (turns : m.Turns id a b after) (enters : a.act b = .enters) :
    ∃ n token t, a = .locked n t ∧ b = .working n token t ∧ after = m.shelf.memory := by
  cases turns with
  | enters => exact ⟨_, _, _, rfl, rfl, rfl⟩
  | stays waits =>
    cases a with
    | waiting | locked | returned => cases enters
    | _ => cases waits
  | _ => cases enters

/-- One step of a call that has entered with `r` in store. -/
theorem Manager.turns_serves {m : Manager} {id : String} {a b : Stage} {after : Memory} {r : Report}
    {steps : Nat} (turns : m.Turns id a b after) (serves : a.Serves r steps)
    (stored : a.early → m.shelf.memory.load? id = some r) :
    a.act b = .other ∧ b.Serves r (steps + 1) ∧ b.early = false ∨
      a.act b = .unread ∧ ∃ o, b.outcome? = some o := by
  cases serves with
  | entered =>
    cases turns with
    | stays waits => cases waits
    | serves found =>
      cases Option.some.inj (found.symm.trans (stored rfl))
      exact .inl ⟨rfl, .ending, rfl⟩
    | misses missing => cases missing.symm.trans (stored rfl)
    | checkFails e => exact .inr ⟨rfl, _, rfl⟩
  | ending =>
    cases turns with
    | stays waits => cases waits
    | ends => exact .inl ⟨rfl, .unlocking, rfl⟩
  | unlocking =>
    cases turns with
    | stays waits => cases waits
    | unlocks => exact .inl ⟨rfl, .leaving, rfl⟩
  | leaving =>
    cases turns with
    | stays waits => cases waits
    | leaves => exact .inl ⟨rfl, .returned (Nat.le_refl 4), rfl⟩
  | returned enough =>
    cases turns with
    | stays => exact .inl ⟨rfl, .returned (Nat.le_succ_of_le enough), rfl⟩

namespace Session

/-- What has become of a call on `id` since it entered with `r` in store, by the history from there on.
It does not run the engine, and it is served the report unless the store has refused to look for it. -/
structure Served (s : Session) (h : List Deed) (k : Nat) (id : String) (r : Report) (call : Call) :
    Prop where
  here : s.calls[k]? = some call
  own : call.id = id
  idle : ∀ d ∈ h, d.call = k → d.act ≠ .analyzes
  stored : call.stage.early → s.memory.load? id = some r
  serves : (∃ d ∈ h, d.call = k ∧ d.act = .unread) ∧ (∃ o, call.stage.outcome? = some o) ∨
    call.stage.Serves r (stepsOf k h)

variable {s₀ s s' : Session} {j k : Nat} {call next : Call} {r : Report} {id : String}
  {h : List Deed}

theorem served_self (served : s.Served h k id r call) (moved : Moved s s' k call next) {d : Deed}
    (mine : d.call = k) (act : d.act = call.stage.act next.stage) :
    s'.Served (h ++ [d]) k id r next := by
  obtain ⟨_, rfl, idle, stored, serves⟩ := served
  have now := moved_here moved
  have still : d.act ≠ .analyzes → ∀ x ∈ h ++ [d], x.call = k → x.act ≠ .analyzes := by
    intro quiet x member same
    rcases List.mem_append.mp member with old | new
    · exact idle x old same
    · rw [List.mem_singleton.mp new]
      exact quiet
  rcases serves with ⟨⟨x, member, same, unread⟩, o, settled⟩ | serves
  · have quiet := act.trans (Stage.act_settled settled)
    have settled' := Manager.turns_outcome moved.turns settled
    exact ⟨now, moved.id, still (by simp [quiet]), by simp [Stage.early_settled settled'],
      .inl ⟨⟨x, List.mem_append_left _ member, same, unread⟩, o, settled'⟩⟩
  · rcases Manager.turns_serves moved.turns serves stored with ⟨quiet, serves', late⟩ |
      ⟨unread, o, settled⟩
    · refine ⟨now, moved.id, still (by simp [act, quiet]), by simp [late], .inr ?_⟩
      rw [stepsOf_snoc, if_pos mine]
      exact serves'
    · have last : d ∈ h ++ [d] := List.mem_append_right _ (List.mem_singleton_self d)
      exact ⟨now, moved.id, still (by simp [act, unread]), by simp [Stage.early_settled settled],
        .inl ⟨⟨d, last, mine, act.trans unread⟩, o, settled⟩⟩

theorem served_other (fresh : s₀.Fresh) (run : s₀.Runs s) (sound : s₀.Sound s)
    (served : s.Served h k id r call) {mover : Call} (moved : Moved s s' j mover next) (other : k ≠ j)
    {d : Deed} (theirs : d.call = j) : s'.Served (h ++ [d]) k id r call := by
  obtain ⟨here, rfl, idle, stored, serves⟩ := served
  constructor
  · exact (moved_elsewhere moved other).trans here
  · rfl
  · intro d' member same
    rcases List.mem_append.mp member with old | new
    · exact idle d' old same
    · rw [List.mem_singleton.mp new, theirs] at same
      exact absurd same.symm other
  · intro early
    have holds : call.stage.holds := by
      rcases serves with ⟨_, o, settled⟩ | serves
      · cases (Stage.early_settled settled).symm.trans early
      · exact Stage.holds_serves serves early
    rw [← stored early]
    refine load?_kept moved (sound.calls j mover moved.here) fun holds' same => ?_
    exact other (alone fresh run here moved.here same holds holds')
  · rcases serves with ⟨⟨d', member, same, unread⟩, settled⟩ | serves
    · exact .inl ⟨⟨d', List.mem_append_left _ member, same, unread⟩, settled⟩
    · refine .inr ?_
      rw [stepsOf_snoc, if_neg (by rw [theirs]; exact other.symm)]
      exact serves

theorem runs_served (opening : s₀.Opening) (run : s₀.Runs s) (served : s.Served [] k id r call)
    (rest : s.Runs s') : ∃ h call', s'.history = s.history ++ h ∧ s'.Served h k id r call' := by
  induction rest with
  | refl => exact ⟨[], call, (List.append_nil _).symm, served⟩
  | @tail s₁ s' rest step ih =>
    obtain ⟨h, call', history, served'⟩ := ih
    have before := run.trans rest
    have sound := runs_sound opening before
    obtain ⟨j, mover, next, moved⟩ := step_moved sound.store step
    have longer := moved.history
    rw [history, List.append_assoc] at longer
    by_cases self : k = j
    · subst self
      cases Option.some.inj (moved.here.symm.trans served'.here)
      exact ⟨_, next, longer, served_self served' moved rfl rfl⟩
    · have fresh := opening_fresh opening
      exact ⟨_, call', longer, served_other fresh before sound served' moved self rfl⟩

/-! ## Steps of the past -/

/-- A session as it was before and after a step of its history. -/
theorem runs_split (opening : s₀.Opening) (run : s₀.Runs s) {h₁ h₂ : List Deed} {d : Deed}
    (split : s.history = h₁ ++ d :: h₂) :
    ∃ s₁ s₂ k call next, s₀.Runs s₁ ∧ Step s₁ s₂ ∧ s₂.Runs s ∧ s₁.history = h₁ ∧
      Moved s₁ s₂ k call next ∧
      d = ⟨k, call.id, call.stage.act next.stage, s₁.memory, s₂.memory⟩ := by
  -- every step has written one deed, so that a run is taken apart where its history is
  induction run generalizing h₂ with
  | refl =>
    rw [opening.history] at split
    cases (List.append_eq_nil_iff.mp split.symm).2
  | @tail s s' run step ih =>
    obtain ⟨k, call, next, moved⟩ := step_moved (runs_sound opening run).store step
    rw [moved.history] at split
    rcases List.eq_nil_or_concat h₂ with rfl | ⟨h₃, last, rfl⟩
    · obtain ⟨past, same⟩ := List.append_inj' split rfl
      exact ⟨s, s', k, call, next, run, step, .refl, past, moved, (List.singleton_inj.mp same).symm⟩
    · rw [List.concat_eq_append, ← List.cons_append, ← List.append_assoc] at split
      obtain ⟨past, _⟩ := List.append_inj' split rfl
      obtain ⟨s₁, s₂, k, call, next, before, here, after, found⟩ := ih past
      exact ⟨s₁, s₂, k, call, next, before, here, after.tail step, found⟩

theorem served_entered (sound : s₀.Sound s) (moved : Moved s s' k call next)
    (enters : call.stage.act next.stage = .enters) {c : Contract}
    (begun : s₀.calls[k]? = some ⟨id, .fresh (.serve c)⟩) (stored : s.memory.load? id = some r) :
    s'.Served [] k id r next ∧ next.stage.early := by
  have suits := sound.calls k call moved.here
  have now := moved_here moved
  obtain ⟨n, token, t, locked, working, same⟩ := Manager.turns_enters moved.turns enters
  rw [locked] at suits
  obtain ⟨own, task⟩ := Call.mk.inj (Option.some.inj (begun.symm.trans suits))
  cases task
  have next_stored : s'.memory.load? id = some r := by
    rw [same]
    exact stored
  have serves : next.stage.Serves r 0 := by
    rw [working]
    exact .entered
  refine ⟨⟨now, moved.id.trans own.symm, by simp, fun _ => next_stored, .inr serves⟩, ?_⟩
  rw [working]
  rfl

end Session

/-! ## Calls that meet no other -/

namespace Session

/-- The session when the call at a position has come this far by itself. -/
def came (s : Session) (k : Nat) (call : Call) (m : Manager) (deeds : List Deed) : Session :=
  ⟨m, s.calls.set k call, s.history ++ deeds⟩

theorem came_move {s : Session} {k : Nat} {call next : Call} {m m' : Manager} {deeds : List Deed}
    (run : s.Runs (s.came k call m deeds)) (bound : k < s.calls.length)
    (step : m.stepUnder {} {} call = (next, m')) :
    s.Runs (s.came k next m' (deeds ++
      [⟨k, call.id, call.stage.act next.stage, m.shelf.memory, m'.shelf.memory⟩])) := by
  have here : (s.came k call m deeds).calls[k]? = some call := by simp [came, bound]
  have move := Step.move {} {} here
  unfold moved at move
  rw [show (s.came k call m deeds).manager = m from rfl, step] at move
  simpa [came, Runs] using run.tail move

end Session

/-- A manager without leases on a store in memory. -/
def bench (e : Engine) (locks : LockTable) (memory : Memory) (trace : Array Entry) : Manager :=
  { engine := e, shelf := { memory }, locks, trace }

/-- Steps of a call that leave the store. -/
def quiet (k : Nat) (id : String) (memory : Memory) (acts : List Act) : List Deed :=
  acts.map (⟨k, id, ·, memory, memory⟩)

section Alone

variable {s : Session} {e : Engine} {id : String} {memory : Memory} {trace : Array Entry}
  {t : Task} {k n : Nat} {o : Outcome} {deeds : List Deed} {c : Contract} {r : Report}

theorem runs_enters (plain : s.manager = bench e ⟨[], n, []⟩ memory trace)
    (here : s.calls[k]? = some ⟨id, .fresh t⟩) :
    s.Runs (s.came k ⟨id, .working n none t⟩ (bench e ⟨[(id, ⟨n, 1⟩)], n + 1, [n]⟩ memory trace)
      (quiet k id memory [.other, .other, .enters])) := by
  obtain ⟨bound, same⟩ := List.getElem?_eq_some_iff.mp here
  have begun : s.Runs (s.came k ⟨id, .fresh t⟩ (bench e ⟨[], n, []⟩ memory trace) []) := by
    rw [Session.came, ← plain, ← same, List.set_getElem_self, List.append_nil]
    exact .refl
  have found : s.Runs (s.came k ⟨id, .waiting n t⟩
      (bench e ⟨[(id, ⟨n, 1⟩)], n + 1, []⟩ memory trace) (quiet k id memory [.other])) :=
    Session.came_move begun bound rfl
  have locked : s.Runs (s.came k ⟨id, .locked n t⟩
      (bench e ⟨[(id, ⟨n, 1⟩)], n + 1, [n]⟩ memory trace) (quiet k id memory [.other, .other])) :=
    Session.came_move found bound rfl
  exact Session.came_move locked bound rfl

theorem runs_leaves (bound : k < s.calls.length)
    (run : s.Runs (s.came k ⟨id, .ending n none o⟩
      (bench e ⟨[(id, ⟨n, 1⟩)], n + 1, [n]⟩ memory trace) deeds)) :
    s.Runs (s.came k ⟨id, .returned o⟩ (bench e ⟨[], n + 1, []⟩ memory trace)
      (deeds ++ quiet k id memory [.other, .other, .other])) := by
  have ended : s.Runs (s.came k ⟨id, .unlocking n o⟩
      (bench e ⟨[(id, ⟨n, 1⟩)], n + 1, [n]⟩ memory trace) (deeds ++ quiet k id memory [.other])) :=
    Session.came_move run bound rfl
  have unlocks : (bench e ⟨[(id, ⟨n, 1⟩)], n + 1, [n]⟩ memory trace).stepUnder {} {}
      ⟨id, .unlocking n o⟩ =
      (⟨id, .leaving o⟩, bench e ⟨[(id, ⟨n, 1⟩)], n + 1, []⟩ memory trace) := by
    simp [Manager.stepUnder, Manager.step, Manager.under, bench, LockTable.unlock]
  have leaves : (bench e ⟨[(id, ⟨n, 1⟩)], n + 1, []⟩ memory trace).stepUnder {} {}
      ⟨id, .leaving o⟩ = (⟨id, .returned o⟩, bench e ⟨[], n + 1, []⟩ memory trace) := by
    simp [Manager.stepUnder, Manager.step, Manager.under, bench, LockTable.release, LockTable.find?,
      LockTable.remove]
  have left := Session.came_move (Session.came_move ended bound unlocks) bound leaves
  rw [List.append_assoc, List.append_assoc] at left
  exact left

/-- A call that finds its report returns it. -/
theorem runs_service (plain : s.manager = bench e ⟨[], n, []⟩ memory trace)
    (here : s.calls[k]? = some ⟨id, .fresh (.serve c)⟩) (stored : memory.load? id = some r) :
    s.Runs (s.came k ⟨id, .returned (.ok (.report r true))⟩ (bench e ⟨[], n + 1, []⟩ memory trace)
      (quiet k id memory [.other, .other, .enters, .other, .other, .other, .other])) := by
  obtain ⟨bound, _⟩ := List.getElem?_eq_some_iff.mp here
  have serves : (bench e ⟨[(id, ⟨n, 1⟩)], n + 1, [n]⟩ memory trace).stepUnder {} {}
      ⟨id, .working n none (.serve c)⟩ = (⟨id, .ending n none (.ok (.report r true))⟩,
        bench e ⟨[(id, ⟨n, 1⟩)], n + 1, [n]⟩ memory trace) := by
    simp only [Manager.stepUnder, Manager.step, Manager.work]
    rw [load_under rfl, show (bench e ⟨[(id, ⟨n, 1⟩)], n + 1, [n]⟩ memory trace).shelf.memory = memory
      from rfl, stored]
    rfl
  have served := Session.came_move (runs_enters plain here) bound serves
  exact runs_leaves bound served

/-- A call that finds no report returns a new one and stores it. -/
theorem runs_analysis (plain : s.manager = bench e ⟨[], n, []⟩ memory trace)
    (here : s.calls[k]? = some ⟨id, .fresh (.serve c)⟩) (missing : memory.load? id = none)
    (made : (e.analyze .never ({} : Caller).clock c).1.outcome = .ok r)
    (complete : r.truncated = false) :
    ∃ e' trace', s.Runs (s.came k ⟨id, .returned (.ok (.report r false))⟩
      (bench e' ⟨[], n + 1, []⟩ (memory.save r) trace')
      (quiet k id memory [.other, .other, .enters, .other, .analyzes] ++
        ⟨k, id, .saves r, memory, memory.save r⟩ ::
          quiet k id (memory.save r) [.other, .other, .other])) := by
  obtain ⟨bound, _⟩ := List.getElem?_eq_some_iff.mp here
  have misses : (bench e ⟨[(id, ⟨n, 1⟩)], n + 1, [n]⟩ memory trace).stepUnder {} {}
      ⟨id, .working n none (.serve c)⟩ = (⟨id, .working n none (.analyze c)⟩,
        bench e ⟨[(id, ⟨n, 1⟩)], n + 1, [n]⟩ memory trace) := by
    simp only [Manager.stepUnder, Manager.step, Manager.work]
    rw [load_under rfl, show (bench e ⟨[(id, ⟨n, 1⟩)], n + 1, [n]⟩ memory trace).shelf.memory = memory
      from rfl, missing]
    rfl
  have missed := Session.came_move (runs_enters plain here) bound misses
  have makes : ∃ e' trace', (bench e ⟨[(id, ⟨n, 1⟩)], n + 1, [n]⟩ memory trace).stepUnder {} {}
      ⟨id, .working n none (.analyze c)⟩ = (⟨id, .working n none (.keep r)⟩,
        bench e' ⟨[(id, ⟨n, 1⟩)], n + 1, [n]⟩ memory trace') := by
    refine ⟨(e.analyze .never ({} : Caller).clock c).2,
      trace ++ (e.analyze .never ({} : Caller).clock c).1.trace, ?_⟩
    simp [Manager.stepUnder, Manager.step, Manager.work, Manager.under, bench, made, complete]
  obtain ⟨e', trace', makes⟩ := makes
  refine ⟨e', trace', ?_⟩
  have kept := Session.came_move missed bound makes
  have saved : s.Runs (s.came k ⟨id, .ending n none (.ok (.report r false))⟩
      (bench e' ⟨[(id, ⟨n, 1⟩)], n + 1, [n]⟩ (memory.save r) trace')
      (quiet k id memory [.other, .other, .enters, .other, .analyzes] ++
        [⟨k, id, .saves r, memory, memory.save r⟩])) :=
    Session.came_move kept bound rfl
  have left := runs_leaves bound saved
  rw [List.append_assoc] at left
  exact left

end Alone

/-! ## Main statement -/

/-- What a manager on a memory store does for its calls. -/
structure Session.SingleFlight (s₀ s : Session) : Prop where
  whole : ∀ e ∈ s.memory.entries, e.1 = e.2.id ∧ s₀.Whole s e.2
  told : ∀ d ∈ s.history, d.Told
  harmless : ∀ d ∈ s.history, ∀ call e, s.calls[d.call]? = some call →
    call.stage.outcome? = some (.error e) → d.after = d.before
  once : ∀ (h₁ : List Deed) (d : Deed) (h₂ : List Deed) (d' : Deed) (h₃ : List Deed) (r r' : Report),
    s.history = h₁ ++ d :: (h₂ ++ d' :: h₃) → d.act = .saves r → d'.act = .saves r' →
    d'.id = d.id → ∃ x ∈ h₂, x.id = d.id ∧ x.act = .deletes
  served : ∀ (h₁ : List Deed) (d : Deed) (h₂ : List Deed) (d' : Deed) (h₃ : List Deed) (r : Report)
    (c : Contract), s.history = h₁ ++ d :: (h₂ ++ d' :: h₃) → d.act = .saves r →
    d'.act = .enters → s₀.calls[d'.call]? = some ⟨d.id, .fresh (.serve c)⟩ →
    (∀ x ∈ h₂, x.id = d.id → x.act ≠ .deletes) →
    (∀ x ∈ s.history, x.call = d'.call → x.act ≠ .analyzes) ∧
      ((∃ x ∈ h₃, x.call = d'.call ∧ x.act = .unread) ∨
        ∃ call, s.calls[d'.call]? = some call ∧ call.stage.Serves r (stepsOf d'.call h₃))

theorem analyses_fly_once {s₀ s : Session} (opening : s₀.Opening) (run : s₀.Runs s) :
    s₀.SingleFlight s := by
  have sound := Session.runs_sound opening run
  constructor
  · exact sound.stored
  · exact sound.told
  · intro d member call e here failed
    by_contra changed
    obtain ⟨call', a, there, done⟩ := sound.blameless d member changed
    cases Option.some.inj (here.symm.trans there)
    cases failed.symm.trans done
  · intro h₁ d h₂ d' h₃ r r' split saves saves' same
    exact deleted_between (split ▸ sound.once) saves saves' same
  · intro h₁ d h₂ d' h₃ r c split saves enters begun kept
    -- the session right before the call enters: what was saved is still there
    rw [← List.cons_append, ← List.append_assoc] at split
    obtain ⟨s₁, s₂, k, call, next, before, step, after, past, moved, rfl⟩ :=
      Session.runs_split opening run split
    have sound₁ := Session.runs_sound opening before
    have stored : s₁.memory.load? d.id = some r := by
      rw [sound₁.recalled, past]
      exact lastSaved_kept (past ▸ sound₁.once) saves kept
    obtain ⟨entered, early⟩ := Session.served_entered sound₁ moved enters begun stored
    obtain ⟨h, call', history, served⟩ := Session.runs_served opening (before.tail step) entered after
    obtain rfl : h = h₃ := by
      rw [history, moved.history, past, List.append_assoc] at split
      simpa using split
    constructor
    · rw [history]
      intro x member same analyzes
      -- before it entered the call was early, and an early call has not run the engine
      rcases List.mem_append.mp member with old | new
      · obtain ⟨_, there, late⟩ := (Session.runs_sound opening (before.tail step)).late x old analyzes
        rw [same] at there
        cases Option.some.inj (entered.here.symm.trans there)
        cases late.symm.trans early
      · exact served.idle x new same analyzes
    · rcases served.serves with ⟨unread, _⟩ | serves
      · exact .inl unread
      · exact .inr ⟨call', served.here, serves⟩

/-! ## Two calls on one contract -/

def idleContract : Contract := { parameter := .unit, storage := .unit, code := [] }

theorem build_idle : Engine.validate (Graph.build idleContract.code) = .ok () := by
  cbv

theorem idle_drained (id : String) : ((({} : Engine).valve (Graph.build idleContract.code)
    (idleContract.initialStack Env.default) id).drain .never 1000 #[]).error = none := by
  cbv

theorem idle_analysis (clock : String) : ∃ r,
    (({} : Engine).analyze .never clock idleContract).1.outcome = .ok r ∧ r.truncated = false := by
  have drained := idle_drained (({} : Engine).reportId idleContract)
  simp only [Engine.analyze, Engine.analyzeLimit, Engine.compile, Engine.analyzeGraph, build_idle,
    drained]
  exact ⟨_, rfl, rfl⟩

def twinId : String := ({} : Manager).reportId idleContract

def twins : Session :=
  { manager := {}
    calls := [⟨twinId, .fresh (.serve idleContract)⟩, ⟨twinId, .fresh (.serve idleContract)⟩] }

/-- The first call stores what it has made, and the second is served it. -/
theorem second_twin_served : twins.Opening ∧ ∃ r s, twins.Runs s ∧ twins.Whole s r ∧
    s.memory.entries = [(r.id, r)] ∧ (∀ x ∈ s.history, x.call = 1 → x.act ≠ .analyzes) ∧
    ∃ call, s.calls[1]? = some call ∧ call.stage.Serves r 4 := by
  have opening : twins.Opening := by
    refine ⟨rfl, rfl, rfl, ?_, rfl⟩
    intro call member
    simp only [twins, List.mem_cons, List.not_mem_nil, or_false, or_self] at member
    subst member
    exact .analyze idleContract
  obtain ⟨r, made, complete⟩ := idle_analysis ({} : Caller).clock
  have own : r.id = twinId := analyze_id made
  obtain ⟨e, trace, first⟩ := @runs_analysis twins {} _ {} #[] 0 0 idleContract r rfl rfl rfl made
    complete
  have stored : (Memory.save {} r).load? twinId = some r := by
    rw [Memory.load?_save, if_pos own.symm]
  have run := first.trans (@runs_service _ e _ _ trace 1 1 idleContract r rfl rfl stored)
  have flight := analyses_fly_once opening run
  have kept : ∀ x ∈ quiet 0 twinId (.save {} r) [.other, .other, .other] ++
      quiet 1 twinId (.save {} r) [.other, .other], x.id = twinId → x.act ≠ .deletes := by
    intro x member _
    simp only [quiet, List.map_cons, List.map_nil, List.mem_append, List.mem_cons, List.not_mem_nil,
      or_false, or_self] at member
    rcases member with rfl | rfl <;> exact Act.noConfusion
  obtain ⟨idle, ⟨x, member, _, unread⟩ | served⟩ := flight.served
    (quiet 0 twinId {} [.other, .other, .enters, .other, .analyzes])
    ⟨0, twinId, .saves r, {}, .save {} r⟩
    (quiet 0 twinId (.save {} r) [.other, .other, .other] ++
      quiet 1 twinId (.save {} r) [.other, .other])
    ⟨1, twinId, .enters, .save {} r, .save {} r⟩
    (quiet 1 twinId (.save {} r) [.other, .other, .other, .other]) r idleContract rfl rfl rfl rfl kept
  · simp only [quiet, List.map_cons, List.map_nil, List.mem_cons, List.not_mem_nil, or_false,
      or_self] at member
    subst member
    cases unread
  · have entries : (Memory.save {} r).entries = [(r.id, r)] := rfl
    have member : (r.id, r) ∈ (Memory.save {} r).entries := by
      rw [entries]
      exact List.mem_singleton_self _
    exact ⟨opening, r, _, run, (flight.whole (r.id, r) member).2, entries, idle, served⟩

end StackFlow
