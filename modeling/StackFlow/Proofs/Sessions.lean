import StackFlow.Manager
import StackFlow.Proofs.Locks

/-!
Many calls on one manager. Their steps interleave in any order, the store may refuse any of them, and
a history keeps what each step was and what it did to the reports in memory. Main statement: the
calls on one ID take turns, and when all have returned no lock is left.
-/

namespace StackFlow

/-! ## Sessions -/

/-- The calls of the store that one step finds refused. -/
structure Weather where
  refused : Refusals := {}
  reason : String := ""

/-- The manager with its store behind the refusals of the moment. -/
def Manager.under (m : Manager) (w : Weather) : Manager :=
  { m with store := { m.store with layers := .refusing w.refused w.reason :: m.store.layers } }

/-- One step of a call in some weather, which does not last. -/
def Manager.stepUnder (m : Manager) (w : Weather) (c : Caller) (call : Call) : Call × Manager :=
  let (call, after) := (m.under w).step c call
  (call, { after with store := m.store })

/-- What a step is to the reports of its ID. -/
inductive Act where
  | enters
  /-- The store has refused to look for the report. -/
  | unread
  | analyzes
  | saves (r : Report)
  | deletes
  | other

/-- What a step is that takes a call from one stage to the next. -/
def Stage.act : Stage → Stage → Act
  | .locked .., .working .. => .enters
  | .working _ _ (.serve _), .ending _ _ (.error _) => .unread
  | .working _ _ (.analyze _), _ => .analyzes
  | .working _ _ (.keep r), .ending _ _ (.ok _) => .saves r
  | .working _ _ .delete, .ending _ _ (.ok _) => .deletes
  | _, _ => .other

/-- A step of the past: the position of its call, and the reports in memory on both sides of it. -/
structure Deed where
  call : Nat
  id : String
  act : Act
  before : Memory
  after : Memory

structure Session where
  manager : Manager
  calls : List Call
  history : List Deed := []

namespace Session

/-- The session behind a step of the call at a position. -/
def moved (s : Session) (k : Nat) (call : Call) (w : Weather) (c : Caller) : Session :=
  let (next, manager) := s.manager.stepUnder w c call
  { manager
    calls := s.calls.set k next
    history := s.history ++
      [⟨k, call.id, call.stage.act next.stage, s.manager.shelf.memory, manager.shelf.memory⟩] }

inductive Step : Session → Session → Prop where
  | move {s : Session} {k : Nat} {call : Call} (w : Weather) (c : Caller) :
      s.calls[k]? = some call → Step s (s.moved k call w c)

def Runs : Session → Session → Prop := Relation.ReflTransGen Step

end Session

/-! ## One step of the manager -/

namespace Manager

structure Keeps (m m' : Manager) : Prop where
  engine : m'.engine = m.engine
  store : m'.store = m.store
  locker : m'.locker = m.locker
  locks : m'.locks = m.locks
  memory : m'.shelf.memory = m.shelf.memory

variable {m : Manager} {c : Caller} {id : String}

theorem keeps_requestLease : m.Keeps (m.requestLease c id).2 := by
  unfold requestLease
  split
  · exact ⟨rfl, rfl, rfl, rfl, rfl⟩
  · split <;> exact ⟨rfl, rfl, rfl, rfl, rfl⟩
  · dsimp only
    split <;> exact ⟨rfl, rfl, rfl, rfl, rfl⟩

theorem keeps_returnLease (token : Option String) : m.Keeps (m.returnLease c id token) := by
  unfold returnLease
  split
  · exact ⟨rfl, rfl, rfl, rfl, rfl⟩
  · split
    · exact ⟨rfl, rfl, rfl, rfl, rfl⟩
    · exact ⟨rfl, rfl, rfl, rfl, rfl⟩
    · split <;> exact ⟨rfl, rfl, rfl, rfl, rfl⟩

theorem onShelf_locks {α : Type} {a : StoreAction α} {x : Except StoreError α} {m' : Manager}
    (done : m.onShelf a = (x, m')) : m'.locks = m.locks := by
  unfold onShelf at done
  split at done <;> cases done <;> rfl

theorem work_locks (t : Task) : (m.work c id t).2.locks = m.locks := by
  cases t with
  | load =>
    rcases done : m.onShelf (m.store.load c id) with ⟨x, m'⟩
    cases x <;> simp [work, done, onShelf_locks done]
  | delete =>
    rcases done : m.onShelf (m.store.delete c id) with ⟨x, m'⟩
    cases x <;> simp [work, done, onShelf_locks done]
  | serve contract =>
    rcases done : m.onShelf (m.store.load c id) with ⟨x, m'⟩
    simp only [work, done]
    split <;> rename_i same <;> cases same <;> exact onShelf_locks done
  | analyze contract =>
    unfold work
    dsimp only
    split
    · rfl
    · split <;> rfl
  | keep r =>
    rcases done : m.onShelf (m.store.save c r) with ⟨x, m'⟩
    cases x <;> simp [work, done, onShelf_locks done]

end Manager

/-! ## Sessions take turns -/

/-- How a stage shows in the protocol of the lock. From the request of the lease to the outcome of the
work a call is inside. -/
inductive Stage.Shows : Stage → Phase Outcome → Prop where
  | fresh {t : Task} : Shows (.fresh t) .fresh
  | waiting {s : Nat} {t : Task} : Shows (.waiting s t) (.waiting s)
  | locked {s : Nat} {t : Task} : Shows (.locked s t) (.inside s)
  | working {s : Nat} {token : Option String} {t : Task} : Shows (.working s token t) (.inside s)
  | ending {s : Nat} {token : Option String} {o : Outcome} : Shows (.ending s token o) (.ended s o)
  | unlocking {s : Nat} {o : Outcome} : Shows (.unlocking s o) (.ended s o)
  | leaving {s : Nat} {o : Outcome} : Shows (.leaving o) (.leaving s o)
  | returned {o : Outcome} : Shows (.returned o) (.returned o)

/-- A step of a call is one of the protocol, or none of its business. -/
theorem step_shows {m : Manager} {c : Caller} {call : Call} {p : Phase Outcome}
    (shows : call.stage.Shows p) : (m.step c call).1.id = call.id ∧
      ((m.step c call).2.locks = m.locks ∧ (m.step c call).1.stage.Shows p ∨
        ∃ p', Phase.Step call.id m.locks p (m.step c call).2.locks p' ∧
          (m.step c call).1.stage.Shows p') := by
  obtain ⟨id, stage⟩ := call
  cases shows with
  | fresh => exact ⟨rfl, .inr ⟨_, .acquire, .waiting⟩⟩
  | @waiting s t =>
    cases locked : m.locks.lock? s with
    | none => simp [Manager.step, locked, Stage.Shows.waiting]
    | some locks =>
      simp only [Manager.step, locked, true_and]
      exact .inr ⟨_, .lock locked, .locked⟩
  | @locked s t =>
    have kept := (@Manager.keeps_requestLease m c id).locks
    rcases asked : m.requestLease c id with ⟨answer, m'⟩
    rw [asked] at kept
    match answer with
    | some (.ok token) =>
      simp only [Manager.step, asked, true_and]
      exact .inl ⟨kept, .working⟩
    | some (.error e) =>
      simp only [Manager.step, asked, true_and]
      exact .inr ⟨_, kept ▸ .work _, .ending⟩
    | none =>
      cases canceled : c.canceled with
      | true =>
        simp only [Manager.step, asked, canceled, if_true, true_and]
        exact .inr ⟨_, kept ▸ .work _, .ending⟩
      | false =>
        simp only [Manager.step, asked, canceled, Bool.false_eq_true, if_false, true_and]
        exact .inl ⟨kept, .locked⟩
  | @working s token t =>
    have kept := @Manager.work_locks m c id t
    rcases worked : m.work c id t with ⟨left | o, m'⟩
    · rw [worked] at kept
      simp only [Manager.step, worked, true_and]
      exact .inl ⟨kept, .working⟩
    · rw [worked] at kept
      simp only [Manager.step, worked, true_and]
      exact .inr ⟨_, kept ▸ .work o, .ending⟩
  | @ending s token o =>
    exact ⟨rfl, .inl ⟨(Manager.keeps_returnLease token).locks, .unlocking⟩⟩
  | unlocking => exact ⟨rfl, .inr ⟨_, .unlock, .leaving⟩⟩
  | leaving => exact ⟨rfl, .inr ⟨_, .release, .returned⟩⟩
  | returned => exact ⟨rfl, .inl ⟨rfl, .returned⟩⟩

namespace Session

def Fresh (s : Session) : Prop :=
  s.manager.locks = {} ∧ ∀ call ∈ s.calls, ∃ t, call.stage = .fresh t

/-- A session as a crowd on its lock table. -/
structure Shows (s : Session) (c : Crowd Outcome) : Prop where
  table : c.table = s.manager.locks
  length : c.visitors.length = s.calls.length
  calls : ∀ (k : Nat) call v, s.calls[k]? = some call → c.visitors[k]? = some v →
    v.id = call.id ∧ call.stage.Shows v.phase

variable {s s' : Session} {c : Crowd Outcome}

theorem fresh_shows (fresh : s.Fresh) : s.Shows (Crowd.opened (s.calls.map Call.id)) where
  table := fresh.1.symm
  length := by simp [Crowd.opened]
  calls := by
    intro k call v at_k at_v
    obtain ⟨t, stage⟩ := fresh.2 call (List.mem_of_getElem? at_k)
    simp only [Crowd.opened, List.getElem?_map, at_k, Option.map_some, Option.some.injEq] at at_v
    subst at_v
    refine ⟨rfl, ?_⟩
    rw [stage]
    exact .fresh

theorem shows_visitor {k : Nat} {call : Call} (shows : s.Shows c) (at_k : s.calls[k]? = some call) :
    ∃ v, c.visitors[k]? = some v ∧ v.id = call.id ∧ call.stage.Shows v.phase := by
  have bound := (List.getElem?_eq_some_iff.mp at_k).1
  rw [← shows.length] at bound
  have at_v := List.getElem?_eq_getElem bound
  exact ⟨_, at_v, shows.calls k call _ at_k at_v⟩

theorem step_crowd (shows : s.Shows c) (step : Step s s') :
    ∃ c', (c' = c ∨ Crowd.Step c c') ∧ s'.Shows c' := by
  cases step with
  | @move k call w caller at_k =>
    obtain ⟨v, at_v, same, phase⟩ := shows_visitor shows at_k
    obtain ⟨id, stays | ⟨p, moves, next⟩⟩ := step_shows (m := s.manager.under w) (c := caller) phase
    · refine ⟨c, .inl rfl, shows.table.trans stays.1.symm, by simp [moved, shows.length], ?_⟩
      intro j call' v' at_j at_j'
      rcases (getElem?_replaced at_k).mp at_j with ⟨rfl, rfl⟩ | ⟨_, old⟩
      · cases Option.some.inj (at_v.symm.trans at_j')
        exact ⟨same.trans id.symm, stays.2⟩
      · exact shows.calls j call' v' old at_j'
    · have move : Phase.Step v.id c.table v.phase
          ((s.manager.under w).step caller call).2.locks p := by
        rw [same, shows.table]
        exact moves
      refine ⟨_, .inr (.move at_v move), rfl, by simp [moved, shows.length], ?_⟩
      intro j call' v' at_j at_j'
      rcases (getElem?_replaced at_k).mp at_j with ⟨rfl, rfl⟩ | ⟨other, old⟩
      · rcases (getElem?_replaced at_v).mp at_j' with ⟨_, rfl⟩ | ⟨other, _⟩
        · exact ⟨same.trans id.symm, next⟩
        · exact absurd rfl other
      · rcases (getElem?_replaced at_v).mp at_j' with ⟨here, _⟩ | ⟨_, old'⟩
        · exact absurd here other
        · exact shows.calls j call' v' old old'

theorem runs_crowd (fresh : s.Fresh) (run : s.Runs s') :
    ∃ c, (Crowd.opened (s.calls.map Call.id)).Runs c ∧ s'.Shows c := by
  induction run with
  | refl => exact ⟨_, .refl, fresh_shows fresh⟩
  | tail _ step ih =>
    obtain ⟨c, run, shows⟩ := ih
    obtain ⟨c', rfl | moves, shows'⟩ := step_crowd shows step
    · exact ⟨c', run, shows'⟩
    · exact ⟨c', run.tail moves, shows'⟩

theorem shows_returned (shows : s.Shows c) (returned : ∀ call ∈ s.calls, ∃ o, call.stage = .returned o) :
    ∀ v ∈ c.visitors, ∃ o, v.phase = .returned o := by
  intro v member
  obtain ⟨k, at_v⟩ := List.mem_iff_getElem?.mp member
  have bound := (List.getElem?_eq_some_iff.mp at_v).1
  rw [shows.length] at bound
  obtain ⟨_, phase⟩ := shows.calls k _ v (List.getElem?_eq_getElem bound) at_v
  obtain ⟨o, stage⟩ := returned _ (List.getElem_mem bound)
  rw [stage] at phase
  generalize v.phase = p at phase ⊢
  cases phase
  exact ⟨o, rfl⟩

end Session

/-! ## Main statement -/

/-- Calls under the lock of an ID take turns, whatever comes of their work; the calls of a manager are
such calls, and when they have returned no lock is left. -/
theorem calls_take_turns {α : Type} :
    (∀ (ids : List String) (c : Crowd α), (Crowd.opened ids).Runs c → c.TakesTurns) ∧
    ∀ s s' : Session, s.Fresh → s.Runs s' →
      (∃ c : Crowd Outcome, (Crowd.opened (s.calls.map Call.id)).Runs c ∧ s'.Shows c ∧
        c.TakesTurns) ∧
      ((∀ call ∈ s'.calls, ∃ o, call.stage = .returned o) →
        s'.manager.locks.entries = [] ∧ s'.manager.locks.held = []) := by
  constructor
  · intro ids c run
    obtain ⟨referred, guarded⟩ := Crowd.runs_orderly run
    exact Crowd.takesTurns referred guarded
  · intro s s' fresh run
    obtain ⟨c, protocol, shows⟩ := Session.runs_crowd fresh run
    obtain ⟨referred, guarded⟩ := Crowd.runs_orderly protocol
    have turns := Crowd.takesTurns referred guarded
    refine ⟨⟨c, protocol, shows, turns⟩, fun returned => ?_⟩
    rw [← shows.table]
    exact turns.gone (Session.shows_returned shows returned)

def crossing (t : LockTable) (first second other : Phase Bool) : Crowd Bool :=
  { table := t, visitors := [⟨"a", first⟩, ⟨"a", second⟩, ⟨"b", other⟩] }

theorem crossing_reached : (Crowd.opened ["a", "a", "b"]).Runs
    (crossing ⟨[("b", ⟨1, 1⟩), ("a", ⟨0, 2⟩)], 2, [1, 0]⟩ (.inside 0) (.waiting 0) (.inside 1)) := by
  have first : Crowd.Step (Crowd.opened ["a", "a", "b"])
      (crossing ⟨[("a", ⟨0, 1⟩)], 1, []⟩ (.waiting 0) .fresh .fresh) :=
    @Crowd.Step.move Bool _ 0 ⟨"a", .fresh⟩ _ _ rfl .acquire
  have second : Crowd.Step (crossing ⟨[("a", ⟨0, 1⟩)], 1, []⟩ (.waiting 0) .fresh .fresh)
      (crossing ⟨[("a", ⟨0, 2⟩)], 1, []⟩ (.waiting 0) (.waiting 0) .fresh) :=
    @Crowd.Step.move Bool _ 1 ⟨"a", .fresh⟩ _ _ rfl .acquire
  have third : Crowd.Step (crossing ⟨[("a", ⟨0, 2⟩)], 1, []⟩ (.waiting 0) (.waiting 0) .fresh)
      (crossing ⟨[("b", ⟨1, 1⟩), ("a", ⟨0, 2⟩)], 2, []⟩ (.waiting 0) (.waiting 0) (.waiting 1)) :=
    @Crowd.Step.move Bool _ 2 ⟨"b", .fresh⟩ _ _ rfl .acquire
  have fourth : Crowd.Step
      (crossing ⟨[("b", ⟨1, 1⟩), ("a", ⟨0, 2⟩)], 2, []⟩ (.waiting 0) (.waiting 0) (.waiting 1))
      (crossing ⟨[("b", ⟨1, 1⟩), ("a", ⟨0, 2⟩)], 2, [0]⟩ (.inside 0) (.waiting 0) (.waiting 1)) :=
    @Crowd.Step.move Bool _ 0 ⟨"a", .waiting 0⟩ _ _ rfl (.lock rfl)
  have fifth : Crowd.Step
      (crossing ⟨[("b", ⟨1, 1⟩), ("a", ⟨0, 2⟩)], 2, [0]⟩ (.inside 0) (.waiting 0) (.waiting 1))
      (crossing ⟨[("b", ⟨1, 1⟩), ("a", ⟨0, 2⟩)], 2, [1, 0]⟩ (.inside 0) (.waiting 0) (.inside 1)) :=
    @Crowd.Step.move Bool _ 2 ⟨"b", .waiting 1⟩ _ _ rfl (.lock rfl)
  exact ((((Relation.ReflTransGen.single first).tail second).tail third).tail fourth).tail fifth

def deletion (locks : LockTable) (stage : Stage) (acts : List Act) : Session :=
  { manager := { locks }
    calls := [⟨"a", stage⟩]
    history := acts.map fun act => ⟨0, "a", act, {}, {}⟩ }

theorem deletion_returns : (deletion {} (.fresh .delete) []).Runs
    (deletion ⟨[], 1, []⟩ (.returned (.ok .done))
      [.other, .other, .enters, .deletes, .other, .other, .other]) := by
  have found : Session.Step (deletion {} (.fresh .delete) [])
      (deletion ⟨[("a", ⟨0, 1⟩)], 1, []⟩ (.waiting 0 .delete) [.other]) :=
    @Session.Step.move _ 0 ⟨"a", .fresh .delete⟩ {} {} rfl
  have locked : Session.Step (deletion ⟨[("a", ⟨0, 1⟩)], 1, []⟩ (.waiting 0 .delete) [.other])
      (deletion ⟨[("a", ⟨0, 1⟩)], 1, [0]⟩ (.locked 0 .delete) [.other, .other]) :=
    @Session.Step.move _ 0 ⟨"a", .waiting 0 .delete⟩ {} {} rfl
  have entered : Session.Step
      (deletion ⟨[("a", ⟨0, 1⟩)], 1, [0]⟩ (.locked 0 .delete) [.other, .other])
      (deletion ⟨[("a", ⟨0, 1⟩)], 1, [0]⟩ (.working 0 none .delete) [.other, .other, .enters]) :=
    @Session.Step.move _ 0 ⟨"a", .locked 0 .delete⟩ {} {} rfl
  have deleted : Session.Step
      (deletion ⟨[("a", ⟨0, 1⟩)], 1, [0]⟩ (.working 0 none .delete) [.other, .other, .enters])
      (deletion ⟨[("a", ⟨0, 1⟩)], 1, [0]⟩ (.ending 0 none (.ok .done))
        [.other, .other, .enters, .deletes]) :=
    @Session.Step.move _ 0 ⟨"a", .working 0 none .delete⟩ {} {} rfl
  have ended : Session.Step
      (deletion ⟨[("a", ⟨0, 1⟩)], 1, [0]⟩ (.ending 0 none (.ok .done))
        [.other, .other, .enters, .deletes])
      (deletion ⟨[("a", ⟨0, 1⟩)], 1, [0]⟩ (.unlocking 0 (.ok .done))
        [.other, .other, .enters, .deletes, .other]) :=
    @Session.Step.move _ 0 ⟨"a", .ending 0 none (.ok .done)⟩ {} {} rfl
  have unlocked : Session.Step
      (deletion ⟨[("a", ⟨0, 1⟩)], 1, [0]⟩ (.unlocking 0 (.ok .done))
        [.other, .other, .enters, .deletes, .other])
      (deletion ⟨[("a", ⟨0, 1⟩)], 1, []⟩ (.leaving (.ok .done))
        [.other, .other, .enters, .deletes, .other, .other]) :=
    @Session.Step.move _ 0 ⟨"a", .unlocking 0 (.ok .done)⟩ {} {} rfl
  have released : Session.Step
      (deletion ⟨[("a", ⟨0, 1⟩)], 1, []⟩ (.leaving (.ok .done))
        [.other, .other, .enters, .deletes, .other, .other])
      (deletion ⟨[], 1, []⟩ (.returned (.ok .done))
        [.other, .other, .enters, .deletes, .other, .other, .other]) :=
    @Session.Step.move _ 0 ⟨"a", .leaving (.ok .done)⟩ {} {} rfl
  have inside := (((Relation.ReflTransGen.single found).tail locked).tail entered).tail deleted
  exact ((inside.tail ended).tail unlocked).tail released

/-- The second of the crossing calls has to wait for the first and not for the one on the other ID; a
deletion leaves no lock behind. -/
theorem crossing_calls_take_turns :
    (Crowd.opened ["a", "a", "b"]).Runs
      (crossing ⟨[("b", ⟨1, 1⟩), ("a", ⟨0, 2⟩)], 2, [1, 0]⟩ (.inside 0) (.waiting 0) (.inside 1)) ∧
    LockTable.lock? ⟨[("b", ⟨1, 1⟩), ("a", ⟨0, 2⟩)], 2, [1, 0]⟩ 0 = none ∧
    (deletion {} (.fresh .delete) []).Fresh ∧
    (deletion ⟨[], 1, []⟩ (.returned (.ok .done))
      [.other, .other, .enters, .deletes, .other, .other, .other]).manager.locks.entries = [] := by
  obtain ⟨crowds, sessions⟩ := @calls_take_turns Bool
  have turns := crowds _ _ crossing_reached
  have fresh : (deletion {} (.fresh .delete) []).Fresh := by
    refine ⟨rfl, fun call member => ⟨.delete, ?_⟩⟩
    rw [List.mem_singleton.mp member]
  have free := turns.free ⟨"a", .waiting 0⟩ (.tail _ (.head _)) 0 rfl
  refine ⟨crossing_reached, ?_, fresh, ?_⟩
  · rw [← Option.not_isSome_iff_eq_none]
    intro unlocked
    cases free.mp unlocked ⟨"a", .inside 0⟩ (.head _) rfl
  · refine ((sessions _ _ fresh deletion_returns).2 ?_).1
    intro call member
    rw [List.mem_singleton.mp member]
    exact ⟨_, rfl⟩

end StackFlow
