import Mathlib.Data.List.Induction
import Mathlib.Tactic.ByContra
import StackFlow.Proofs.Turns

/-!
What many calls on one manager leave in a memory store, whatever comes of them. A history recalls what
is in store. Every call on the way has the report of its ID right before it saves it, as it has the
lock; from there every session on the way is sound.
-/

namespace StackFlow

/-! ## What a history tells -/

/-- What of a report with the ID `id` is in store behind a step. -/
def Deed.lastSaved (d : Deed) (id : String) (old : Option Report) : Option Report :=
  if d.id = id then
    match d.act with
    | .saves r => some r
    | .deletes => none
    | _ => old
  else old

/-- The report that was saved last, unless it was deleted. -/
def lastSaved (h : List Deed) (id : String) : Option Report := h.foldl (fun old d => d.lastSaved id old) none

/-- A report is saved only where there is none. -/
def SavesOnce (h : List Deed) : Prop :=
  ∀ h₁ d h₂ r, h = h₁ ++ d :: h₂ → d.act = .saves r → lastSaved h₁ d.id = none

section Histories

variable {h h₁ h₂ : List Deed} {d : Deed} {r : Report} {id : String}

theorem lastSaved_snoc (h : List Deed) (d : Deed) (id : String) :
    lastSaved (h ++ [d]) id = d.lastSaved id (lastSaved h id) := by
  simp [lastSaved]

theorem savesOnce_snoc (once : SavesOnce h) (new : ∀ r, d.act = .saves r → lastSaved h d.id = none) :
    SavesOnce (h ++ [d]) := by
  intro h₁ d' h₂ r split saves
  rcases List.eq_nil_or_concat h₂ with rfl | ⟨h₃, last, rfl⟩
  · obtain ⟨rfl, same⟩ := List.append_inj' split rfl
    cases same
    exact new r saves
  · rw [List.concat_eq_append, ← List.cons_append, ← List.append_assoc] at split
    obtain ⟨rfl, _⟩ := List.append_inj' split rfl
    exact once h₁ d' h₃ r rfl saves

theorem savesOnce_before (once : SavesOnce (h₁ ++ h₂)) : SavesOnce h₁ := by
  rintro h d h' r rfl saves
  exact once h d (h' ++ h₂) r (by simp) saves

theorem lastSaved_kept (once : SavesOnce (h₁ ++ d :: h₂)) (saves : d.act = .saves r)
    (kept : ∀ d' ∈ h₂, d'.id = d.id → d'.act ≠ .deletes) :
    lastSaved (h₁ ++ d :: h₂) d.id = some r := by
  -- on the steps since, from the last one; none of them can save the ID, as there is a report
  induction h₂ using List.reverseRecOn with
  | nil =>
    rw [lastSaved_snoc, Deed.lastSaved, if_pos rfl, saves]
  | append_singleton h₂ last ih =>
    rw [← List.cons_append, ← List.append_assoc] at once ⊢
    have before := ih (savesOnce_before once) fun d' member => kept d' (List.mem_append_left _ member)
    rw [lastSaved_snoc, before, Deed.lastSaved]
    split
    · rename_i same
      split
      · rename_i r' saves'
        have absent := once (h₁ ++ d :: h₂) last [] r' rfl saves'
        rw [same, before] at absent
        cases absent
      · rename_i deletes
        exact absurd deletes (kept last (List.mem_append_right _ (List.mem_singleton_self last)) same)
      · rfl
    · rfl

theorem deleted_between {d' : Deed} {h₃ : List Deed} {r' : Report}
    (once : SavesOnce (h₁ ++ d :: (h₂ ++ d' :: h₃))) (saves : d.act = .saves r)
    (saves' : d'.act = .saves r') (same : d'.id = d.id) :
    ∃ x ∈ h₂, x.id = d.id ∧ x.act = .deletes := by
  by_contra none
  have kept : ∀ x ∈ h₂, x.id = d.id → x.act ≠ .deletes := by
    intro x member same deletes
    exact none ⟨x, member, same, deletes⟩
  rw [← List.cons_append, ← List.append_assoc] at once
  have absent := once (h₁ ++ d :: h₂) d' h₃ r' rfl saves'
  have present := lastSaved_kept (savesOnce_before once) saves kept
  rw [same, present] at absent
  cases absent

end Histories

/-! ## Stages -/

namespace Stage

def outcome? : Stage → Option Outcome
  | ending _ _ o | unlocking _ o | leaving o | returned o => some o
  | _ => none

/-- Whether a call has the lock of its ID. -/
def holds : Stage → Bool
  | locked .. | working .. | ending .. | unlocking .. => true
  | _ => false

/-- Whether a call has not come to run the engine. -/
def early : Stage → Bool
  | fresh _ | waiting .. | locked .. => true
  | working _ _ (.analyze _) | working _ _ (.keep _) => false
  | working .. => true
  | _ => false

theorem shows_holds {a : Stage} {p : Phase Outcome} (shows : a.Shows p) (holds : a.holds) :
    p.holds?.isSome := by
  cases shows with
  | locked | working | ending | unlocking => rfl
  | _ => cases holds

theorem act_analyzes {a b : Stage} (analyzes : a.act b = .analyzes) : a.early = false := by
  unfold act at analyzes
  split at analyzes <;> first | rfl | cases analyzes

end Stage

namespace Manager

variable {m : Manager} {id other : String} {a b : Stage} {after : Memory}

theorem turns_outcome {o : Outcome} (turns : m.Turns id a b after) (known : a.outcome? = some o) :
    b.outcome? = some o := by
  cases turns with
  | stays | ends | unlocks | leaves => exact known
  | _ => cases known

theorem turns_late (turns : m.Turns id a b after) (late : a.early = false) : b.early = false := by
  cases turns with
  | stays => exact late
  | _ => first | rfl | cases late

/-- Only a step that deletes or saves moves the memory. -/
theorem turns_memory (turns : m.Turns id a b after) :
    after = m.shelf.memory ∧ (∀ r, a.act b ≠ .saves r) ∧ a.act b ≠ .deletes ∨
    a.holds ∧ (∃ x, b.outcome? = some (.ok x)) ∧
      (a.act b = .deletes ∧ after = m.shelf.memory.delete id ∨
        ∃ r n token, a = .working n token (.keep r) ∧ a.act b = .saves r ∧
          after = m.shelf.memory.save r) := by
  cases turns with
  | deletes => exact .inr ⟨rfl, ⟨_, rfl⟩, .inl ⟨rfl, rfl⟩⟩
  | saves => exact .inr ⟨rfl, ⟨_, rfl⟩, .inr ⟨_, _, _, rfl, rfl, rfl⟩⟩
  | stays waits =>
    cases a with
    | waiting | locked | returned => exact .inl ⟨rfl, by simp [Stage.act], by simp [Stage.act]⟩
    | _ => cases waits
  | _ => exact .inl ⟨rfl, by simp [Stage.act], by simp [Stage.act]⟩

end Manager

/-! ## Sessions on an empty store -/

section Reports

variable {e e' : Engine} {signal : Signal} {clock : String} {c : Contract} {r : Report}

theorem analyze_id (analysed : (e.analyze signal clock c).1.outcome = .ok r) :
    r.id = e.reportId c := by
  unfold Engine.analyze Engine.analyzeLimit Engine.analyzeGraph at analysed
  dsimp only at analysed
  split at analysed
  · cases analysed
  · split at analysed
    · cases analysed
      rfl
    · split at analysed
      · cases analysed
        rfl
      · cases analysed

theorem recaches_reportId (recaches : e.Recaches e') : e'.reportId c = e.reportId c := by
  obtain ⟨cache, rfl, _⟩ := recaches
  rfl

end Reports

inductive Manager.Opens (m : Manager) : Call → Prop where
  | analyze (c : Contract) : Opens m ⟨m.reportId c, .fresh (.serve c)⟩
  | load (id : String) : Opens m ⟨id, .fresh .load⟩
  | delete (id : String) : Opens m ⟨id, .fresh .delete⟩

/-- What a step says it did to the reports in memory is what it did. -/
def Deed.Told (d : Deed) : Prop :=
  match d.act with
  | .saves r => r.id = d.id ∧ d.after = d.before.save r
  | .deletes => d.after = d.before.delete d.id
  | _ => d.after = d.before

namespace Session

def memory (s : Session) : Memory := s.manager.shelf.memory

/-- A session on an empty memory store whose calls have not begun. -/
structure Opening (s : Session) : Prop where
  locks : s.manager.locks = {}
  store : s.manager.store = {}
  memory : s.memory.entries = []
  calls : ∀ call ∈ s.calls, s.manager.Opens call
  history : s.history = []

/-- A whole report, made on the way by the engine of the session of a contract with its ID. -/
structure Whole (s₀ s : Session) (r : Report) : Prop where
  complete : r.truncated = false
  made : ∃ s₁ c signal clock, s₀.Runs s₁ ∧ s₁.Runs s ∧
    s₀.manager.engine.Recaches s₁.manager.engine ∧ s₀.manager.reportId c = r.id ∧
    (s₁.manager.engine.analyze signal clock c).1.outcome = .ok r

/-- What the call at a position has established at its stage. -/
def Suits (s₀ s : Session) (k : Nat) (id : String) : Stage → Prop
  | .working _ _ (.analyze c) => s₀.manager.reportId c = id ∧ s.memory.load? id = none
  | .working _ _ (.keep r) => s₀.Whole s r ∧ r.id = id ∧ s.memory.load? id = none
  | .fresh t | .waiting _ t | .locked _ t | .working _ _ t => s₀.calls[k]? = some ⟨id, .fresh t⟩
  | _ => True

/-- What holds of every session on the way. -/
structure Sound (s₀ s : Session) : Prop where
  store : s.manager.store = {}
  engine : s₀.manager.engine.Recaches s.manager.engine
  calls : ∀ (k : Nat) call, s.calls[k]? = some call → s₀.Suits s k call.id call.stage
  stored : ∀ e ∈ s.memory.entries, e.1 = e.2.id ∧ s₀.Whole s e.2
  recalled : ∀ id, s.memory.load? id = lastSaved s.history id
  once : SavesOnce s.history
  told : ∀ d ∈ s.history, d.Told
  blameless : ∀ d ∈ s.history, d.after ≠ d.before → ∃ call a, s.calls[d.call]? = some call ∧
    call.stage.outcome? = some (.ok a)
  late : ∀ d ∈ s.history, d.act = .analyzes → ∃ call, s.calls[d.call]? = some call ∧
    call.stage.early = false

/-- A step of the call at a position over a memory store. -/
structure Moved (s s' : Session) (k : Nat) (call next : Call) : Prop where
  here : s.calls[k]? = some call
  calls : s'.calls = s.calls.set k next
  id : next.id = call.id
  turns : s.manager.Turns call.id call.stage next.stage s'.memory
  history : s'.history = s.history ++
    [⟨k, call.id, call.stage.act next.stage, s.memory, s'.memory⟩]
  store : s'.manager.store = s.manager.store
  engine : s.manager.engine.Recaches s'.manager.engine

variable {s₀ s s' : Session} {j k : Nat} {call next : Call} {r : Report} {id : String} {a : Stage}

theorem step_moved (plain : s.manager.store = {}) (step : Step s s') :
    ∃ k call next, Moved s s' k call next := by
  cases step with
  | @move k call w c here =>
    have turned := @stepped s.manager w c call plain
    exact ⟨k, call, _, here, rfl, turned.id, turned.turns, rfl, turned.store, turned.engine⟩

theorem moved_here (moved : Moved s s' k call next) : s'.calls[k]? = some next := by
  rw [moved.calls]
  exact (getElem?_replaced moved.here).mpr (.inl ⟨rfl, rfl⟩)

theorem moved_elsewhere (moved : Moved s s' k call next) (other : j ≠ k) :
    s'.calls[j]? = s.calls[j]? := by
  rw [moved.calls, List.getElem?_set_ne other.symm]

theorem opening_fresh (opening : s₀.Opening) : s₀.Fresh := by
  refine ⟨opening.locks, fun call member => ?_⟩
  cases opening.calls call member with
  | _ => exact ⟨_, rfl⟩

/-- One call at a time has the lock of an ID. -/
theorem alone (fresh : s₀.Fresh) (run : s₀.Runs s) {call other : Call} (here : s.calls[j]? = some call)
    (there : s.calls[k]? = some other) (same : call.id = other.id) (holds : call.stage.holds)
    (holds' : other.stage.holds) : j = k := by
  obtain ⟨c, protocol, shows⟩ := runs_crowd fresh run
  obtain ⟨_, guarded⟩ := Crowd.runs_orderly protocol
  obtain ⟨v, at_j, id, phase⟩ := shows_visitor shows here
  obtain ⟨w, at_k, id', phase'⟩ := shows_visitor shows there
  exact guarded.alone j k v w at_j at_k (id.trans (same.trans id'.symm))
    (Stage.shows_holds phase holds) (Stage.shows_holds phase' holds')

theorem whole_later (whole : s₀.Whole s r) (run : s.Runs s') : s₀.Whole s' r := by
  obtain ⟨complete, s₁, c, signal, clock, before, after, made⟩ := whole
  exact ⟨complete, s₁, c, signal, clock, before, after.trans run, made⟩

/-! ### What a step preserves -/

/-- A report in memory stays as it is while its ID is not at work. -/
theorem load?_kept (moved : Moved s s' k call next) (suits : s₀.Suits s k call.id call.stage)
    (apart : call.stage.holds → id ≠ call.id) : s'.memory.load? id = s.memory.load? id := by
  rcases Manager.turns_memory moved.turns with ⟨same, _⟩ |
    ⟨holds, _, ⟨_, gone⟩ | ⟨r, n, token, stage, _, new⟩⟩
  · exact congrArg (Memory.load? · id) same
  · rw [gone, Memory.load?_delete, if_neg (apart holds)]
    rfl
  · rw [stage] at suits
    rw [new, Memory.load?_save, suits.2.1, if_neg (apart holds)]
    rfl

/-- A call that stays where it is keeps what it has established, if its report stays as it is. -/
theorem suits_later (suits : s₀.Suits s k id a) (run : s.Runs s')
    (kept : a.holds → s'.memory.load? id = s.memory.load? id) : s₀.Suits s' k id a := by
  cases a with
  | working n token t =>
    cases t with
    | analyze c => exact ⟨suits.1, (kept rfl).trans suits.2⟩
    | keep r => exact ⟨whole_later suits.1 run, suits.2.1, (kept rfl).trans suits.2.2⟩
    | _ => exact suits
  | _ => exact suits

theorem suits_next (opening : s₀.Opening) (run : s₀.Runs s) (sound : s₀.Sound s) (step : Step s s')
    (moved : Moved s s' k call next) : s₀.Suits s' k next.id next.stage := by
  have suits := sound.calls k call moved.here
  have turns := moved.turns
  have after := Relation.ReflTransGen.single step
  rw [moved.id]
  obtain ⟨id, stage⟩ := call
  obtain ⟨_, stage'⟩ := next
  dsimp only at suits turns ⊢
  generalize memory : s'.memory = m at turns
  cases turns with
  | stays =>
    exact suits_later suits after fun _ => congrArg (Memory.load? · id) memory
  | finds | locks => exact suits
  | enters =>
    cases opening.calls _ (List.mem_of_getElem? suits) with
    | _ => exact suits
  | @misses n token c missing =>
    refine ⟨?_, ?_⟩
    · cases opening.calls _ (List.mem_of_getElem? suits) with
      | _ => rfl
    · rw [memory]
      exact missing
  | @makes n token c r signal clock made complete =>
    -- the engine may have filled its cache, which no ID depends on
    have own : r.id = id := by
      rw [analyze_id made, recaches_reportId sound.engine]
      exact suits.1
    refine ⟨⟨complete, s, c, signal, clock, run, after, sound.engine, ?_, made⟩, own, ?_⟩
    · rw [own]
      exact suits.1
    · rw [memory]
      exact suits.2
  | _ => trivial

theorem suits_other (fresh : s₀.Fresh) (run : s₀.Runs s) (sound : s₀.Sound s) (step : Step s s')
    (moved : Moved s s' k call next) (other : j ≠ k) {call' : Call}
    (there : s.calls[j]? = some call') : s₀.Suits s' j call'.id call'.stage := by
  refine suits_later (sound.calls j call' there) (Relation.ReflTransGen.single step) fun holds => ?_
  -- both would have the lock of one ID
  refine load?_kept moved (sound.calls k call moved.here) fun holds' same => ?_
  exact other (alone fresh run there moved.here same holds holds')

theorem told_next (moved : Moved s s' k call next) (suits : s₀.Suits s k call.id call.stage) :
    Deed.Told ⟨k, call.id, call.stage.act next.stage, s.memory, s'.memory⟩ := by
  unfold Deed.Told
  rcases Manager.turns_memory moved.turns with ⟨same, unsaved, undeleted⟩ |
    ⟨_, _, ⟨act, gone⟩ | ⟨r, n, token, stage, act, new⟩⟩
  · dsimp only
    split
    · rename_i r saves
      exact absurd saves (unsaved r)
    · rename_i deletes
      exact absurd deletes undeleted
    · exact same
  · rw [act]
    exact gone
  · rw [act]
    rw [stage] at suits
    exact ⟨suits.2.1, new⟩

/-- What is in memory is what the history recalls. -/
theorem told_lastSaved {h : List Deed} {d : Deed} (told : d.Told)
    (recalled : d.before.load? id = lastSaved h id) : d.after.load? id = lastSaved (h ++ [d]) id := by
  rw [lastSaved_snoc, ← recalled, Deed.lastSaved]
  unfold Deed.Told at told
  split at told
  · rename_i r saves
    rw [told.2, Memory.load?_save, told.1]
    simp only [eq_comm (a := id)]
  · rename_i deletes
    rw [told, Memory.load?_delete]
    simp only [eq_comm (a := id)]
  · rename_i unsaved undeleted
    rw [told, ite_self]

theorem sound_opening (opening : s₀.Opening) : s₀.Sound s₀ where
  store := opening.store
  engine := recaches_refl
  calls := by
    intro k call here
    obtain ⟨t, stage⟩ := (opening_fresh opening).2 call (List.mem_of_getElem? here)
    obtain ⟨id, _⟩ := call
    dsimp only at stage
    subst stage
    exact here
  stored := by simp [opening.memory]
  recalled := by simp [opening.history, lastSaved, Memory.load?, opening.memory]
  once := by simp [SavesOnce, opening.history]
  told := by simp [opening.history]
  blameless := by simp [opening.history]
  late := by simp [opening.history]

theorem calls_next (opening : s₀.Opening) (run : s₀.Runs s) (sound : s₀.Sound s) (step : Step s s')
    (moved : Moved s s' k call next) {call' : Call} (there : s'.calls[j]? = some call') :
    s₀.Suits s' j call'.id call'.stage := by
  by_cases here : j = k
  · subst here
    cases Option.some.inj ((moved_here moved).symm.trans there)
    exact suits_next opening run sound step moved
  · rw [moved_elsewhere moved here] at there
    exact suits_other (opening_fresh opening) run sound step moved here there

theorem stored_next (sound : s₀.Sound s) (moved : Moved s s' k call next) (after : s.Runs s')
    {e : String × Report} (member : e ∈ s'.memory.entries) : e.1 = e.2.id ∧ s₀.Whole s' e.2 := by
  have suits := sound.calls k call moved.here
  have old : e ∈ s.memory.entries → e.1 = e.2.id ∧ s₀.Whole s' e.2 := by
    intro before
    obtain ⟨own, whole⟩ := sound.stored e before
    exact ⟨own, whole_later whole after⟩
  rcases Manager.turns_memory moved.turns with ⟨same, _⟩ |
    ⟨_, _, ⟨_, gone⟩ | ⟨r, n, token, stage, _, new⟩⟩
  · rw [same] at member
    exact old member
  · rw [gone] at member
    exact old (List.mem_filter.mp member).1
  · rw [stage] at suits
    rw [new] at member
    rcases Memory.mem_save member with rfl | before
    · exact ⟨rfl, whole_later suits.1 after⟩
    · exact old before

theorem once_next (sound : s₀.Sound s) (moved : Moved s s' k call next) : SavesOnce s'.history := by
  have suits := sound.calls k call moved.here
  rw [moved.history]
  refine savesOnce_snoc sound.once fun r saves => ?_
  rw [← sound.recalled]
  rcases Manager.turns_memory moved.turns with ⟨_, unsaved, _⟩ |
    ⟨_, _, ⟨deletes, _⟩ | ⟨r, n, token, stage, _, _⟩⟩
  · exact absurd saves (unsaved r)
  · cases deletes.symm.trans saves
  · rw [stage] at suits
    exact suits.2.2

theorem blameless_next (sound : s₀.Sound s) (moved : Moved s s' k call next) {d : Deed}
    (member : d ∈ s'.history) (changed : d.after ≠ d.before) : ∃ call a,
      s'.calls[d.call]? = some call ∧ call.stage.outcome? = some (.ok a) := by
  rw [moved.history] at member
  rcases List.mem_append.mp member with old | new
  · obtain ⟨call', a, there, done⟩ := sound.blameless d old changed
    by_cases here : d.call = k
    · rw [here] at there ⊢
      cases Option.some.inj (there.symm.trans moved.here)
      exact ⟨next, a, moved_here moved, Manager.turns_outcome moved.turns done⟩
    · exact ⟨call', a, (moved_elsewhere moved here).trans there, done⟩
  · rw [List.mem_singleton.mp new] at changed ⊢
    rcases Manager.turns_memory moved.turns with ⟨same, _⟩ | ⟨_, ⟨a, done⟩, _⟩
    · exact absurd same changed
    · exact ⟨next, a, moved_here moved, done⟩

theorem late_next (sound : s₀.Sound s) (moved : Moved s s' k call next) {d : Deed}
    (member : d ∈ s'.history) (analyzes : d.act = .analyzes) : ∃ call,
      s'.calls[d.call]? = some call ∧ call.stage.early = false := by
  rw [moved.history] at member
  rcases List.mem_append.mp member with old | new
  · obtain ⟨call', there, late⟩ := sound.late d old analyzes
    by_cases here : d.call = k
    · rw [here] at there ⊢
      cases Option.some.inj (there.symm.trans moved.here)
      exact ⟨next, moved_here moved, Manager.turns_late moved.turns late⟩
    · exact ⟨call', (moved_elsewhere moved here).trans there, late⟩
  · rw [List.mem_singleton.mp new] at analyzes ⊢
    exact ⟨next, moved_here moved, Manager.turns_late moved.turns (Stage.act_analyzes analyzes)⟩

theorem sound_step (opening : s₀.Opening) (run : s₀.Runs s) (sound : s₀.Sound s) (step : Step s s') :
    s₀.Sound s' := by
  obtain ⟨k, call, next, moved⟩ := step_moved sound.store step
  have told := told_next moved (sound.calls k call moved.here)
  refine
    { store := moved.store.trans sound.store
      engine := recaches_trans sound.engine moved.engine
      calls := fun _ _ there => calls_next opening run sound step moved there
      stored := fun _ member => stored_next sound moved (Relation.ReflTransGen.single step) member
      recalled := fun id => ?_
      once := once_next sound moved
      told := fun d member => ?_
      blameless := fun _ member changed => blameless_next sound moved member changed
      late := fun _ member analyzes => late_next sound moved member analyzes }
  · rw [moved.history]
    exact told_lastSaved told (sound.recalled id)
  · rw [moved.history] at member
    rcases List.mem_append.mp member with old | new
    · exact sound.told d old
    · rw [List.mem_singleton.mp new]
      exact told

theorem runs_sound (opening : s₀.Opening) (run : s₀.Runs s) : s₀.Sound s := by
  induction run with
  | refl => exact sound_opening opening
  | tail run step ih => exact sound_step opening run ih step

end Session

end StackFlow
