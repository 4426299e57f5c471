import StackFlow.Proofs.Sessions

/-!
What one step of a call does over a memory store, in any weather. A step is one of a list of turns, each
of which takes the call from a stage to the next and leaves the memory as it is but for a report that
is saved or deleted.
-/

namespace StackFlow

/-! ## Reports in memory -/

namespace Memory

variable {m : Memory} {r : Report} {id other : String}

theorem lookup_replaced_other {entries : List (String × Report)} (apart : other ≠ id) :
    (entries.map fun e => if e.1 == id then (id, r) else e).lookup other =
      entries.lookup other := by
  induction entries with
  | nil => rfl
  | cons entry rest ih =>
    obtain ⟨key, old⟩ := entry
    rw [List.map_cons, List.lookup_cons, List.lookup_cons, ih]
    by_cases here : key = id
    · simp [here, beq_false_of_ne apart]
    · simp [here]

theorem lookup_replaced_self {entries : List (String × Report)} (present : ∃ e ∈ entries, e.1 = id) :
    (entries.map fun e => if e.1 == id then (id, r) else e).lookup id = some r := by
  induction entries with
  | nil => simp at present
  | cons entry rest ih =>
    obtain ⟨key, old⟩ := entry
    by_cases here : key = id
    · simp [here]
    · obtain ⟨e, member, same⟩ := present
      have behind : e ∈ rest := by
        rcases List.mem_cons.mp member with rfl | behind
        · exact absurd same here
        · exact behind
      have later := ih ⟨e, behind, same⟩
      simpa [here, List.lookup_cons, beq_false_of_ne (Ne.symm here)] using later

theorem load?_save : (m.save r).load? id = if id = r.id then some r else m.load? id := by
  unfold save load?
  dsimp only
  by_cases present : m.entries.any (·.1 == r.id)
  · have there : ∃ e ∈ m.entries, e.1 = r.id := by simpa using present
    rw [if_pos present]
    split
    · rename_i same
      rw [same]
      exact lookup_replaced_self there
    · rename_i other
      exact lookup_replaced_other other
  · have fresh : m.entries.lookup r.id = none := by
      apply List.lookup_eq_none_iff.mpr
      intro e member
      have other : e.1 ≠ r.id := by
        intro same
        exact present (List.any_eq_true.mpr ⟨e, member, by simp [same]⟩)
      simpa using other.symm
    rw [if_neg present, List.lookup_append]
    by_cases same : id = r.id
    · simp [same, fresh]
    · simp [same, List.lookup_cons, beq_false_of_ne same]

theorem load?_delete : (m.delete other).load? id = if id = other then none else m.load? id :=
  lookup_filter

theorem mem_save {entry : String × Report} (member : entry ∈ (m.save r).entries) :
    entry = (r.id, r) ∨ entry ∈ m.entries := by
  unfold save at member
  dsimp only at member
  split at member
  · obtain ⟨old, among, same⟩ := List.mem_map.mp member
    split at same
    · exact .inl same.symm
    · exact .inr (same ▸ among)
  · rcases List.mem_append.mp member with old | new
    · exact .inr old
    · exact .inl (List.mem_singleton.mp new)

end Memory

/-! ## One step -/

/-- An engine that differs at most in what it has in its cache, if it has one. -/
def Engine.Recaches (e e' : Engine) : Prop :=
  ∃ cache, e' = { e with cache } ∧ (e.cache = none → cache = none)

theorem recaches_refl {e : Engine} : e.Recaches e := ⟨e.cache, rfl, id⟩

theorem recaches_trans {e e' e'' : Engine} (first : e.Recaches e') (second : e'.Recaches e'') :
    e.Recaches e'' := by
  obtain ⟨cache, rfl, none⟩ := first
  obtain ⟨cache', rfl, none'⟩ := second
  exact ⟨cache', rfl, fun absent => none' (none absent)⟩

theorem recaches_analyze (e : Engine) (signal : Signal) (clock : String) (c : Contract) :
    e.Recaches (e.analyze signal clock c).2 := by
  change e.Recaches (e.compile c.code).2.2
  unfold Engine.compile
  split
  · exact recaches_refl
  · rename_i cache some
    dsimp only
    split
    · exact ⟨_, rfl, fun none => by cases some.symm.trans none⟩
    · exact ⟨_, rfl, fun none => by cases some.symm.trans none⟩

/-- Whether a call may have to stay where it is. -/
def Stage.waits : Stage → Bool
  | waiting .. | locked .. | returned _ => true
  | _ => false

/-- The steps of a call on `id` from stage to stage over a memory store, with what is in memory behind
them. -/
inductive Manager.Turns (m : Manager) (id : String) : Stage → Stage → Memory → Prop where
  | stays {a : Stage} : a.waits → Turns m id a a m.shelf.memory
  | finds {n : Nat} {t : Task} : Turns m id (.fresh t) (.waiting n t) m.shelf.memory
  | locks {n : Nat} {t : Task} : Turns m id (.waiting n t) (.locked n t) m.shelf.memory
  | enters {n : Nat} {t : Task} (token : Option String) :
      Turns m id (.locked n t) (.working n token t) m.shelf.memory
  | keptOut {n : Nat} {t : Task} (e : Lease.Error) :
      Turns m id (.locked n t) (.ending n none (.error (.lease e))) m.shelf.memory
  | loads {n : Nat} {token : Option String} {r : Report} : m.shelf.memory.load? id = some r →
      Turns m id (.working n token .load) (.ending n token (.ok (.report r true))) m.shelf.memory
  | loadFails {n : Nat} {token : Option String} (e : StoreError) :
      Turns m id (.working n token .load) (.ending n token (.error (.store e))) m.shelf.memory
  | deletes {n : Nat} {token : Option String} :
      Turns m id (.working n token .delete) (.ending n token (.ok .done)) (m.shelf.memory.delete id)
  | deleteFails {n : Nat} {token : Option String} (e : StoreError) :
      Turns m id (.working n token .delete) (.ending n token (.error (.store e))) m.shelf.memory
  | serves {n : Nat} {token : Option String} {c : Contract} {r : Report} :
      m.shelf.memory.load? id = some r → Turns m id (.working n token (.serve c))
        (.ending n token (.ok (.report r true))) m.shelf.memory
  | misses {n : Nat} {token : Option String} {c : Contract} : m.shelf.memory.load? id = none →
      Turns m id (.working n token (.serve c)) (.working n token (.analyze c)) m.shelf.memory
  | checkFails {n : Nat} {token : Option String} {c : Contract} (e : StoreError) :
      Turns m id (.working n token (.serve c)) (.ending n token (.error (.check e))) m.shelf.memory
  | breaks {n : Nat} {token : Option String} {c : Contract} (e : AnalysisError) :
      Turns m id (.working n token (.analyze c)) (.ending n token (.error (.analysis e)))
        m.shelf.memory
  | cut {n : Nat} {token : Option String} {c : Contract} (r : Report) :
      Turns m id (.working n token (.analyze c)) (.ending n token (.ok (.report r false)))
        m.shelf.memory
  | makes {n : Nat} {token : Option String} {c : Contract} {r : Report} {signal : Signal}
      {clock : String} : (m.engine.analyze signal clock c).1.outcome = .ok r →
      r.truncated = false →
      Turns m id (.working n token (.analyze c)) (.working n token (.keep r)) m.shelf.memory
  | saves {n : Nat} {token : Option String} {r : Report} :
      Turns m id (.working n token (.keep r)) (.ending n token (.ok (.report r false)))
        (m.shelf.memory.save r)
  | saveFails {n : Nat} {token : Option String} {r : Report} (e : StoreError) :
      Turns m id (.working n token (.keep r)) (.ending n token (.error (.save e))) m.shelf.memory
  | ends {n : Nat} {token : Option String} {o : Outcome} :
      Turns m id (.ending n token o) (.unlocking n o) m.shelf.memory
  | unlocks {n : Nat} {o : Outcome} : Turns m id (.unlocking n o) (.leaving o) m.shelf.memory
  | leaves {o : Outcome} : Turns m id (.leaving o) (.returned o) m.shelf.memory

section Steps

variable {m : Manager} {w : Weather} {c : Caller} {call : Call}

theorem load_memory (c : Caller) (id : String) (s : Shelf) :
    Place.memory.load c id s = match s.memory.load? id with
      | some r => .ok r s
      | none => .error StoreError.notFound s := by
  change (match s.memory.load? id with
    | some r => (pure r : StoreAction Report)
    | none => throw StoreError.notFound) s = _
  cases s.memory.load? id <;> rfl

theorem store_under (plain : m.store = {}) :
    (m.under w).store = ⟨.memory, [.refusing w.refused w.reason]⟩ := by
  rw [Manager.under, plain]

/-- A memory store answers, unless the weather is bad. -/
theorem load_under (plain : m.store = {}) (id : String) :
    (m.under w).onShelf ((m.under w).store.load c id) =
      (if w.refused.load then .error (.refused w.reason)
        else match m.shelf.memory.load? id with
          | some r => .ok r
          | none => .error .notFound, m.under w) := by
  rw [store_under plain, Manager.onShelf, Store.load, Store.loadThrough]
  cases w.refused.load with
  | true => rfl
  | false =>
    simp only [Bool.false_eq_true, if_false, Store.loadThrough, load_memory]
    rw [show (m.under w).shelf = m.shelf from rfl]
    cases m.shelf.memory.load? id <;> rfl

theorem delete_under (plain : m.store = {}) (id : String) :
    (m.under w).onShelf ((m.under w).store.delete c id) =
      if w.refused.delete then (.error (.refused w.reason), m.under w)
      else (.ok (), { m.under w with
        shelf := { m.shelf with memory := m.shelf.memory.delete id } }) := by
  rw [store_under plain, Manager.onShelf, Store.delete, Store.refusal?]
  cases w.refused.delete <;> rfl

theorem save_under (plain : m.store = {}) (r : Report) :
    (m.under w).onShelf ((m.under w).store.save c r) =
      if w.refused.save then (.error (.refused w.reason), m.under w)
      else (.ok (), { m.under w with
        shelf := { m.shelf with memory := m.shelf.memory.save r } }) := by
  rw [store_under plain, Manager.onShelf, Store.save, Store.saveThrough]
  cases w.refused.save <;> rfl

/-- What a step of a call does to the manager. -/
structure Stepped (m : Manager) (call : Call) (next : Call) (after : Manager) : Prop where
  id : next.id = call.id
  turns : m.Turns call.id call.stage next.stage after.shelf.memory
  store : after.store = m.store
  engine : m.engine.Recaches after.engine

theorem stepped (plain : m.store = {}) :
    Stepped m call (m.stepUnder w c call).1 (m.stepUnder w c call).2 := by
  obtain ⟨id, stage⟩ := call
  cases stage with
  | fresh t => exact ⟨rfl, .finds, rfl, recaches_refl⟩
  | waiting n t =>
    unfold Manager.stepUnder Manager.step
    dsimp only
    split
    · exact ⟨rfl, .stays rfl, rfl, recaches_refl⟩
    · exact ⟨rfl, .locks, rfl, recaches_refl⟩
  | locked n t =>
    have kept := @Manager.keeps_requestLease (m.under w) c id
    rcases asked : (m.under w).requestLease c id with ⟨answer, m'⟩
    rw [asked] at kept
    have memory : m'.shelf.memory = m.shelf.memory := kept.memory
    have engine : m.engine.Recaches m'.engine := by
      rw [kept.engine]
      exact recaches_refl
    unfold Manager.stepUnder Manager.step
    rw [asked]
    match answer with
    | some (.ok token) => exact ⟨rfl, memory ▸ .enters token, rfl, engine⟩
    | some (.error e) => exact ⟨rfl, memory ▸ .keptOut e, rfl, engine⟩
    | none =>
      dsimp only
      split
      · exact ⟨rfl, memory ▸ .keptOut _, rfl, engine⟩
      · exact ⟨rfl, memory ▸ .stays rfl, rfl, engine⟩
  | working n token t =>
    unfold Manager.stepUnder Manager.step
    cases t with
    | load =>
      simp only [Manager.work, load_under plain]
      cases w.refused.load with
      | true => exact ⟨rfl, .loadFails _, rfl, recaches_refl⟩
      | false =>
        cases found : m.shelf.memory.load? id with
        | none => exact ⟨rfl, .loadFails _, rfl, recaches_refl⟩
        | some r => exact ⟨rfl, .loads found, rfl, recaches_refl⟩
    | delete =>
      simp only [Manager.work, delete_under plain]
      cases w.refused.delete with
      | true => exact ⟨rfl, .deleteFails _, rfl, recaches_refl⟩
      | false => exact ⟨rfl, .deletes, rfl, recaches_refl⟩
    | serve contract =>
      simp only [Manager.work, load_under plain]
      cases w.refused.load with
      | true => exact ⟨rfl, .checkFails _, rfl, recaches_refl⟩
      | false =>
        cases found : m.shelf.memory.load? id with
        | none => exact ⟨rfl, .misses found, rfl, recaches_refl⟩
        | some r => exact ⟨rfl, .serves found, rfl, recaches_refl⟩
    | analyze contract =>
      have caches := recaches_analyze m.engine (if c.canceled then .always else .never) c.clock contract
      rcases analysed : m.engine.analyze (if c.canceled then .always else .never) c.clock contract with
        ⟨a, engine⟩
      rw [analysed] at caches
      simp only [Manager.work, Manager.under, analysed]
      cases outcome : a.outcome with
      | error e => exact ⟨rfl, .breaks e, rfl, caches⟩
      | ok r =>
        cases truncated : r.truncated with
        | true =>
          simp only [truncated, if_true]
          exact ⟨rfl, .cut r, rfl, caches⟩
        | false =>
          have made : (m.engine.analyze (if c.canceled then .always else .never) c.clock
              contract).1.outcome = .ok r := by rw [analysed, outcome]
          simp only [truncated, Bool.false_eq_true, if_false]
          exact ⟨rfl, .makes made truncated, rfl, caches⟩
    | keep r =>
      simp only [Manager.work, save_under plain]
      cases w.refused.save with
      | true => exact ⟨rfl, .saveFails _, rfl, recaches_refl⟩
      | false => exact ⟨rfl, .saves, rfl, recaches_refl⟩
  | ending n token o =>
    have kept := @Manager.keeps_returnLease (m.under w) c id token
    have memory : ((m.under w).returnLease c id token).shelf.memory = m.shelf.memory := kept.memory
    have engine : m.engine.Recaches ((m.under w).returnLease c id token).engine := by
      rw [kept.engine]
      exact recaches_refl
    exact ⟨rfl, memory ▸ .ends, rfl, engine⟩
  | unlocking n o => exact ⟨rfl, .unlocks, rfl, recaches_refl⟩
  | leaving o => exact ⟨rfl, .leaves, rfl, recaches_refl⟩
  | returned o => exact ⟨rfl, .stays rfl, rfl, recaches_refl⟩

end Steps

end StackFlow
