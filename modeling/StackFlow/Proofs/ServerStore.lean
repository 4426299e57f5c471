import StackFlow.Proofs.Commands
import StackFlow.Proofs.ReportMap
import StackFlow.Proofs.Reports

/-!
Reports on a server. A report lies as a text under the key of its ID, and a set of all IDs lies beside
the reports. The key of that set is the key of one ID, `index`. As long as no call names it, the set is
in step with the texts, and every answer is that of a map; whatever is done with it, the texts tell what
was saved under the other IDs. Main statement: `server_store_is_map`.
-/

namespace StackFlow

namespace Indexed

open Server (Command)

variable {s : Server} {space : String}

/-! ## What the store does on a server that answers -/

theorem during_ok {α : Type} {work : StoreWork} {c : Command α} {x : α} {s' : Server}
    (ran : c s = .ok x s') : during work c s = .ok x s' := by
  rw [during, ran]

theorem during_error {α : Type} {work : StoreWork} {c : Command α} {e : ServerError} {s' : Server}
    (failed : c s = .error e s') : during work c s = .error (.server work e) s' := by
  rw [during, failed]

theorem both_answers {a b : Command Unit} {s' : Server} (ran : a s = .ok () s') :
    Command.both a b s = b s' := by
  rw [Command.both, ran]

/-- How a change of the set ends that goes with a command on a report. A text under the key of the set
keeps it from being written. -/
def followed (work : StoreWork) (space : String) (change : List (String × Int) → List (String × Int))
    (s : Server) : EStateM.Result StoreError Server Unit :=
  match s.members? (indexKey space) with
  | some ms => .ok () (s.putMembers (indexKey space) (change ms))
  | none => .error (.server work .wrongKind) s

theorem during_both {work : StoreWork} {a : Command Unit} {s' : Server} (ran : a s = .ok () s')
    (up : s'.outage = none) (change : List (String × Int) → List (String × Int)) :
    during work (Command.both a do
      Command.putMembers (indexKey space) (change (← Command.members (indexKey space)))) s =
      followed work space change s' := by
  have ended := (both_answers ran).trans (Command.change_answers up (indexKey space) change)
  unfold followed
  split <;> rename_i set <;> rw [set] at ended
  · exact during_ok ended
  · exact during_error ended

theorem save_answers (space : String) (up : s.outage = none) (r : Report) : save space false r s =
    followed .save space (fun ms => (r.id, farFuture) :: ms.filter (·.1 != r.id))
      (s.put (keyOf space r.id) (.text r.render)) :=
  during_both (Command.set_answers up (keyOf space r.id) r.render) up _

theorem delete_answers (space : String) (up : s.outage = none) (id : String) : delete space false id s =
    followed .delete space (fun ms => ms.filter (·.1 != id)) (s.remove (keyOf space id)) :=
  during_both (Command.delete_answers up (keyOf space id)) up _

theorem load_answers (space : String) (up : s.outage = none) (id : String) : load space false id s =
    match s.find? (keyOf space id) with
    | some (.text t) =>
      match Report.parse? t with
      | some r => .ok r s
      | none => .error .malformed s
    | some (.ranked _) => .error (.server .load .wrongKind) s
    | none => .error .notFound s := by
  have ran := Command.get?_answers up (keyOf space id)
  rcases holds : s.find? (keyOf space id) with _ | t | ms <;> rw [holds] at ran
  · exact bind_ok _ (during_ok ran)
  · refine (bind_ok _ (during_ok ran)).trans ?_
    dsimp only
    cases Report.parse? t <;> rfl
  · exact bind_error _ (during_error ran)

theorem list_answers (space : String) (up : s.outage = none) (now : Int) : list space false now s =
    match s.members? (indexKey space) with
    | some ms =>
      let kept := ms.filter (now < ·.2)
      .ok ((kept.mergeSort fun a b => a.2 < b.2 || (a.2 = b.2 && a.1 ≤ b.1)).map (·.1))
        (s.putMembers (indexKey space) kept)
    | none => .error (.server .prune .wrongKind) s := by
  have pruned := Command.change_answers up (indexKey space) fun ms => ms.filter (now < ·.2)
  cases set : s.members? (indexKey space) with
  | none =>
    rw [set] at pruned
    exact bind_error _ (during_error pruned)
  | some ms =>
    rw [set] at pruned
    have ranged := Command.range_answers (s := s.putMembers (indexKey space) (ms.filter (now < ·.2)))
      (by rw [Server.outage_putMembers, up]) (indexKey space)
    rw [Server.members?_putMembers] at ranged
    exact (bind_ok _ (during_ok pruned)).trans (during_ok ranged)

end Indexed

namespace Server

open Indexed

variable {space : String} {m : ReportMap} {s s' : Server}

/-! ## The texts -/

/-- The texts under the keys of IDs are those of the reports of a map. Only the key of the set may
hold something else. -/
structure Texts (space : String) (m : ReportMap) (s : Server) : Prop where
  up : s.outage = none
  texts : ∀ id t, s.find? (keyOf space id) = some (.text t) ↔ ∃ r, m id = some r ∧ r.render = t
  ranked : ∀ id ms, s.find? (keyOf space id) = some (.ranked ms) → id = "index"
  proper : ∀ id r, m id = some r → r.Proper

theorem keyOf_inj {id other : String} : keyOf space id = keyOf space other ↔ id = other :=
  String.append_right_inj space

theorem keyOf_apart {id : String} (other : id ≠ "index") : keyOf space id ≠ indexKey space :=
  fun same => other (keyOf_inj.mp same)

theorem not_text {key : String} {ms : List (String × Int)} (set : s.members? key = some ms)
    (t : String) : s.find? key ≠ some (.text t) := by
  intro holds
  rw [members?_text holds] at set
  cases set

theorem texts_nothing {id : String} (texts : s.Texts space m) (apart : id ≠ "index")
    (unsaved : m id = none) : s.find? (keyOf space id) = none := by
  rcases holds : s.find? (keyOf space id) with _ | t | ms
  · rfl
  · obtain ⟨r, saved, _⟩ := (texts.texts id t).mp holds
    cases unsaved.symm.trans saved
  · exact absurd (texts.ranked id ms holds) apart

/-- What is done with the set leaves the texts alone. -/
theorem texts_putMembers {ms old : List (String × Int)} (texts : s.Texts space m)
    (set : s.members? (indexKey space) = some old) :
    (s.putMembers (indexKey space) ms).Texts space m where
  up := by rw [outage_putMembers, texts.up]
  texts := by
    intro id t
    rw [← texts.texts id t]
    by_cases here : id = "index"
    · subst here
      exact iff_of_false (not_text (members?_putMembers s (indexKey space) ms) t) (not_text set t)
    · rw [find?_putMembers_other (keyOf_apart here)]
  ranked := by
    intro id ms'
    by_cases here : id = "index"
    · exact fun _ => here
    · rw [find?_putMembers_other (keyOf_apart here)]
      exact texts.ranked id ms'
  proper := texts.proper

theorem find?_put_keyOf (s : Server) (id other : String) (h : Holding) :
    (s.put (keyOf space other) h).find? (keyOf space id) =
      if id = other then some h else s.find? (keyOf space id) := by
  simp [keyOf_inj]

theorem find?_remove_keyOf (s : Server) (id other : String) :
    (s.remove (keyOf space other)).find? (keyOf space id) =
      if id = other then none else s.find? (keyOf space id) := by
  simp [keyOf_inj]

theorem texts_put {r : Report} (texts : s.Texts space m) (proper : r.Proper) :
    (s.put (keyOf space r.id) (.text r.render)).Texts space (m.after (.save r)) where
  up := texts.up
  texts := by
    intro id t
    rw [find?_put_keyOf, ReportMap.after_save]
    split
    · simp
    · exact texts.texts id t
  ranked := by
    intro id ms
    rw [find?_put_keyOf]
    split
    · simp
    · exact texts.ranked id ms
  proper := by
    intro id r' saved
    rw [ReportMap.after_save] at saved
    split at saved
    · cases saved
      exact proper
    · exact texts.proper id r' saved

theorem texts_remove (texts : s.Texts space m) (other : String) :
    (s.remove (keyOf space other)).Texts space (m.after (.delete other)) where
  up := texts.up
  texts := by
    intro id t
    rw [find?_remove_keyOf, ReportMap.after_delete]
    split
    · simp
    · exact texts.texts id t
  ranked := by
    intro id ms
    rw [find?_remove_keyOf]
    split
    · simp
    · exact texts.ranked id ms
  proper := by
    intro id r kept
    rw [ReportMap.after_delete] at kept
    split at kept
    · cases kept
    · exact texts.proper id r kept

end Server

/-! ## Answers of the store -/

namespace Place

open Indexed

variable {space : String} {m : ReportMap} {c : Caller} {shelf : Shelf}

theorem onServer_ok {α : Type} {a : Indexed.Action α} {x : α} {s : Server}
    (ran : a shelf.server = .ok x s) : onServer a shelf = .ok x { shelf with server := s } := by
  rw [onServer, ran]

theorem onServer_error {α : Type} {a : Indexed.Action α} {e : StoreError} {s : Server}
    (failed : a shelf.server = .error e s) :
    onServer a shelf = .error e { shelf with server := s } := by
  rw [onServer, failed]

theorem onServer_followed {a : Indexed.Action Unit} {work : StoreWork} {s : Server}
    {change : List (String × Int) → List (String × Int)}
    (ran : a shelf.server = followed work space change s) :
    onServer a shelf = match s.members? (indexKey space) with
      | some ms => .ok () { shelf with server := s.putMembers (indexKey space) (change ms) }
      | none => .error (.server work .wrongKind) { shelf with server := s } := by
  unfold followed at ran
  split <;> rename_i set <;> rw [set] at ran
  · exact onServer_ok ran
  · exact onServer_error ran

/-- A report is stored in any case; the set may be out of reach. -/
theorem save_onServer (space : String) (present : c.canceled = false)
    (up : shelf.server.outage = none) (r : Report) :
    (server space).save c r shelf =
      let stored := shelf.server.put (keyOf space r.id) (.text r.render)
      match stored.members? (indexKey space) with
      | some ms =>
        let ms := (r.id, farFuture) :: ms.filter (·.1 != r.id)
        .ok () { shelf with server := stored.putMembers (indexKey space) ms }
      | none => .error (.server .save .wrongKind) { shelf with server := stored } := by
  rw [save, present]
  exact onServer_followed (save_answers space up r)

theorem delete_onServer (space : String) (present : c.canceled = false)
    (up : shelf.server.outage = none) (id : String) : (server space).delete c id shelf =
      let dropped := shelf.server.remove (keyOf space id)
      match dropped.members? (indexKey space) with
      | some ms =>
        let ms := ms.filter (·.1 != id)
        .ok () { shelf with server := dropped.putMembers (indexKey space) ms }
      | none => .error (.server .delete .wrongKind) { shelf with server := dropped } := by
  rw [delete, present]
  exact onServer_followed (delete_answers space up id)

/-- What is read under an ID is the report of the map. Nothing is there without one, unless it is the
set. -/
theorem load_onServer (present : c.canceled = false) (texts : shelf.server.Texts space m)
    (id : String) : (server space).load c id shelf =
      match m id with
      | some r => .ok r shelf
      | none => .error (if shelf.server.find? (keyOf space id) = none then .notFound
          else .server .load .wrongKind) shelf := by
  have ran := load_answers space texts.up id
  rw [load, present]
  cases saved : m id with
  | some r =>
    rw [(texts.texts id r.render).mpr ⟨r, saved, rfl⟩] at ran
    simp only [Report.parse?_render (texts.proper id r saved)] at ran
    exact onServer_ok ran
  | none =>
    rcases holds : shelf.server.find? (keyOf space id) with _ | t | ms
    · rw [holds] at ran
      exact onServer_error ran
    · obtain ⟨r, there, _⟩ := (texts.texts id t).mp holds
      cases saved.symm.trans there
    · rw [holds] at ran
      exact onServer_error ran

theorem list_onServer (space : String) (present : c.canceled = false) (up : shelf.server.outage = none) :
    (server space).list c shelf =
      match shelf.server.members? (indexKey space) with
      | some ms =>
        let kept := ms.filter (c.now < ·.2)
        .ok (some ((kept.mergeSort fun a b => a.2 < b.2 || (a.2 = b.2 && a.1 ≤ b.1)).map (·.1)))
          { shelf with server := shelf.server.putMembers (indexKey space) kept }
      | none => .error (.server .prune .wrongKind) shelf := by
  have ran := list_answers space up c.now
  rw [list, present]
  split <;> rename_i set <;> rw [set] at ran
  · exact bind_ok _ (onServer_ok ran)
  · exact bind_error _ (onServer_error ran)

end Place

namespace Store

open Indexed

variable {space : String} {m : ReportMap} {c : Caller} {shelf : Shelf}

/-- The reports on a server, without layers. -/
def onServer (space : String) : Store := ⟨.server space, []⟩

/-- However a call ends, the texts are those of the map behind it. -/
theorem texts_answer {call : StoreCall} (present : c.canceled = false)
    (texts : shelf.server.Texts space m) (proper : ∀ r, call = .save r → r.Proper) :
    ((onServer space).answer c call shelf).2.server.Texts space (m.after call) := by
  cases call with
  | save r =>
    have stored := Server.texts_put texts (proper r rfl)
    change (StoreAnswer.ofResult _ ((Place.server space).save c r shelf)).2.server.Texts _ _
    rw [Place.save_onServer space present texts.up]
    dsimp only
    split
    · rename_i set
      dsimp only [StoreAnswer.ofResult]
      exact Server.texts_putMembers stored set
    · exact stored
  | load id =>
    change (StoreAnswer.ofResult _ ((Place.server space).load c id shelf)).2.server.Texts _ _
    rw [Place.load_onServer present texts]
    split <;> exact texts
  | delete id =>
    have dropped := Server.texts_remove texts id
    change (StoreAnswer.ofResult _ ((Place.server space).delete c id shelf)).2.server.Texts _ _
    rw [Place.delete_onServer space present texts.up]
    dsimp only
    split
    · rename_i set
      exact Server.texts_putMembers dropped set
    · exact dropped
  | list =>
    change (StoreAnswer.ofResult _ ((Place.server space).list c shelf)).2.server.Texts _ _
    rw [Place.list_onServer space present texts.up]
    split
    · rename_i set
      exact Server.texts_putMembers texts set
    · exact texts

end Store

/-! ## The set of IDs -/

/-- The set of the IDs that have a report, each with the score of a report that does not expire. -/
structure IndexOf (m : ReportMap) (ms : List (String × Int)) : Prop where
  once : (ms.map (·.1)).Nodup
  score : ∀ x ∈ ms, x.2 = Indexed.farFuture
  same : ∀ id, id ∈ ms.map (·.1) ↔ (m id).isSome

section Index

variable {m : ReportMap} {ms : List (String × Int)}

theorem mem_filtered {id other : String} :
    id ∈ (ms.filter (·.1 != other)).map (·.1) ↔ id ≠ other ∧ id ∈ ms.map (·.1) := by
  simp only [List.mem_map, List.mem_filter, bne_iff_ne]
  constructor
  · rintro ⟨x, ⟨member, apart⟩, rfl⟩
    exact ⟨apart, x, member, rfl⟩
  · rintro ⟨apart, x, member, rfl⟩
    exact ⟨x, ⟨member, apart⟩, rfl⟩

theorem indexOf_delete (index : IndexOf m ms) (other : String) :
    IndexOf (m.after (.delete other)) (ms.filter (·.1 != other)) where
  once := (List.filter_sublist.map _).nodup index.once
  score := fun x member => index.score x (List.mem_filter.mp member).1
  same := by
    intro id
    rw [mem_filtered, index.same id, ReportMap.after_delete]
    by_cases here : id = other <;> simp [here]

theorem indexOf_save (index : IndexOf m ms) (r : Report) :
    IndexOf (m.after (.save r)) ((r.id, Indexed.farFuture) :: ms.filter (·.1 != r.id)) where
  once := List.nodup_cons.mpr
    ⟨fun member => (mem_filtered.mp member).1 rfl, (indexOf_delete index r.id).once⟩
  score := List.forall_mem_cons.mpr ⟨rfl, (indexOf_delete index r.id).score⟩
  same := by
    intro id
    rw [List.map_cons, List.mem_cons, mem_filtered, index.same id, ReportMap.after_save]
    by_cases here : id = r.id <;> simp [here]

theorem indexOf_early {now : Int} (index : IndexOf m ms) (early : now < Indexed.farFuture) :
    ms.filter (now < ·.2) = ms :=
  List.filter_eq_self.mpr fun x member => by simp [index.score x member, early]

end Index

/-- The set on a server is in step with the texts, and its key is not that of a report. -/
structure Server.InStep (space : String) (m : ReportMap) (s : Server) : Prop where
  texts : s.Texts space m
  free : m "index" = none
  index : ∃ ms, s.members? (Indexed.indexKey space) = some ms ∧ IndexOf m ms

namespace Store

open Indexed

variable {space : String} {m : ReportMap} {c : Caller} {shelf : Shelf}

theorem members?_apart {s' : Server} {id : String} {set : Option (List (String × Int))}
    (known : shelf.server.members? (indexKey space) = set)
    (same : ∀ key, key ≠ keyOf space id → s'.find? key = shelf.server.find? key)
    (apart : id ≠ "index") : s'.members? (indexKey space) = set :=
  (Server.members?_congr (same _ (Server.keyOf_apart apart).symm)).trans known

/-- Whatever is done with the set, what is read under another ID is what the map has. -/
theorem load_answers {id : String} (present : c.canceled = false)
    (texts : shelf.server.Texts space m) (apart : id ≠ "index") :
    m.Answers (.load id) ((onServer space).answer c (.load id) shelf).1 := by
  have ran := Place.load_onServer present texts id
  have told : (onServer space).answer c (.load id) shelf = StoreAnswer.ofResult .report _ :=
    congrArg (StoreAnswer.ofResult _) ran
  rw [told, ReportMap.Answers]
  cases saved : m id with
  | some r => rfl
  | none =>
    rw [Server.texts_nothing texts apart saved]
    rfl

/-- As long as no call names the ID whose key is that of the set, the answers are those of the map. -/
theorem inStep_answer {call : StoreCall} (present : c.canceled = false) (early : c.now < farFuture)
    (step : shelf.server.InStep space m) (proper : ∀ r, call = .save r → r.Proper)
    (other : call.id? ≠ some "index") :
    m.Answers call ((onServer space).answer c call shelf).1 ∧
      ((onServer space).answer c call shelf).2.server.InStep space (m.after call) := by
  have texts := texts_answer present step.texts proper
  obtain ⟨ms, set, index⟩ := step.index
  cases call with
  | save r =>
    have apart : r.id ≠ "index" := fun same => other (congrArg some same)
    have ran := Place.save_onServer space present step.texts.up r
    dsimp only at ran
    rw [members?_apart set (fun key far => by simp [far]) apart] at ran
    have told : (onServer space).answer c (.save r) shelf = (.done, _) :=
      congrArg (StoreAnswer.ofResult _) ran
    rw [told] at texts ⊢
    refine ⟨rfl, texts, ?_, _, Server.members?_putMembers .., indexOf_save index r⟩
    rw [ReportMap.after_save, if_neg apart.symm, step.free]
  | load id =>
    have apart : id ≠ "index" := fun same => other (congrArg some same)
    refine ⟨load_answers present step.texts apart, texts, step.free, ms, ?_, index⟩
    have told : (onServer space).answer c (.load id) shelf = StoreAnswer.ofResult .report _ :=
      congrArg (StoreAnswer.ofResult _) (Place.load_onServer present step.texts id)
    rw [told]
    cases m id <;> exact set
  | delete id =>
    have apart : id ≠ "index" := fun same => other (congrArg some same)
    have ran := Place.delete_onServer space present step.texts.up id
    dsimp only at ran
    rw [members?_apart set (fun key far => by simp [far]) apart] at ran
    have told : (onServer space).answer c (.delete id) shelf = (.done, _) :=
      congrArg (StoreAnswer.ofResult _) ran
    rw [told] at texts ⊢
    refine ⟨rfl, texts, ?_, _, Server.members?_putMembers .., indexOf_delete index id⟩
    rw [ReportMap.after_delete, if_neg apart.symm, step.free]
  | list =>
    have ran := Place.list_onServer space present step.texts.up
    dsimp only at ran
    rw [set] at ran
    dsimp only at ran
    rw [indexOf_early index early] at ran
    have told : (onServer space).answer c .list shelf = (.ids _, _) :=
      congrArg (StoreAnswer.ofResult _) ran
    rw [told] at texts ⊢
    refine ⟨⟨_, rfl, ?_, ?_⟩, texts, step.free, _, Server.members?_putMembers .., index⟩
    · exact ((List.mergeSort_perm ms _).map _).nodup_iff.mpr index.once
    · intro id
      exact ((List.mergeSort_perm ms _).map _).mem_iff.trans (index.same id)

end Store

/-! ## Main statement -/

/-- A server that answers and has nothing under the keys of IDs. -/
structure Server.Vacant (space : String) (s : Server) : Prop where
  up : s.outage = none
  nothing : ∀ id, s.find? (Indexed.keyOf space id) = none

/-- A call of someone who has not given up, at a time before reports would expire. -/
structure StoreCall.Usual (c : Caller) (call : StoreCall) : Prop where
  present : c.canceled = false
  early : c.now < Indexed.farFuture
  proper : ∀ r, call = .save r → r.Proper

theorem Server.vacant_inStep {space : String} {s : Server} (vacant : s.Vacant space) :
    s.InStep space .empty where
  texts :=
    { up := vacant.up
      texts := fun id t => by simp [vacant.nothing id, ReportMap.empty]
      ranked := fun id ms holds => by simp [vacant.nothing id] at holds
      proper := fun id r saved => by cases saved }
  free := rfl
  index := by
    refine ⟨[], ?_, List.nodup_nil, by simp, by simp [ReportMap.empty]⟩
    rw [members?, show s.find? (Indexed.indexKey space) = none from vacant.nothing "index"]

/-- A store on a server is a map: what is read under an ID is the report that was saved last under it
and not deleted since. Where no call names the ID whose key is that of the set of IDs, all answers are
those of the map, and so of a store in memory. IDs are texts here; bytes that are no text would not
come back out of a report as they went in. -/
theorem server_store_is_map {space : String} {s : Shelf} (vacant : s.server.Vacant space)
    {calls : List (Caller × StoreCall)} (usual : ∀ x ∈ calls, x.2.Usual x.1) :
    ReportMap.Tells (fun call => ∃ id ≠ "index", call = .load id) .empty (calls.map (·.2))
        ((Store.onServer space).answers calls s) ∧
      ((∀ x ∈ calls, x.2.id? ≠ some "index") →
        ReportMap.Tells (fun _ => True) .empty (calls.map (·.2))
            ((Store.onServer space).answers calls s) ∧
          List.Forall₂ StoreAnswer.Agrees ((Store.onServer space).answers calls s)
            (({} : Store).answers calls {})) := by
  have start := Server.vacant_inStep vacant
  constructor
  · refine ReportMap.tells_of_step (fun m s => s.server.Texts space m)
      (fun x => x.2.Usual x.1) ?_ usual start.texts
    intro m s c call texts usual
    refine ⟨?_, Store.texts_answer usual.present texts usual.proper⟩
    rintro ⟨id, apart, rfl⟩
    exact Store.load_answers usual.present texts apart
  · intro others
    have told : ReportMap.Tells (fun _ => True) .empty (calls.map (·.2))
        ((Store.onServer space).answers calls s) := by
      refine ReportMap.tells_of_step (fun m s => s.server.InStep space m)
        (fun x => x.2.Usual x.1 ∧ x.2.id? ≠ some "index") ?_
        (fun x member => ⟨usual x member, others x member⟩) start
      rintro m s c call step ⟨usual, other⟩
      obtain ⟨told, after⟩ := Store.inStep_answer usual.present usual.early step usual.proper other
      exact ⟨fun _ => told, after⟩
    exact ⟨told, ReportMap.tells_agree told (ReportMap.memory_tells calls)⟩

/-! ## Runs -/

/-- A report without paths, as of the default moment. -/
def blankReport (id : String) : Report := { id }

theorem first_moment : ∃ t : Moment, t.Ordinary ∧ t.text? = some "0001-01-01T00:00:00Z" :=
  ⟨{ year := 1, month := 1, day := 1 }, ⟨by decide, by decide, by decide⟩, by decide⟩

theorem proper_blank (id : String) : (blankReport id).Proper := Report.proper_bare first_moment

theorem usual_save (id : String) : (StoreCall.save (blankReport id)).Usual {} where
  present := rfl
  early := by decide
  proper := by
    rintro r ⟨⟩
    exact proper_blank id

theorem usual_other {call : StoreCall} (other : ∀ r, call ≠ .save r) : call.Usual {} where
  present := rfl
  early := by decide
  proper := fun r same => absurd same (other r)

def visit : List (Caller × StoreCall) :=
  [({}, .save (blankReport "a")), ({}, .load "a"), ({}, .delete "a"), ({}, .list)]

theorem visit_usual : ∀ x ∈ visit, x.2.Usual x.1 := by
  simp only [visit, List.forall_mem_cons]
  exact ⟨usual_save "a", usual_other (by simp), usual_other (by simp), usual_other (by simp), by simp⟩

theorem visited_server_is_map : ({} : Server).Vacant Indexed.defaultSpace ∧
    (∀ x ∈ visit, x.2.Usual x.1) ∧ (∀ x ∈ visit, x.2.id? ≠ some "index") ∧
    ((Store.onServer Indexed.defaultSpace).answers visit {})[1]? =
      some (.report (blankReport "a")) ∧
    List.Forall₂ StoreAnswer.Agrees ((Store.onServer Indexed.defaultSpace).answers visit {})
      (({} : Store).answers visit {}) := by
  have vacant : ({} : Server).Vacant Indexed.defaultSpace := ⟨rfl, fun _ => rfl⟩
  have others : ∀ x ∈ visit, x.2.id? ≠ some "index" := by decide
  obtain ⟨told, agree⟩ := (server_store_is_map (s := {}) vacant visit_usual).2 others
  have loaded : (ReportMap.empty.after (.save (blankReport "a"))).Answers (.load "a") _ :=
    told.2.1 trivial
  exact ⟨vacant, visit_usual, others, congrArg some loaded, agree⟩

/-- The report `a`, then calls that name the ID whose key is that of the set. -/
def intrusion : List (Caller × StoreCall) :=
  [({}, .save (blankReport "a")), ({}, .load "index"), ({}, .delete "index"), ({}, .list)]

theorem intrusion_usual : ∀ x ∈ intrusion, x.2.Usual x.1 := by
  simp only [intrusion, List.forall_mem_cons]
  exact ⟨usual_save "a", usual_other (by simp), usual_other (by simp), usual_other (by simp), by simp⟩

theorem list_absent {space : String} {s : Shelf} (up : s.server.outage = none)
    (absent : s.server.find? (Indexed.indexKey space) = none) :
    ((Store.onServer space).answer {} .list s).1 = .ids [] := by
  have none : s.server.members? (Indexed.indexKey space) = some [] := by
    rw [Server.members?, absent]
  have ran := Place.list_onServer (c := {}) space rfl up
  rw [none] at ran
  dsimp only at ran
  rw [List.filter_nil, List.mergeSort_nil] at ran
  exact congrArg Prod.fst (congrArg (StoreAnswer.ofResult fun ids => .ids (ids.getD [])) ran)

/-- There is no report under `index` and yet something is found; when it is deleted, no report is
listed any more. -/
theorem index_is_no_id : ({} : Server).Vacant Indexed.defaultSpace ∧
    (∀ x ∈ intrusion, x.2.Usual x.1) ∧
    (Store.onServer Indexed.defaultSpace).answers intrusion {} =
      [.done, .failed (.server .load .wrongKind), .done, .ids []] ∧
    ¬ ReportMap.Tells (fun _ => True) .empty (intrusion.map (·.2))
      ((Store.onServer Indexed.defaultSpace).answers intrusion {}) := by
  have ran : (Store.onServer Indexed.defaultSpace).answers intrusion {} =
      [.done, .failed (.server .load .wrongKind), .done, .ids []] := by
    simp only [intrusion, Store.answers]
    rw [list_absent rfl rfl]
    rfl
  refine ⟨⟨rfl, fun _ => rfl⟩, intrusion_usual, ran, fun told => ?_⟩
  rw [ran] at told
  have loaded : StoreAnswer.failed (.server .load .wrongKind) = .failed .notFound := told.2.1 trivial
  cases loaded

end StackFlow
