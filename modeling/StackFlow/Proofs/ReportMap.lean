import Mathlib.Data.List.Nodup
import StackFlow.Proofs.Turns
import StackFlow.Store.Basic

/-!
Report stores as maps from IDs to reports. A store that is in step with a map, call by call, gives the
answers of the map to every sequence of calls. The memory store is one.
-/

namespace StackFlow

/-! ## Calls and answers -/

inductive StoreCall where
  | save (r : Report)
  | load (id : String)
  | delete (id : String)
  | list

namespace StoreCall

/-- The ID that a call names. -/
def id? : StoreCall → Option String
  | save r => some r.id
  | load id | delete id => some id
  | list => none

end StoreCall

inductive StoreAnswer where
  | done
  | report (r : Report)
  | ids (ids : List String)
  | failed (e : StoreError)

namespace StoreAnswer

def ofResult {α : Type} (shown : α → StoreAnswer) :
    EStateM.Result StoreError Shelf α → StoreAnswer × Shelf
  | .ok x s => (shown x, s)
  | .error e s => (failed e, s)

/-- Whether two answers are the same up to the order of a list. -/
def Agrees : StoreAnswer → StoreAnswer → Prop
  | ids xs, ids ys => xs.Perm ys
  | a, b => a = b

end StoreAnswer

namespace Store

/-- The answer to a call, and what is on the shelf behind it. -/
def answer (st : Store) (c : Caller) : StoreCall → Shelf → StoreAnswer × Shelf
  | .save r, s => StoreAnswer.ofResult (fun _ => .done) (st.save c r s)
  | .load id, s => StoreAnswer.ofResult .report (st.load c id s)
  | .delete id, s => StoreAnswer.ofResult (fun _ => .done) (st.delete c id s)
  | .list, s => StoreAnswer.ofResult (fun ids => .ids (ids.getD [])) (st.list c s)

def answers (st : Store) : List (Caller × StoreCall) → Shelf → List StoreAnswer
  | [], _ => []
  | (c, call) :: rest, s => (st.answer c call s).1 :: st.answers rest (st.answer c call s).2

end Store

/-! ## Maps -/

/-- The report under each ID. -/
abbrev ReportMap := String → Option Report

namespace ReportMap

def empty : ReportMap := fun _ => none

def after (m : ReportMap) : StoreCall → ReportMap
  | .save r => fun id => if id = r.id then some r else m id
  | .delete other => fun id => if id = other then none else m id
  | .load _ | .list => m

theorem after_save (m : ReportMap) (r : Report) (id : String) :
    m.after (.save r) id = if id = r.id then some r else m id := rfl

theorem after_delete (m : ReportMap) (other id : String) :
    m.after (.delete other) id = if id = other then none else m id := rfl

/-- Whether an answer to a call is that of the map. -/
def Answers (m : ReportMap) : StoreCall → StoreAnswer → Prop
  | .save _, a | .delete _, a => a = .done
  | .load id, a => a = match m id with
    | some r => .report r
    | none => .failed .notFound
  | .list, a => ∃ ids, a = .ids ids ∧ ids.Nodup ∧ ∀ id, id ∈ ids ↔ (m id).isSome

/-- Whether the answers to some calls out of a list of them are those of the map. -/
def Tells (watched : StoreCall → Prop) : ReportMap → List StoreCall → List StoreAnswer → Prop
  | _, [], [] => True
  | m, call :: calls, a :: as =>
    (watched call → m.Answers call a) ∧ Tells watched (m.after call) calls as
  | _, _, _ => False

variable {m : ReportMap} {watched : StoreCall → Prop}

theorem answers_agree {call : StoreCall} {a b : StoreAnswer} (first : m.Answers call a)
    (second : m.Answers call b) : a.Agrees b := by
  cases call with
  | save | delete =>
    rw [show a = .done from first, show b = .done from second]
    rfl
  | load id =>
    rw [show a = _ from first, show b = _ from second]
    cases m id <;> rfl
  | list =>
    obtain ⟨xs, rfl, once, listed⟩ := first
    obtain ⟨ys, rfl, once', listed'⟩ := second
    exact (List.perm_ext_iff_of_nodup once once').mpr fun id => (listed id).trans (listed' id).symm

/-- Two stores that both tell what is in the map agree. -/
theorem tells_agree {calls : List StoreCall} {as bs : List StoreAnswer}
    (first : Tells (fun _ => True) m calls as) (second : Tells (fun _ => True) m calls bs) :
    List.Forall₂ StoreAnswer.Agrees as bs := by
  induction calls generalizing m as bs with
  | nil =>
    cases as with
    | nil =>
      cases bs with
      | nil => exact .nil
      | cons => exact second.elim
    | cons => exact first.elim
  | cons call calls ih =>
    cases as with
    | nil => exact first.elim
    | cons a as =>
      cases bs with
      | nil => exact second.elim
      | cons b bs =>
        exact .cons (answers_agree (first.1 trivial) (second.1 trivial)) (ih first.2 second.2)

/-- What a store keeps in step with the map, call by call, it tells in the end. -/
theorem tells_of_step {st : Store} (keeps : ReportMap → Shelf → Prop)
    (allowed : Caller × StoreCall → Prop)
    (step : ∀ m s c call, keeps m s → allowed (c, call) →
      (watched call → m.Answers call (st.answer c call s).1) ∧
        keeps (m.after call) (st.answer c call s).2)
    {calls : List (Caller × StoreCall)} {s : Shelf} (all : ∀ x ∈ calls, allowed x)
    (kept : keeps m s) : Tells watched m (calls.map (·.2)) (st.answers calls s) := by
  induction calls generalizing m s with
  | nil => trivial
  | cons x calls ih =>
    obtain ⟨told, after⟩ := step m s x.1 x.2 kept (all x List.mem_cons_self)
    exact ⟨told, ih (fun y member => all y (List.mem_cons_of_mem x member)) after⟩

/-! ## Reports in memory -/

/-- A memory that holds the reports of a map. -/
structure HeldInMemory (m : ReportMap) (s : Shelf) : Prop where
  same : ∀ id, s.memory.load? id = m id
  once : s.memory.ids.Nodup
  used : s.memory.used = false → s.memory.entries = []

theorem mem_ids {memory : Memory} {id : String} : id ∈ memory.ids ↔ (memory.load? id).isSome := by
  rw [Memory.load?, List.lookup_isSome_iff]
  simp only [Memory.ids, List.mem_map, beq_iff_eq]
  exact ⟨fun ⟨e, member, same⟩ => ⟨e, member, same.symm⟩,
    fun ⟨e, member, same⟩ => ⟨e, member, same.symm⟩⟩

theorem ids_save (memory : Memory) (r : Report) : (memory.save r).ids =
    if memory.entries.any (·.1 == r.id) then memory.ids else memory.ids ++ [r.id] := by
  unfold Memory.ids Memory.save
  dsimp only
  split
  · rw [List.map_map]
    refine List.map_congr_left fun e _ => ?_
    by_cases same : e.1 = r.id <;> simp [same]
  · rw [List.map_append, List.map_singleton]

theorem nodup_save {memory : Memory} (r : Report) (once : memory.ids.Nodup) :
    (memory.save r).ids.Nodup := by
  rw [ids_save]
  split
  · exact once
  · rename_i absent
    refine List.nodup_append.mpr ⟨once, List.nodup_singleton r.id, ?_⟩
    rintro id member _ new rfl
    obtain ⟨e, there, same⟩ := List.mem_map.mp member
    rw [List.mem_singleton] at new
    exact absent (List.any_eq_true.mpr ⟨e, there, by simp [same, new]⟩)

theorem memory_step (m : ReportMap) (s : Shelf) (c : Caller) (call : StoreCall)
    (held : HeldInMemory m s) :
    m.Answers call (({} : Store).answer c call s).1 ∧
      HeldInMemory (m.after call) (({} : Store).answer c call s).2 := by
  cases call with
  | save r =>
    refine ⟨rfl, ?_, nodup_save r held.once, fun unused => by cases unused⟩
    intro id
    change (s.memory.save r).load? id = if id = r.id then some r else m id
    rw [Memory.load?_save, held.same id]
  | load id =>
    have loaded := load_memory c id s
    have ran : ({} : Store).answer c (.load id) s =
        StoreAnswer.ofResult .report (Place.memory.load c id s) := rfl
    rw [ran, loaded, held.same id, Answers]
    cases m id <;> exact ⟨rfl, held⟩
  | delete other =>
    refine ⟨rfl, ?_, ?_, ?_⟩
    · intro id
      change (s.memory.delete other).load? id = if id = other then none else m id
      rw [Memory.load?_delete, held.same id]
    · exact (List.filter_sublist.map _).nodup held.once
    · intro unused
      change s.memory.entries.filter _ = []
      rw [held.used unused, List.filter_nil]
  | list =>
    refine ⟨⟨s.memory.ids, ?_, held.once, fun id => by rw [mem_ids, held.same id]⟩, held⟩
    change StoreAnswer.ids (s.memory.list.getD []) = _
    unfold Memory.list
    split
    · rfl
    · rename_i unused
      simp [Memory.ids, held.used (by simpa using unused)]

/-- A memory store is a map from the start. -/
theorem memory_tells (calls : List (Caller × StoreCall)) :
    Tells (fun _ => True) empty (calls.map (·.2)) (({} : Store).answers calls {}) :=
  tells_of_step HeldInMemory (fun _ => True)
    (fun m s c call held _ => ⟨fun _ => (memory_step m s c call held).1, (memory_step m s c call held).2⟩)
    (fun _ _ => trivial) ⟨fun _ => rfl, List.nodup_nil, fun _ => rfl⟩

end ReportMap

end StackFlow
