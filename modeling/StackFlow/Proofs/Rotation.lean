import StackFlow.Proofs.Bytes
import StackFlow.Proofs.Cipher
import StackFlow.Proofs.ServerStore

/-!
Keys in rotation. Stores that seal with different keys share a place. Under an ID lies an envelope of
the report that was saved last under it, and a ring opens it exactly if the key that sealed it is on the
ring. Main statement: `rotation_keeps_reports_readable`.
-/

namespace StackFlow

/-! ## Sealed reports -/

/-- A report that the active key of a ring has sealed under the nonce with a number. -/
structure Sealing where
  keys : Keyring
  number : Nat
  report : Report

namespace Sealing

def plain (x : Sealing) : Bytes := bytesOfText x.report.render

def bytes (x : Sealing) : Bytes :=
  x.keys.aead.encrypt x.keys.active (x.keys.nonce x.number) x.plain

def envelope (x : Sealing) : Report := x.keys.envelope x.number x.report

theorem id_envelope (x : Sealing) : x.envelope.id = x.report.id := rfl

/-- What is asked of the cipher. The sealed text is not empty, and of the keys of a ring the one that
sealed it gives back the plain text and the others give nothing. -/
structure Exact (x : Sealing) (k : Keyring) : Prop where
  sealed : x.bytes ≠ []
  opens : ∀ key ∈ k.keys,
    k.aead.decrypt? key x.bytes = if key = x.keys.active then some x.plain else none

variable {x : Sealing} {k : Keyring}

/-- The key that sealed a text opens it, so the other keys are all that is left to ask about. -/
theorem exact_xchacha (sealer : x.keys.aead = .xchacha) (opener : k.aead = .xchacha)
    (refuses : ∀ key ∈ k.keys, key ≠ x.keys.active → XChaCha.decrypt? key x.bytes = none) :
    x.Exact k := by
  have long : (x.keys.nonce x.number).length = 24 := by
    rw [Keyring.nonce, sealer]
    exact Poly1305.length_bytesOf 24 x.number
  have made : x.bytes = XChaCha.encrypt x.keys.active (x.keys.nonce x.number) x.plain := by
    rw [bytes, sealer]
    rfl
  have opened := XChaCha.decrypt?_encrypt long x.keys.active x.plain
  rw [← made] at opened
  refine ⟨fun empty => ?_, fun key member => ?_⟩
  · rw [empty] at opened
    cases opened
  · rw [opener]
    by_cases same : key = x.keys.active
    · rw [if_pos same, same]
      exact opened
    · rw [if_neg same]
      exact refuses key member same

theorem findSome?_only {keys : List Bytes} {f : Bytes → Option Bytes} {active plain : Bytes}
    (only : ∀ key ∈ keys, f key = if key = active then some plain else none) :
    keys.findSome? f = if active ∈ keys then some plain else none := by
  induction keys with
  | nil => rfl
  | cons key keys ih =>
    obtain ⟨here, others⟩ := List.forall_mem_cons.mp only
    rw [List.findSome?_cons, here]
    by_cases same : key = active
    · simp [same]
    · simp [same, Ne.symm same, ih others]

/-- A ring opens an envelope exactly if the key that sealed it is on the ring. -/
theorem unwrap_envelope (proper : x.report.Proper) (exact : x.Exact k) (id : String) :
    k.unwrap id x.envelope =
      if x.keys.active ∈ k.keys then .ok x.report else .error (.noKeyFits id) := by
  have text : x.envelope.sealed = Base64.encode x.bytes := rfl
  rw [Keyring.unwrap, text, Base64.isEmpty_encode exact.sealed, Base64.decode?_encode]
  simp only [Bool.false_eq_true, if_false, findSome?_only exact.opens]
  by_cases member : x.keys.active ∈ k.keys
  · simp only [if_pos member, plain, Utf8.decode_bytesOfText, Report.parse?_render proper]
  · simp only [if_neg member]

theorem proper_envelope (proper : x.report.Proper) : x.envelope.Proper :=
  Report.proper_bare proper.createdAt

end Sealing

/-! ## A place of reports -/

namespace Place

variable {place : Place} {m : ReportMap} {c : Caller} {s : Shelf}

/-- What is read at a place is what a map has. -/
def Holds (m : ReportMap) : Place → Shelf → Prop
  | memory, s => m.HeldInMemory s
  | server space, s => s.server.Texts space m

/-- Whether a place carries out the calls of a caller. On a server, the caller must not have given up. -/
def Serves (c : Caller) : Place → Prop
  | memory => True
  | server _ => c.canceled = false

/-- A place without reports. -/
def Vacant : Place → Shelf → Prop
  | memory, s => s.memory.entries = []
  | server space, s => s.server.Vacant space

theorem vacant_holds (vacant : place.Vacant s) : place.Holds .empty s := by
  cases place with
  | memory =>
    have none : s.memory.entries = [] := vacant
    exact ⟨fun id => by simp [Memory.load?, none, ReportMap.empty], by simp [Memory.ids, none],
      fun _ => none⟩
  | server space => exact (Server.vacant_inStep vacant).texts

theorem holds_answer {call : StoreCall} (served : place.Serves c)
    (proper : ∀ r, call = .save r → r.Proper) (held : place.Holds m s) :
    place.Holds (m.after call) ((⟨place, []⟩ : Store).answer c call s).2 := by
  cases place with
  | memory => exact (ReportMap.memory_step m s c call held).2
  | server space => exact Store.texts_answer served held proper

theorem load_held (served : place.Serves c) (held : place.Holds m s) (id : String) :
    ∃ e, place.load c id s = match m id with
      | some r => .ok r s
      | none => .error e s := by
  cases place with
  | memory =>
    have ran := load_memory c id s
    rw [held.same id] at ran
    exact ⟨.notFound, ran⟩
  | server space => exact ⟨_, load_onServer served held id⟩

theorem holds_drawn (held : place.Holds m s) (n : Nat) : place.Holds m { s with drawn := n } := by
  cases place with
  | memory => exact ⟨held.same, held.once, held.used⟩
  | server space => exact held

theorem drawn_onServer {α : Type} (a : Indexed.Action α) (shown : α → StoreAnswer) (s : Shelf) :
    (StoreAnswer.ofResult shown (onServer a s)).2.drawn = s.drawn := by
  rw [onServer]
  cases a s.server <;> rfl

/-- Only layers draw nonces. -/
theorem drawn_answer (place : Place) (c : Caller) (call : StoreCall) (s : Shelf) :
    ((⟨place, []⟩ : Store).answer c call s).2.drawn = s.drawn := by
  cases place with
  | memory =>
    cases call with
    | load id =>
      change (StoreAnswer.ofResult _ (memory.load c id s)).2.drawn = _
      rw [load_memory]
      cases s.memory.load? id <;> rfl
    | save | delete | list => rfl
  | server space =>
    cases call with
    | save | load | delete => exact drawn_onServer ..
    | list =>
      have same := drawn_onServer (Indexed.list space c.canceled c.now) .ids s
      change (StoreAnswer.ofResult _ ((server space).list c s)).2.drawn = _
      rw [list]
      rcases ran : onServer (Indexed.list space c.canceled c.now) s with ⟨ids, s'⟩ | ⟨e, s'⟩ <;>
        rw [ran] at same
      · rw [bind_ok _ ran]
        exact same
      · rw [bind_error _ ran]
        exact same

end Place

/-! ## A place behind rings of keys -/

namespace Store

variable {place : Place} {c : Caller} {s : Shelf} {k : Keyring}

def sealing (place : Place) (k : Keyring) : Store := ⟨place, [.sealing k]⟩

/-- What reaches the place shows the ID and the time of a report, and a sealed text. -/
theorem save_sealing (r : Report) : (sealing place k).save c r s =
    place.save c
      { id := r.id, createdAt := r.createdAt, sealed := (k.envelope s.drawn r).sealed }
      { s with drawn := s.drawn + 1 } := rfl

theorem load_sealing {r : Report} {id : String} (found : place.load c id s = .ok r s) :
    (sealing place k).load c id s = match k.unwrap id r with
      | .ok r => .ok r s
      | .error e => .error e s := by
  refine (bind_ok _ found).trans ?_
  cases k.unwrap id r <;> rfl

theorem load_sealing_error {e : StoreError} {id : String} (failed : place.load c id s = .error e s) :
    (sealing place k).load c id s = .error e s :=
  bind_error _ failed

theorem shelf_load_sealing {m : ReportMap} (served : place.Serves c) (held : place.Holds m s)
    (k : Keyring) (id : String) : ((sealing place k).answer c (.load id) s).2 = s := by
  obtain ⟨e, ran⟩ := Place.load_held served held id
  change (StoreAnswer.ofResult .report ((sealing place k).load c id s)).2 = s
  cases found : m id with
  | some r =>
    rw [found] at ran
    rw [load_sealing ran]
    cases k.unwrap id r <;> rfl
  | none =>
    rw [found] at ran
    rw [load_sealing_error ran]
    rfl

end Store

/-! ## Histories -/

/-- A call through a store that seals with the keys of a ring. -/
structure SealedCall where
  keys : Keyring
  caller : Caller := {}
  call : StoreCall

namespace SealedCall

/-- The shelf behind a call. -/
def run (place : Place) (s : Shelf) (x : SealedCall) : Shelf :=
  ((Store.sealing place x.keys).answer x.caller x.call s).2

structure Usual (place : Place) (x : SealedCall) : Prop where
  served : place.Serves x.caller
  proper : ∀ r, x.call = .save r → r.Proper

/-- The shelf behind a history. -/
def runs (place : Place) (calls : List SealedCall) (s : Shelf) : Shelf := calls.foldl (run place) s

end SealedCall

/-- Who sealed what: under each ID the report that was saved last and has not been deleted since, and
the number of nonces drawn. -/
structure Ledger where
  under : String → Option Sealing
  drawn : Nat

namespace Ledger

def blank (drawn : Nat) : Ledger := ⟨fun _ => none, drawn⟩

def after (l : Ledger) (x : SealedCall) : Ledger :=
  match x.call with
  | .save r =>
    { under := fun id => if id = r.id then some ⟨x.keys, l.drawn, r⟩ else l.under id
      drawn := l.drawn + 1 }
  | .delete other => { l with under := fun id => if id = other then none else l.under id }
  | .load _ | .list => l

/-- The ledger of a history. -/
def written (drawn : Nat) (calls : List SealedCall) : Ledger := calls.foldl after (blank drawn)

def envelopes (l : Ledger) : ReportMap := fun id => (l.under id).map Sealing.envelope

/-- What lies at a place are the envelopes of a ledger. -/
structure Kept (place : Place) (l : Ledger) (s : Shelf) : Prop where
  held : place.Holds l.envelopes s
  drawn : l.drawn = s.drawn
  proper : ∀ id x, l.under id = some x → x.report.Proper

variable {place : Place} {l : Ledger} {s : Shelf}

theorem kept_blank (vacant : place.Vacant s) : Kept place (blank s.drawn) s where
  held := Place.vacant_holds vacant
  drawn := rfl
  proper := fun _ _ none => by cases none

theorem envelopes_save (l : Ledger) (k : Keyring) (c : Caller) (r : Report) :
    (l.after ⟨k, c, .save r⟩).envelopes =
      l.envelopes.after (.save (Sealing.envelope ⟨k, l.drawn, r⟩)) := by
  funext id
  rw [ReportMap.after_save, envelopes, after, Sealing.id_envelope]
  by_cases same : id = r.id <;> simp [same, envelopes]

theorem envelopes_delete (l : Ledger) (k : Keyring) (c : Caller) (other : String) :
    (l.after ⟨k, c, .delete other⟩).envelopes = l.envelopes.after (.delete other) := by
  funext id
  rw [ReportMap.after_delete, envelopes, after]
  by_cases same : id = other <;> simp [same, envelopes]

theorem kept_save {k : Keyring} {c : Caller} {r : Report} (served : place.Serves c)
    (proper : r.Proper) (kept : Kept place l s) :
    Kept place (l.after ⟨k, c, .save r⟩) (SealedCall.run place s ⟨k, c, .save r⟩) := by
  let made : Sealing := ⟨k, l.drawn, r⟩
  have through : SealedCall.run place s ⟨k, c, .save r⟩ =
      ((⟨place, []⟩ : Store).answer c (.save made.envelope) { s with drawn := s.drawn + 1 }).2 := by
    rw [show made = ⟨k, s.drawn, r⟩ by rw [← kept.drawn]]
    rfl
  rw [through]
  refine ⟨?_, ?_, ?_⟩
  · rw [envelopes_save]
    refine Place.holds_answer served ?_ (Place.holds_drawn kept.held (s.drawn + 1))
    rintro _ ⟨⟩
    exact Sealing.proper_envelope proper
  · rw [Place.drawn_answer, ← kept.drawn]
    rfl
  · intro id x under
    have found : (if id = r.id then some made else l.under id) = some x := under
    split at found
    · cases found
      exact proper
    · exact kept.proper id x found

/-- A store that seals does to the place what a call does there, with envelopes in place of reports. -/
theorem kept_run {x : SealedCall} (usual : x.Usual place) (kept : Kept place l s) :
    Kept place (l.after x) (x.run place s) := by
  obtain ⟨k, c, call⟩ := x
  cases call with
  | save r => exact kept_save usual.served (usual.proper r rfl) kept
  | load id =>
    rw [SealedCall.run, Store.shelf_load_sealing usual.served kept.held k id]
    exact kept
  | delete other =>
    refine ⟨?_, kept.drawn.trans (Place.drawn_answer place c (.delete other) s).symm, ?_⟩
    · rw [envelopes_delete]
      exact Place.holds_answer usual.served (fun r same => by cases same) kept.held
    · intro id x under
      have found : (if id = other then none else l.under id) = some x := under
      split at found
      · cases found
      · exact kept.proper id x found
  | list =>
    have held : place.Holds (l.envelopes.after .list) _ :=
      Place.holds_answer usual.served (fun r same => by cases same) kept.held
    exact ⟨held, kept.drawn.trans (Place.drawn_answer place c .list s).symm, kept.proper⟩

theorem kept_foldl {calls : List SealedCall} (usual : ∀ x ∈ calls, x.Usual place)
    (kept : Kept place l s) :
    Kept place (calls.foldl after l) (calls.foldl (SealedCall.run place) s) := by
  induction calls generalizing l s with
  | nil => exact kept
  | cons x calls ih =>
    obtain ⟨first, others⟩ := List.forall_mem_cons.mp usual
    exact ih others (kept_run first kept)

theorem kept_written {calls : List SealedCall} (vacant : place.Vacant s)
    (usual : ∀ x ∈ calls, x.Usual place) :
    Kept place (written s.drawn calls) (SealedCall.runs place calls s) :=
  kept_foldl usual (kept_blank vacant)

/-- The answer to a load through a ring is told by the ledger. -/
theorem answer_load {c : Caller} {k : Keyring} {id : String} (served : place.Serves c)
    (kept : Kept place l s) (exact : ∀ x, l.under id = some x → x.Exact k) :
    ∃ e, ((Store.sealing place k).answer c (.load id) s).1 = match l.under id with
      | some x => if x.keys.active ∈ k.keys then .report x.report else .failed (.noKeyFits id)
      | none => .failed e := by
  obtain ⟨e, ran⟩ := Place.load_held served kept.held id
  refine ⟨e, ?_⟩
  change (StoreAnswer.ofResult .report ((Store.sealing place k).load c id s)).1 = _
  rw [envelopes] at ran
  cases found : l.under id with
  | some x =>
    rw [found] at ran
    rw [Store.load_sealing ran, x.unwrap_envelope (kept.proper id x found) (exact x found)]
    by_cases member : x.keys.active ∈ k.keys <;> simp [member, StoreAnswer.ofResult]
  | none =>
    rw [found] at ran
    rw [Store.load_sealing_error ran]
    rfl

end Ledger

/-! ## Main statement -/

/-- After any calls through any rings over one place, what is read through a ring under an ID is the
report that was saved last under it and not deleted since, if the key that sealed it is on the ring, and
nothing otherwise. The place sees no more of a report than its ID, its time and a sealed text. -/
theorem rotation_keeps_reports_readable {place : Place} {s : Shelf} (vacant : place.Vacant s)
    {calls : List SealedCall} (usual : ∀ x ∈ calls, x.Usual place) {c : Caller}
    (served : place.Serves c) {k : Keyring} {id : String}
    (exact : ∀ x, (Ledger.written s.drawn calls).under id = some x → x.Exact k) :
    let found := ((Store.sealing place k).answer c (.load id) (SealedCall.runs place calls s)).1
    (∀ r, found = .report r ↔ ∃ x, (Ledger.written s.drawn calls).under id = some x ∧
        x.report = r ∧ x.keys.active ∈ k.keys) ∧
      ((∀ r, found ≠ .report r) → ∃ e, found = .failed e) ∧
      ∀ (ring : Keyring) (caller : Caller) (r : Report) (shelf : Shelf),
        (Store.sealing place ring).save caller r shelf = place.save caller
          { id := r.id, createdAt := r.createdAt, sealed := (ring.envelope shelf.drawn r).sealed }
          { shelf with drawn := shelf.drawn + 1 } := by
  intro found
  obtain ⟨e, told⟩ := Ledger.answer_load served (Ledger.kept_written vacant usual) exact
  change found = _ at told
  refine ⟨?_, ?_, fun ring caller r shelf => Store.save_sealing r⟩
  · intro r
    rw [told]
    cases under : (Ledger.written s.drawn calls).under id with
    | none => simp
    | some x => by_cases member : x.keys.active ∈ k.keys <;> simp [member]
  · rw [told]
    cases under : (Ledger.written s.drawn calls).under id with
    | none => exact fun _ => ⟨e, rfl⟩
    | some x =>
      by_cases member : x.keys.active ∈ k.keys
      · exact fun other => absurd (if_pos member) (other x.report)
      · exact fun _ => ⟨.noKeyFits id, if_neg member⟩

/-! ## A run -/

def firstKey : Bytes := List.replicate 32 0

def secondKey : Bytes := List.replicate 32 1

/-- The report `a`, sealed with the first key. -/
def turnover : List SealedCall :=
  [{ keys := { active := firstKey }, call := .save (blankReport "a") }]

theorem turnover_usual : ∀ x ∈ turnover, x.Usual .memory := by
  rw [turnover, List.forall_mem_singleton]
  exact ⟨trivial, fun r same => by cases same; exact proper_blank "a"⟩

theorem turnover_under : (Ledger.written 0 turnover).under "a" =
    some ⟨{ active := firstKey }, 0, blankReport "a"⟩ := rfl

theorem second_refuses : XChaCha.decrypt? secondKey
    (Sealing.bytes ⟨{ active := firstKey }, 0, blankReport "a"⟩) = none := by
  decide +kernel

theorem turnover_exact {k : Keyring} (opener : k.aead = .xchacha)
    (keys : ∀ key ∈ k.keys, key = secondKey ∨ key = firstKey) :
    ∀ x, (Ledger.written 0 turnover).under "a" = some x → x.Exact k := by
  intro x under
  cases turnover_under.symm.trans under
  refine Sealing.exact_xchacha rfl opener fun key member other => ?_
  obtain rfl | rfl := keys key member
  · exact second_refuses
  · exact absurd rfl other

/-- The second key alone does not read what was sealed with the first one; with the first one behind
it, it does. -/
theorem old_key_reads : Place.memory.Vacant {} ∧ (∀ x ∈ turnover, x.Usual .memory) ∧
    Place.memory.Serves {} ∧
    ((Store.sealing .memory { active := secondKey, fallbacks := [firstKey] }).answer {} (.load "a")
      (SealedCall.runs .memory turnover {})).1 = .report (blankReport "a") ∧
    ∃ e, ((Store.sealing .memory { active := secondKey }).answer {} (.load "a")
      (SealedCall.runs .memory turnover {})).1 = .failed e := by
  have vacant : Place.memory.Vacant {} := rfl
  refine ⟨vacant, turnover_usual, trivial, ?_, ?_⟩
  · have both := turnover_exact (k := { active := secondKey, fallbacks := [firstKey] }) rfl
      (by simp [Keyring.keys])
    have read := (rotation_keeps_reports_readable (s := {}) (c := {}) vacant turnover_usual trivial both).1
    exact (read _).mpr ⟨_, turnover_under, rfl, by simp [Keyring.keys]⟩
  · have alone := turnover_exact (k := { active := secondKey }) rfl (by simp [Keyring.keys])
    obtain ⟨read, failed, _⟩ :=
      rotation_keeps_reports_readable (s := {}) (c := {}) vacant turnover_usual trivial alone
    refine failed fun r found => ?_
    obtain ⟨x, under, _, member⟩ := (read r).mp found
    cases turnover_under.symm.trans under
    have apart : firstKey ≠ secondKey := by decide
    exact apart (List.mem_singleton.mp member)

end StackFlow
