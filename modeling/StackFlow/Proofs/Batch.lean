import StackFlow.Batch
import StackFlow.Proofs.LeaseReturn

/-!
What a batch keeps, whichever of its calls take steps. No more calls are in flight than the limit
allows; the first error stands; a batch that is done has a report for each contract, or the error of
one. From the first error on the calls find their caller gone, and leave on the server what leases
they have.
-/

namespace StackFlow

/-! ## Calls that serve -/

/-- What is left to do for a report. -/
def Task.Serves : Task → Prop
  | .serve _ | .analyze _ | .keep _ => True
  | _ => False

def Outcome.Serves : Outcome → Prop
  | .ok (.report ..) | .error _ => True
  | _ => False

def Stage.AtService : Stage → Prop
  | .fresh t | .waiting _ t | .locked _ t | .working _ _ t => t.Serves
  | .ending _ _ o | .unlocking _ o | .leaving o | .returned o => Outcome.Serves o

namespace Manager

variable {m : Manager} {c : Caller}

theorem work_serves {id : String} {t : Task} (serves : t.Serves) :
    (∃ t', (m.work c id t).1 = .inl t' ∧ t'.Serves) ∨
      ∃ o, (m.work c id t).1 = .inr o ∧ Outcome.Serves o := by
  cases t with
  | load | delete => cases serves
  | serve contract =>
    rcases done : m.onShelf (m.store.load c id) with ⟨x, m'⟩
    simp only [work, done]
    split
    · exact .inr ⟨_, rfl, trivial⟩
    · exact .inl ⟨_, rfl, trivial⟩
    · exact .inr ⟨_, rfl, trivial⟩
  | analyze contract =>
    unfold work
    dsimp only
    split
    · exact .inr ⟨_, rfl, trivial⟩
    · split
      · exact .inr ⟨_, rfl, trivial⟩
      · exact .inl ⟨_, rfl, trivial⟩
  | keep r =>
    rcases done : m.onShelf (m.store.save c r) with ⟨x, m'⟩
    simp only [work, done]
    split
    · exact .inr ⟨_, rfl, trivial⟩
    · exact .inr ⟨_, rfl, trivial⟩

theorem step_atService {call : Call} (serves : call.stage.AtService) :
    (m.step c call).1.stage.AtService := by
  obtain ⟨id, stage⟩ := call
  cases stage with
  | waiting serial t =>
    cases locked : m.locks.lock? serial <;> simpa [step, locked, Stage.AtService] using serves
  | locked serial t =>
    rcases asked : m.requestLease c id with ⟨_ | (e | token), m'⟩
    · cases gone : c.canceled
      · simpa [step, asked, gone, Stage.AtService] using serves
      · simp [step, asked, gone, Stage.AtService, Outcome.Serves]
    · simp [step, asked, Stage.AtService, Outcome.Serves]
    · simpa [step, asked, Stage.AtService] using serves
  | working serial token t =>
    rcases worked : m.work c id t with ⟨left, m'⟩
    rcases work_serves (m := m) (c := c) (t := t) serves with
      ⟨t', same, serves'⟩ | ⟨o, same, serves'⟩
    all_goals
      rw [worked] at same
      cases same
      simpa [step, worked, Stage.AtService] using serves'
  | _ => exact serves

end Manager

/-! ## Errands -/

namespace Errand

variable {e : Errand} {m : Manager} {c : Caller} {o : Outcome}

/-- Whether the call has begun and not returned. -/
def inFlight (e : Errand) : Bool :=
  match e.call.stage with
  | .fresh _ | .returned _ => false
  | _ => true

theorem open_of_inFlight (flies : e.inFlight = true) : e.outcome?.isNone = true := by
  unfold inFlight at flies
  unfold outcome?
  split at flies <;> simp_all

/-- The errand behind a step of its call. -/
def next (e : Errand) (m : Manager) (c : Caller) : Errand := { e with call := (m.step c e.call).1 }

theorem next_returned (returned : e.outcome? = some o) : (e.next m c).outcome? = some o := by
  obtain ⟨name, id, stage⟩ := e
  cases stage with
  | returned o' => exact returned
  | _ => cases returned

theorem next_open (left : (e.next m c).outcome?.isNone = true) : e.outcome?.isNone = true := by
  cases outcome : e.outcome? with
  | none => rfl
  | some o =>
    rw [next_returned outcome] at left
    cases left

end Errand

namespace Batch

variable {b b' : Batch} {c : Caller} {k : Nat} {e : Errand}

/-! ## Steps -/

inductive Step : Batch → Batch → Prop where
  | move {b : Batch} (c : Caller) (k : Nat) : Step b (b.move c k)

def Runs : Batch → Batch → Prop := Relation.ReflTransGen Step

/-- A step moves nothing, or one errand that may be moved. -/
theorem move_cases (b : Batch) (c : Caller) (k : Nat) : b.move c k = b ∨
    ∃ e, b.errands[k]? = some e ∧ b.admits k = true ∧ b.move c k =
      { b with
        manager := (b.manager.step (b.caller c) e.call).2
        errands := b.errands.set k (e.next b.manager (b.caller c))
        error := b.error.or <| match (e.next b.manager (b.caller c)).outcome? with
          | some (.error cause) => some (e.name, cause)
          | _ => none } := by
  unfold move
  cases found : b.errands[k]? with
  | none => exact .inl rfl
  | some e =>
    cases admitted : b.admits k with
    | false => exact .inl rfl
    | true => exact .inr ⟨e, rfl, rfl, rfl⟩

theorem error_move {first : String × ManagerError} (failed : b.error = some first) :
    (b.move c k).error = some first := by
  rcases move_cases b c k with same | ⟨e, _, _, moved⟩
  · rw [same]
    exact failed
  · rw [moved]
    dsimp only
    rw [failed, Option.some_or]

/-- The executable run is one of those in which the calls move as they like. -/
theorem runs_run (b : Batch) (c : Caller) (fuel : Nat) : b.Runs (b.run c fuel) := by
  have turn (ks : List Nat) (b : Batch) : b.Runs (ks.foldl (fun b k => b.move c k) b) := by
    induction ks generalizing b with
    | nil => exact .refl
    | cons k ks ih => exact .head (.move c k) (ih (b.move c k))
  induction fuel generalizing b with
  | zero => exact .refl
  | succ fuel ih =>
    unfold run
    split
    · exact .refl
    · exact (turn _ b).trans (ih _)

/-! ## The limit -/

def inFlight (b : Batch) : Nat := b.errands.countP Errand.inFlight

theorem countP_set_le {α : Type} {p : α → Bool} {l : List α} {k : Nat} {a a' : α}
    (here : l[k]? = some a) (fewer : p a' = true → p a = true) :
    (l.set k a').countP p ≤ l.countP p := by
  have replaced := countP_replaced p a' here
  cases new : p a' with
  | false =>
    rw [new] at replaced
    simp only [Bool.false_eq_true, if_false] at replaced
    omega
  | true =>
    rw [new, fewer new] at replaced
    omega

/-- The last of those that are counted comes behind all others. -/
theorem countP_last {α : Type} {p : α → Bool} {l : List α} (counted : 0 < l.countP p) :
    ∃ k a, l[k]? = some a ∧ p a = true ∧ l.countP p = (l.take k).countP p + 1 := by
  induction l with
  | nil => cases counted
  | cons x l ih =>
    by_cases more : 0 < l.countP p
    · obtain ⟨k, a, here, holds, count⟩ := ih more
      refine ⟨k + 1, a, here, holds, ?_⟩
      rw [List.countP_cons, List.take_succ_cons, List.countP_cons, count]
      omega
    · have none : l.countP p = 0 := by omega
      cases own : p x with
      | false => simp [own, none] at counted
      | true => exact ⟨0, x, rfl, own, by simp [own, none]⟩

theorem admits_iff : b.admits k = true ↔ b.limit ≤ 0 ∨
    ((b.errands.take k).countP fun e => e.outcome?.isNone : Int) < b.limit := by
  simp [admits]

/-- What holds of a batch on its way. -/
structure Kept (b : Batch) : Prop where
  admitted : ∀ k e, b.errands[k]? = some e → e.inFlight = true → b.admits k = true
  atService : ∀ e ∈ b.errands, e.call.stage.AtService
  /-- The error is that of an errand. -/
  blamed : ∀ name cause, b.error = some (name, cause) →
    ∃ e ∈ b.errands, e.name = name ∧ e.outcome? = some (.error cause)
  noted : ∀ e ∈ b.errands, ∀ cause, e.outcome? = some (.error cause) → b.error.isSome

theorem kept_start (m : Manager) (limit : Int) (cs : List Contract) : (start m limit cs).Kept where
  admitted k e here flies := by
    obtain ⟨x, _, rfl⟩ := List.mem_map.mp (List.mem_of_getElem? here)
    cases flies
  atService e member := by
    obtain ⟨x, _, rfl⟩ := List.mem_map.mp member
    trivial
  blamed name cause failed := by cases failed
  noted e member cause failed := by
    obtain ⟨x, _, rfl⟩ := List.mem_map.mp member
    cases failed

theorem mem_move (c : Caller) {e' : Errand} (member : e' ∈ (b.move c k).errands) :
    e' ∈ b.errands ∨ ∃ e ∈ b.errands, e' = e.next b.manager (b.caller c) := by
  rcases move_cases b c k with same | ⟨e, here, _, moved⟩
  · rw [same] at member
    exact .inl member
  · rw [moved] at member
    rcases List.mem_or_eq_of_mem_set member with old | new
    · exact .inl old
    · exact .inr ⟨e, List.mem_of_getElem? here, new⟩

/-- A call that may be in flight may be so from then on. -/
theorem admits_move (c : Caller) {j : Nat} (before : b.admits j = true) :
    (b.move c k).admits j = true := by
  rcases move_cases b c k with same | ⟨e, here, _, moved⟩
  · rw [same]
    exact before
  · rw [admits_iff] at before ⊢
    rw [moved]
    refine before.imp id fun fits => ?_
    dsimp only
    rw [List.take_set]
    by_cases inside : k < j
    · have here' : (b.errands.take j)[k]? = some e := by
        rw [List.getElem?_take_of_lt inside, here]
      have fewer := countP_set_le (p := fun e => e.outcome?.isNone) here'
        (Errand.next_open (m := b.manager) (c := b.caller c))
      omega
    · rw [List.set_eq_of_length_le (by rw [List.length_take]; omega)]
      exact fits

/-- What a call has returned stands. -/
theorem returned_move (c : Caller) {o : Outcome} (member : e ∈ b.errands)
    (returned : e.outcome? = some o) :
    ∃ e' ∈ (b.move c k).errands, e'.name = e.name ∧ e'.outcome? = some o := by
  rcases move_cases b c k with same | ⟨e₀, here, _, moved⟩
  · rw [same]
    exact ⟨e, member, rfl, returned⟩
  · obtain ⟨j, at_j⟩ := List.getElem?_of_mem member
    rw [moved]
    by_cases own : j = k
    · subst own
      cases here.symm.trans at_j
      exact ⟨_, List.mem_set (List.getElem?_eq_some_iff.mp here).1 _, rfl,
        Errand.next_returned returned⟩
    · exact ⟨e, List.mem_of_getElem? ((getElem?_replaced here).mpr (.inr ⟨own, at_j⟩)), rfl,
        returned⟩

theorem kept_move (kept : b.Kept) (c : Caller) (k : Nat) : (b.move c k).Kept := by
  constructor
  · intro j e' at_j flies
    refine admits_move c ?_
    rcases move_cases b c k with same | ⟨e, here, admitted, moved⟩
    · rw [same] at at_j
      exact kept.admitted j e' at_j flies
    · rw [moved] at at_j
      rcases (getElem?_replaced here).mp at_j with ⟨rfl, _⟩ | ⟨_, old⟩
      · exact admitted
      · exact kept.admitted j e' old flies
  · intro e' member
    rcases mem_move c member with old | ⟨e, among, rfl⟩
    · exact kept.atService e' old
    · exact Manager.step_atService (kept.atService e among)
  · intro name cause failed
    cases before : b.error with
    | some first =>
      have stands : (b.move c k).error = some first := error_move before
      cases stands.symm.trans failed
      obtain ⟨e, among, named, returned⟩ := kept.blamed name cause before
      obtain ⟨e', member, same, returned'⟩ := returned_move c among returned
      exact ⟨e', member, same.trans named, returned'⟩
    | none =>
      rcases move_cases b c k with same | ⟨e, here, _, moved⟩
      · rw [same, before] at failed
        cases failed
      · rw [moved] at failed ⊢
        dsimp only at failed
        rw [before, Option.none_or] at failed
        split at failed
        · rename_i outcome
          cases failed
          exact ⟨_, List.mem_set (List.getElem?_eq_some_iff.mp here).1 _, rfl, outcome⟩
        · cases failed
  · intro e' member cause failed
    rcases move_cases b c k with same | ⟨e, _, _, moved⟩
    · rw [same] at member ⊢
      exact kept.noted e' member cause failed
    · rw [moved] at member ⊢
      dsimp only at member ⊢
      rcases List.mem_or_eq_of_mem_set member with old | rfl
      · rw [Option.isSome_or, kept.noted e' old cause failed, Bool.true_or]
      · rw [failed, Option.isSome_or, Option.isSome_some, Bool.or_true]

theorem kept_runs (kept : b.Kept) (run : b.Runs b') : b'.Kept := by
  induction run with
  | refl => exact kept
  | tail _ step ih =>
    cases step with
    | move c k => exact kept_move ih c k

/-- No more calls are in flight than may be. -/
theorem inFlight_le (kept : b.Kept) (positive : 0 < b.limit) : (b.inFlight : Int) ≤ b.limit := by
  by_cases some : 0 < b.inFlight
  · obtain ⟨k, e, here, flies, count⟩ := countP_last some
    have fits := (admits_iff.mp (kept.admitted k e here flies)).resolve_left (by omega)
    have fewer : (b.errands.take k).countP Errand.inFlight ≤
        (b.errands.take k).countP fun e => e.outcome?.isNone :=
      List.countP_mono_left fun e _ flies => Errand.open_of_inFlight flies
    rw [inFlight, count]
    omega
  · omega

/-! ## The first error -/

theorem error_stands {first : String × ManagerError} (failed : b.error = some first)
    (run : b.Runs b') : b'.error = some first := by
  induction run with
  | refl => exact failed
  | tail _ step ih =>
    cases step with
    | move c k => exact error_move ih

theorem runs_settings (run : b.Runs b') : b'.limit = b.limit ∧
    b'.errands.map Errand.name = b.errands.map Errand.name ∧
    b'.manager.locker = b.manager.locker := by
  induction run with
  | refl => exact ⟨rfl, rfl, rfl⟩
  | tail _ step ih =>
    cases step with
    | move c k =>
      rcases move_cases _ c k with same | ⟨e, here, _, moved⟩
      · rw [same]
        exact ih
      · rw [moved]
        refine ⟨ih.1, ?_, (Manager.step_locker e.call).trans ih.2.2⟩
        rw [← ih.2.1]
        obtain ⟨bound, rfl⟩ := List.getElem?_eq_some_iff.mp here
        rw [List.map_set]
        apply List.ext_getElem?
        intro j
        rw [List.getElem?_set]
        split
        · rename_i same
          subst same
          simp [bound, Errand.next]
        · rfl

/-- A batch that is done without an error has a report for each of its contracts. -/
theorem reports_whole (kept : b.Kept) (done : b.isDone = true) (clear : b.error = none) :
    List.Forall₂ (fun e r => ∃ cached, e.outcome? = some (.ok (.report r cached)))
      b.errands b.reports := by
  have each : ∀ e ∈ b.errands, ∃ r cached, e.outcome? = some (.ok (.report r cached)) := by
    intro e member
    have serves := kept.atService e member
    have returned := List.all_eq_true.mp done e member
    cases outcome : e.outcome? with
    | none =>
      rw [outcome] at returned
      cases returned
    | some o =>
      match o with
      | .error cause =>
        have failed := kept.noted e member cause outcome
        rw [clear] at failed
        cases failed
      | .ok (.report r cached) => exact ⟨r, cached, rfl⟩
      | .ok .done =>
        unfold Errand.outcome? at outcome
        split at outcome
        · rename_i o stage
          cases outcome
          rw [stage] at serves
          cases serves
        · cases outcome
  unfold reports
  generalize b.errands = es at each
  induction es with
  | nil => exact .nil
  | cons e es ih =>
    obtain ⟨r, cached, outcome⟩ := each e List.mem_cons_self
    simp only [List.filterMap_cons, outcome]
    exact .cons ⟨cached, outcome⟩ (ih fun e' member => each e' (List.mem_cons_of_mem e member))

/-- However the calls of a batch interleave: their number in flight stays within the limit, the first
error stands, and a batch that is done has a report for each contract in order or the error of one. -/
theorem batch_settles {m : Manager} {limit : Int} {cs : List Contract}
    (run : (start m limit cs).Runs b) :
    b.errands.map Errand.name = cs.map Contract.name ∧
    (0 < limit → (b.inFlight : Int) ≤ limit) ∧
    (∀ first, b.error = some first → ∀ b', b.Runs b' → b'.error = some first) ∧
    (∀ rs, b.outcome? = some (.ok rs) →
      List.Forall₂ (fun e r => ∃ cached, e.outcome? = some (.ok (.report r cached))) b.errands rs) ∧
    ∀ name cause, b.outcome? = some (.error (name, cause)) →
      ∃ e ∈ b.errands, e.name = name ∧ e.outcome? = some (.error cause) := by
  have kept := kept_runs (kept_start m limit cs) run
  obtain ⟨same, names, _⟩ := runs_settings run
  refine ⟨by simpa [start, Function.comp_def] using names, fun positive => ?_,
    fun first failed b' => error_stands failed, ?_, ?_⟩
  · have bound := inFlight_le kept (same ▸ positive)
    rwa [same] at bound
  · intro rs outcome
    unfold outcome? at outcome
    split at outcome
    · rename_i done
      cases clear : b.error with
      | some first => simp [clear] at outcome
      | none =>
        rw [clear] at outcome
        cases outcome
        exact reports_whole kept done clear
    · cases outcome
  · intro name cause outcome
    unfold outcome? at outcome
    split at outcome
    · cases failed : b.error with
      | none => simp [failed] at outcome
      | some first =>
        rw [failed] at outcome
        cases outcome
        exact kept.blamed name cause failed
    · cases outcome

/-- From the first error on, a call whose work is over leaves its lease on the server. -/
theorem failed_batch_keeps_lease {space token : String} {serial : Nat} {o : Outcome}
    (leased : b.manager.locker = .server space) (failed : b.error.isSome)
    (here : b.errands[k]? = some e) (ending : e.call.stage = .ending serial (some token) o)
    (admitted : b.admits k = true) (c : Caller) :
    (b.move c k).manager.shelf.server = b.manager.shelf.server ∧
      ∃ e', (b.move c k).errands[k]? = some e' ∧ e'.call.stage = .unlocking serial o := by
  have gone : (b.caller c).canceled = true := by simp [caller, failed]
  obtain ⟨name, id, stage⟩ := e
  cases ending
  unfold move
  simp only [here, admitted, if_true, Manager.step]
  exact ⟨Manager.returnLease_canceled leased gone, ⟨name, id, .unlocking serial o⟩,
    List.getElem?_set_self (List.getElem?_eq_some_iff.mp here).1, rfl⟩

end Batch

end StackFlow
