import Mathlib.Data.List.InsertIdx
import StackFlow.Semantics.Joint

/-!
Plain actions: what they do depends on the environment and the visible items only, and they change
nothing but the visible items. Hidden items, the trail and the environment pass through. A plain
action also keeps an invariant of the visible items, and no fault of it is an unsupported name.
-/

namespace StackFlow

/-! ## What the operations of a stack do -/

namespace Action

theorem run_bind {α β : Type} (a : Action α) (f : α → Action β) (s : Stack) :
    (a >>= f).run s =
      match a.run s with
      | .ok x s' => (f x).run s'
      | .error e s' => .error e s' := by
  change EStateM.bind a f s = _
  simp only [EStateM.bind, EStateM.run]
  cases a s <;> rfl

theorem run_peek (i : Int) (s : Stack) : (peek i).run s =
    if i < 0 then .error (.underflow i s.depth) s
    else
      match s.visible[i.toNat]? with
      | some x => .ok x s
      | none => .error (.underflow i s.depth) s := by
  change EStateM.run (if i < 0 then _ else _) s = _
  split
  · rfl
  · cases s.visible[i.toNat]? <;> rfl

theorem run_pop (n : Int) (s : Stack) : (pop n).run s =
    if n < 0 || s.depth < n then .error (.underflow (wrap (n - 1)) s.depth) s
    else .ok (s.visible.take n.toNat) { s with visible := s.visible.drop n.toNat } := by
  change EStateM.run (if n < 0 || s.depth < n then _ else _) s = _
  split <;> rfl

theorem run_push (x : Item) (s : Stack) : (push x).run s =
    if s.depth < 0 then .error (.outOfRange s.cursor s.items.length) s
    else .ok () { s with visible := x :: s.visible, beyond := 0 } := by
  change EStateM.run (if s.depth < 0 then _ else _) s = _
  split <;> rfl

theorem run_push_within (x : Item) {s : Stack} (within : s.beyond = 0) :
    (push x).run s = .ok () { s with visible := x :: s.visible, beyond := 0 } := by
  rw [run_push, if_neg]
  rw [Stack.depth, within]
  omega

theorem run_push_shown (x : Item) {s : Stack} (within : s.beyond = 0) :
    (push x).run s = .ok () { s with visible := x :: s.visible } := by
  rw [run_push_within x within, ← within]

theorem run_pushAt (i : Int) (x : Item) (s : Stack) : (pushAt i x).run s =
    if i < 0 || s.depth < i then .error (.underflow i s.depth) s
    else .ok () { s with visible := s.visible.insertIdx i.toNat x } := by
  change EStateM.run (if i < 0 || s.depth < i then _ else _) s = _
  split <;> rfl

theorem run_replace (i : Int) (x : Item) (s : Stack) : (replace i x).run s =
    if i < 0 || s.depth ≤ i then .error (.underflow i s.depth) s
    else .ok () { s with visible := s.visible.set i.toNat x } := by
  change EStateM.run (if i < 0 || s.depth ≤ i then _ else _) s = _
  split <;> rfl

theorem run_shift (delta : Int) (s : Stack) : (shift delta).run s =
    if wrap (s.cursor + delta) < 0 || (s.items.length : Int) < wrap (s.cursor + delta) then
      .error (.underflow (wrap (s.cursor + delta)) s.items.length) s
    else .ok () { s with
      hidden := s.items.take (wrap (s.cursor + delta)).toNat
      visible := s.items.drop (wrap (s.cursor + delta)).toNat
      beyond := 0 } := by
  change EStateM.run (if _ then _ else _) s = _
  split <;> rfl

end Action

/-! ## Plain actions -/

/-- The end of an action on a stack of which it changes the visible items only. -/
def Stack.finish {α : Type} (s : Stack) (v : List Item) : Except Fault α →
    EStateM.Result Fault Stack α
  | .ok x => .ok x { s with visible := v }
  | .error e => .error e { s with visible := v }

/-- `Plain P Q a`: two stacks that look alike end alike under `a`, visible items that satisfy `P`
satisfy it afterwards, and a result satisfies `Q`. -/
def Plain {α : Type} (P : Item → Prop) (Q : α → Prop) (a : Action α) : Prop :=
  ∀ s t : Stack, s.beyond = 0 → t.beyond = 0 → s.env = t.env → s.visible = t.visible →
    (∀ x ∈ s.visible, P x) →
    ∃ r v, a.run s = s.finish v r ∧ a.run t = t.finish v r ∧ (∀ x ∈ v, P x) ∧
      (∀ x, r = .ok x → Q x) ∧ ∀ name, r ≠ .error (.unsupported name)

namespace Plain

variable {α β : Type} {P : Item → Prop} {Q : α → Prop} {R : β → Prop}

theorem pure {x : α} (h : Q x) : Plain P Q (Pure.pure x) := by
  intro s t _ _ _ same good
  refine ⟨.ok x, s.visible, rfl, by rw [same]; rfl, good, ?_, by simp⟩
  intro y hy
  cases hy
  exact h

theorem throw {e : Fault} (known : ∀ name, e ≠ .unsupported name) :
    Plain P Q (MonadExcept.throw e : Action α) := by
  intro s t _ _ _ same good
  refine ⟨.error e, s.visible, rfl, by rw [same]; rfl, good, by simp, ?_⟩
  intro name h
  exact known name (Except.error.inj h)

theorem bind {a : Action α} {f : α → Action β} (first : Plain P Q a)
    (rest : ∀ x, Q x → Plain P R (f x)) : Plain P R (a >>= f) := by
  intro s t hs ht env same good
  obtain ⟨r, v, runS, runT, kept, result, known⟩ := first s t hs ht env same good
  rw [Action.run_bind, Action.run_bind, runS, runT]
  cases r with
  | error e =>
    exact ⟨.error e, v, rfl, rfl, kept, by simp, fun name h => known name (by cases h; rfl)⟩
  | ok x =>
    exact rest x (result x rfl) { s with visible := v } { t with visible := v } hs ht env rfl kept

theorem depth {k : Int → Action α} (rest : ∀ d, Plain P Q (k d)) :
    Plain P Q (get >>= fun s => k s.depth) := by
  intro s t hs ht env same good
  have equal : s.depth = t.depth := by simp only [Stack.depth, same, hs, ht]
  obtain ⟨r, v, runS, runT, facts⟩ := rest s.depth s t hs ht env same good
  exact ⟨r, v, runS, by rw [equal] at runT; exact runT, facts⟩

theorem env {k : Option Env → Action α} (rest : ∀ e, Plain P Q (k e)) :
    Plain P Q (get >>= fun s => k s.env) := by
  intro s t hs ht env same good
  obtain ⟨r, v, runS, runT, facts⟩ := rest s.env s t hs ht env same good
  exact ⟨r, v, runS, by rw [env] at runT; exact runT, facts⟩

theorem ofExcept {r : Except Fault α} (ok : ∀ x, r = .ok x → Q x)
    (known : ∀ name, r ≠ .error (.unsupported name)) : Plain P Q (Rule.ofExcept r) := by
  cases r with
  | ok x => exact Plain.pure (ok x rfl)
  | error e => exact Plain.throw fun name h => known name (by rw [h])

theorem underflow (i : Int) : Plain P Q (Action.underflow i : Action α) :=
  depth (k := fun d => MonadExcept.throw (Fault.underflow i d)) fun _ => Plain.throw (by simp)

theorem peek (i : Int) : Plain P P (Action.peek i) := by
  intro s t hs ht _ same good
  have depth : t.depth = s.depth := by simp only [Stack.depth, same, hs, ht]
  simp only [Action.run_peek, ← same, depth]
  by_cases negative : i < 0
  · simp only [if_pos negative]
    exact ⟨.error _, s.visible, rfl, by rw [same]; rfl, good, by simp, by simp⟩
  · simp only [if_neg negative]
    cases found : s.visible[i.toNat]? with
    | none => exact ⟨.error _, s.visible, rfl, by rw [same]; rfl, good, by simp, by simp⟩
    | some x =>
      refine ⟨.ok x, s.visible, rfl, by rw [same]; rfl, good, ?_, by simp⟩
      intro y hy
      cases hy
      exact good x (List.mem_of_getElem? found)

/-- An operation that gives up at some depths and otherwise rewrites the visible items. -/
theorem guarded {a : Action α} (refuses : Int → Bool) (index : Int) (value : List Item → α)
    (next : List Item → List Item)
    (run : ∀ s : Stack, s.beyond = 0 → a.run s =
      if refuses s.depth then .error (.underflow index s.depth) s
      else .ok (value s.visible) { s with visible := next s.visible })
    (result : ∀ v, (∀ x ∈ v, P x) → Q (value v))
    (kept : ∀ v, (∀ x ∈ v, P x) → ∀ x ∈ next v, P x) : Plain P Q a := by
  intro s t hs ht _ same good
  have depth : t.depth = s.depth := by simp only [Stack.depth, same, hs, ht]
  rw [run s hs, run t ht, depth, ← same]
  split
  · exact ⟨.error _, s.visible, rfl, by rw [same]; rfl, good, by simp, by simp⟩
  · refine ⟨.ok (value s.visible), next s.visible, rfl, rfl, kept _ good, ?_, by simp⟩
    intro x hx
    cases hx
    exact result _ good

theorem pop (n : Int) : Plain P (fun xs => ∀ x ∈ xs, P x) (Action.pop n) :=
  guarded (fun d => n < 0 || d < n) (wrap (n - 1)) (fun v => v.take n.toNat)
    (fun v => v.drop n.toNat) (fun s _ => Action.run_pop n s)
    (fun _ good x hx => good x (List.mem_of_mem_take hx))
    (fun _ good x hx => good x (List.mem_of_mem_drop hx))

theorem push {x : Item} (h : P x) : Plain P (fun _ => True) (Action.push x) := by
  refine guarded (fun _ => false) 0 (fun _ => ()) (fun v => x :: v) ?_ (fun _ _ => trivial) ?_
  · intro s hs
    rw [Action.run_push_shown x hs, if_neg (by simp)]
  · intro v good y hy
    rcases List.mem_cons.mp hy with rfl | hy
    · exact h
    · exact good y hy

theorem pushAt (i : Int) {x : Item} (h : P x) : Plain P (fun _ => True) (Action.pushAt i x) := by
  refine guarded (fun d => i < 0 || d < i) i (fun _ => ()) (fun v => v.insertIdx i.toNat x)
    (fun s _ => Action.run_pushAt i x s) (fun _ _ => trivial) ?_
  intro v good y hy
  rcases List.eq_or_mem_of_mem_insertIdx hy with rfl | hy
  · exact h
  · exact good y hy

theorem replace (i : Int) {x : Item} (h : P x) : Plain P (fun _ => True) (Action.replace i x) := by
  refine guarded (fun d => i < 0 || d ≤ i) i (fun _ => ()) (fun v => v.set i.toNat x)
    (fun s _ => Action.run_replace i x s) (fun _ _ => trivial) ?_
  intro v good y hy
  rcases List.mem_or_eq_of_mem_set hy with hy | rfl
  · exact good y hy
  · exact h

theorem popAt (i : Int) : Plain P P (Action.popAt i) := by
  refine bind (peek i) fun x hx => bind (Q := fun _ => True) ?_ fun _ _ => Plain.pure hx
  refine guarded (fun _ => false) 0 (fun _ => ()) (fun v => v.eraseIdx i.toNat) (fun _ _ => rfl)
    (fun _ _ => trivial) ?_
  intro v good y hy
  exact good y (List.mem_of_mem_eraseIdx hy)

end Plain

end StackFlow
