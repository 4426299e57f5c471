import StackFlow.Proofs.Locks
import StackFlow.Store.Server

/-!
What the commands of a key-value server do while it answers: a command on one key leaves all others
alone, and whether it runs depends on what that key holds. These statements are what a server
documents about its commands, one for each kind, and stores and leases are proved from them alone:
how the server keeps its keys is not looked at again.
-/

namespace StackFlow

section Runs

variable {ε σ α β : Type} {a : EStateM ε σ α} {s s' : σ}

theorem bind_ok {x : α} (f : α → EStateM ε σ β) (ran : a s = .ok x s') : (a >>= f) s = f x s' := by
  change EStateM.bind a f s = _
  simp only [EStateM.bind, ran]

theorem bind_error {e : ε} (f : α → EStateM ε σ β) (failed : a s = .error e s') :
    (a >>= f) s = .error e s' := by
  change EStateM.bind a f s = _
  simp only [EStateM.bind, failed]

end Runs

namespace Server

variable {s : Server} {key other text : String}

/-! ## Keys -/

@[simp] theorem find?_put (s : Server) (key other : String) (h : Holding) :
    (s.put key h).find? other = if other = key then some h else s.find? other := by
  by_cases same : other = key
  · simp [put, find?, same]
  · simp [put, find?, List.lookup_cons, beq_false_of_ne same, lookup_filter, same]

@[simp] theorem find?_remove (s : Server) (key other : String) :
    (s.remove key).find? other = if other = key then none else s.find? other := lookup_filter

/-- What a key holds as a set with scores, unless it holds a text. -/
def members? (s : Server) (key : String) : Option (List (String × Int)) :=
  match s.find? key with
  | some (.text _) => none
  | some (.ranked ms) => some ms
  | none => some []

/-- The server with a set under a key. -/
def putMembers (s : Server) (key : String) (ms : List (String × Int)) : Server :=
  if ms.isEmpty then s.remove key else s.put key (.ranked ms)

@[simp] theorem outage_putMembers (s : Server) (key : String) (ms : List (String × Int)) :
    (s.putMembers key ms).outage = s.outage := by
  unfold putMembers
  split <;> rfl

theorem find?_putMembers_other {ms : List (String × Int)} (apart : other ≠ key) :
    (s.putMembers key ms).find? other = s.find? other := by
  unfold putMembers
  split <;> simp [apart]

theorem members?_putMembers (s : Server) (key : String) (ms : List (String × Int)) :
    (s.putMembers key ms).members? key = some ms := by
  unfold putMembers
  split
  · rename_i empty
    rw [List.isEmpty_iff.mp empty]
    simp [members?]
  · simp [members?]

theorem members?_congr {s' : Server} (same : s'.find? key = s.find? key) :
    s'.members? key = s.members? key := by
  rw [members?, same, members?]

theorem members?_text (holds : s.find? key = some (.text text)) : s.members? key = none := by
  simp [members?, holds]

/-! ## Commands -/

namespace Command

theorem look_answers (up : s.outage = none) (key : String) : look key s = .ok (s.find? key) s := by
  have got : (get : Command Server) s = .ok s s := rfl
  refine (bind_ok _ got).trans ?_
  simp only [up]
  rfl

theorem look_outage {reason : String} (out : s.outage = some reason) (key : String) :
    look key s = .error (.outage reason) s := by
  have got : (get : Command Server) s = .ok s s := rfl
  refine (bind_ok _ got).trans ?_
  simp only [out]
  rfl

theorem set_answers (up : s.outage = none) (key text : String) :
    set key text s = .ok () (s.put key (.text text)) :=
  bind_ok _ (bind_ok _ (look_answers up key))

theorem get?_answers (up : s.outage = none) (key : String) : get? key s =
    match s.find? key with
    | some (.ranked _) => .error .wrongKind s
    | some (.text t) => .ok (some t) s
    | none => .ok none s := by
  refine (bind_ok _ (look_answers up key)).trans ?_
  split <;> rename_i holds <;> rw [holds] <;> rfl

theorem delete_answers (up : s.outage = none) (key : String) :
    delete key s = .ok () (s.remove key) :=
  bind_ok _ (bind_ok _ (look_answers up key))

theorem members_answers (up : s.outage = none) (key : String) : members key s =
    match s.members? key with
    | some ms => .ok ms s
    | none => .error .wrongKind s := by
  refine (bind_ok _ (look_answers up key)).trans ?_
  unfold members?
  rcases s.find? key with _ | text | ranked <;> rfl

/-- A command that puts another set in the place of the one under a key. -/
theorem change_answers (up : s.outage = none) (key : String)
    (change : List (String × Int) → List (String × Int)) :
    (do putMembers key (change (← members key)) : Command Unit) s =
      match s.members? key with
      | some ms => .ok () (s.putMembers key (change ms))
      | none => .error .wrongKind s := by
  have ran := members_answers up key
  cases set : s.members? key with
  | none =>
    rw [set] at ran
    exact bind_error _ ran
  | some ms =>
    rw [set] at ran
    exact bind_ok _ ran

theorem range_answers (up : s.outage = none) (key : String) : range key s =
    match s.members? key with
    | some ms => .ok
      ((ms.mergeSort fun a b => a.2 < b.2 || (a.2 = b.2 && a.1 ≤ b.1)).map (·.1)) s
    | none => .error .wrongKind s := by
  have ran := members_answers up key
  cases set : s.members? key with
  | none =>
    rw [set] at ran
    exact bind_error _ ran
  | some ms =>
    rw [set] at ran
    exact bind_ok _ ran

theorem setIfAbsent_answers (up : s.outage = none) (key text : String) : setIfAbsent key text s =
    match s.find? key with
    | some _ => .ok false s
    | none => .ok true (s.put key (.text text)) := by
  refine (bind_ok _ (look_answers up key)).trans ?_
  cases s.find? key with
  | some h => rfl
  | none => exact bind_ok _ (set_answers up key text)

theorem deleteIfHolds_answers (up : s.outage = none) (key text : String) : deleteIfHolds key text s =
    match s.find? key with
    | some (.ranked _) => .error .wrongKind s
    | some (.text t) => .ok () (if t = text then s.remove key else s)
    | none => .ok () s := by
  have ran := get?_answers up key
  rcases holds : s.find? key with _ | t | ms
  · rw [holds] at ran
    exact bind_ok _ ran
  · rw [holds] at ran
    refine (bind_ok _ ran).trans ?_
    by_cases same : t = text
    · simp only [same, if_true]
      exact delete_answers up key
    · simp only [same, if_false, Option.some.injEq]
      rfl
  · rw [holds] at ran
    exact bind_error _ ran

end Command

end Server

end StackFlow
