import Mathlib.Logic.Relation
import StackFlow.Lock.Table

/-!
Calls that work under the lock of an ID. Any number of them are under way, and their steps interleave
in any order. Main statement: the table has an entry for an ID while some call refers to it and no
longer, all calls on the ID share it, and one of them at a time is inside.
-/

namespace StackFlow

namespace LockTable

/-- The lock of an ID. -/
def serial? (t : LockTable) (id : String) : Option Nat := (t.find? id).map (·.serial)

def refs (t : LockTable) (id : String) : Nat := ((t.find? id).map (·.refs)).getD 0

end LockTable

/-! ## Steps of a call -/

/-- How far a call has come, from before it finds its lock until it has returned with an outcome. -/
inductive Phase (α : Type) where
  | fresh
  | waiting (serial : Nat)
  | inside (serial : Nat)
  /-- The work is done and the lock is still taken. -/
  | ended (serial : Nat) (outcome : α)
  /-- The lock is free again and the reference is still there. -/
  | leaving (serial : Nat) (outcome : α)
  | returned (outcome : α)

namespace Phase

variable {α : Type}

/-- The lock that a call refers to. -/
def refers? : Phase α → Option Nat
  | waiting s | inside s | ended s _ | leaving s _ => some s
  | _ => none

/-- The lock that a call has taken. -/
def holds? : Phase α → Option Nat
  | inside s | ended s _ => some s
  | _ => none

/-- The steps of a call on `id`. Work inside may come to any outcome. -/
inductive Step (id : String) : LockTable → Phase α → LockTable → Phase α → Prop where
  | acquire {t : LockTable} : Step id t .fresh (t.acquire id).2 (.waiting (t.acquire id).1)
  | lock {t t' : LockTable} {s : Nat} : t.lock? s = some t' → Step id t (.waiting s) t' (.inside s)
  | work {t : LockTable} {s : Nat} (o : α) : Step id t (.inside s) t (.ended s o)
  | unlock {t : LockTable} {s : Nat} {o : α} : Step id t (.ended s o) (t.unlock s) (.leaving s o)
  | release {t : LockTable} {s : Nat} {o : α} : Step id t (.leaving s o) (t.release id) (.returned o)

theorem refers_of_holds {p : Phase α} {s : Nat} (holds : p.holds? = some s) :
    p.refers? = some s := by
  cases p with
  | inside | ended => exact holds
  | _ => cases holds

end Phase

structure Visitor (α : Type) where
  id : String
  phase : Phase α

structure Crowd (α : Type) where
  table : LockTable
  visitors : List (Visitor α)

namespace Crowd

variable {α : Type}

def opened (ids : List String) : Crowd α := { table := {}, visitors := ids.map (⟨·, .fresh⟩) }

inductive Step : Crowd α → Crowd α → Prop where
  | move {c : Crowd α} {k : Nat} {v : Visitor α} {t : LockTable} {p : Phase α} :
      c.visitors[k]? = some v → Phase.Step v.id c.table v.phase t p →
      Step c ⟨t, c.visitors.set k ⟨v.id, p⟩⟩

def Runs : Crowd α → Crowd α → Prop := Relation.ReflTransGen Step

def users (c : Crowd α) (id : String) : Nat :=
  c.visitors.countP fun v => v.id == id && v.phase.refers?.isSome

/-- Each entry counts the calls that refer to it, and they all refer to its lock. -/
structure Referred (c : Crowd α) : Prop where
  shared : ∀ (k : Nat) v s, c.visitors[k]? = some v → v.phase.refers? = some s →
    c.table.serial? v.id = some s
  counted : ∀ id, c.table.refs id = c.users id
  alive : ∀ id s, c.table.serial? id = some s → 0 < c.table.refs id
  distinct : ∀ id id' s, c.table.serial? id = some s → c.table.serial? id' = some s → id = id'
  older : ∀ id s, c.table.serial? id = some s → s < c.table.next

/-- The locks that are taken are those of the calls inside, of which an ID has one at most. -/
structure Guarded (c : Crowd α) : Prop where
  held : ∀ s, s ∈ c.table.held ↔ ∃ (k : Nat) (v : Visitor α), c.visitors[k]? = some v ∧
    v.phase.holds? = some s
  alone : ∀ (j k : Nat) v w, c.visitors[j]? = some v → c.visitors[k]? = some w → v.id = w.id →
    v.phase.holds?.isSome → w.phase.holds?.isSome → j = k

end Crowd

/-! ## The table -/

theorem lookup_filter {β : Type} {entries : List (String × β)} {id other : String} :
    (entries.filter (·.1 != id)).lookup other =
      if other = id then none else entries.lookup other := by
  induction entries with
  | nil => simp
  | cons entry rest ih =>
    obtain ⟨key, e⟩ := entry
    by_cases kept : key = id
    · subst kept
      by_cases same : other = key
      · simpa [same] using ih
      · simpa [same, List.lookup_cons, beq_false_of_ne same] using ih
    · by_cases same : other = key
      · subst same
        simp [kept]
      · simpa [kept, List.lookup_cons, beq_false_of_ne same] using ih

namespace LockTable

variable {t t' : LockTable} {id other : String} {e : LockEntry} {s : Nat}

theorem find?_put : (t.put id e).find? other = if other = id then some e else t.find? other := by
  unfold put find?
  by_cases same : other = id
  · simp [same]
  · simp [List.lookup_cons, beq_false_of_ne same, lookup_filter, same]

theorem find?_remove : (t.remove id).find? other = if other = id then none else t.find? other :=
  lookup_filter

theorem serial?_acquire : (t.acquire id).2.serial? other =
    if other = id then some (t.acquire id).1 else t.serial? other := by
  unfold acquire serial?
  cases found : t.find? id with
  | some e =>
    rw [find?_put]
    split <;> rfl
  | none =>
    change ((t.put id ⟨t.next, 1⟩).find? other).map _ = _
    rw [find?_put]
    split <;> rfl

theorem refs_acquire : (t.acquire id).2.refs other = t.refs other + if other = id then 1 else 0 := by
  unfold acquire refs
  cases found : t.find? id with
  | some e =>
    rw [find?_put]
    split
    · rename_i same
      simp [same, found]
    · rfl
  | none =>
    change (((t.put id ⟨t.next, 1⟩).find? other).map _).getD 0 = _
    rw [find?_put]
    split
    · rename_i same
      simp [same, found]
    · rfl

/-- A lock that is there is found, and otherwise the next serial makes a new one. -/
theorem acquire_cases :
    t.serial? id = some (t.acquire id).1 ∧ (t.acquire id).2.next = t.next ∨
    t.serial? id = none ∧ (t.acquire id).1 = t.next ∧ (t.acquire id).2.next = t.next + 1 := by
  unfold acquire serial?
  cases t.find? id with
  | some e => exact .inl ⟨rfl, rfl⟩
  | none => exact .inr ⟨rfl, rfl, rfl⟩

theorem held_acquire : (t.acquire id).2.held = t.held := by
  unfold acquire
  split <;> rfl

theorem serial?_release : (t.release id).serial? other =
    if other = id ∧ t.refs id ≤ 1 then none else t.serial? other := by
  unfold release serial? refs
  cases found : t.find? id with
  | none =>
    by_cases same : other = id <;> simp [same, found]
  | some e =>
    by_cases last : e.refs ≤ 1
    · simp only [if_pos last, find?_remove]
      by_cases same : other = id <;> simp [same, last]
    · simp only [if_neg last, find?_put]
      by_cases same : other = id <;> simp [same, last, found]

theorem refs_release : (t.release id).refs other = t.refs other - if other = id then 1 else 0 := by
  unfold release refs
  cases found : t.find? id with
  | none =>
    by_cases same : other = id <;> simp [same, found]
  | some e =>
    by_cases last : e.refs ≤ 1
    · simp only [if_pos last, find?_remove]
      by_cases same : other = id
      · simp [same, found, last]
      · simp [same]
    · simp only [if_neg last, find?_put]
      by_cases same : other = id <;> simp [same, found]

theorem release_kept : (t.release id).next = t.next ∧ (t.release id).held = t.held := by
  unfold release
  split
  · exact ⟨rfl, rfl⟩
  · split <;> exact ⟨rfl, rfl⟩

theorem lock?_some (locked : t.lock? s = some t') :
    s ∉ t.held ∧ t' = { t with held := s :: t.held } := by
  unfold lock? at locked
  split at locked
  · cases locked
  · rename_i free
    exact ⟨by simpa using free, (Option.some.inj locked).symm⟩

theorem lock?_isSome : (t.lock? s).isSome ↔ s ∉ t.held := by
  unfold lock?
  split <;> simp_all

end LockTable

/-! ## One step -/

theorem getElem?_replaced {β : Type} {xs : List β} {j k : Nat} {x y w : β} (at_k : xs[k]? = some x) :
    (xs.set k y)[j]? = some w ↔ j = k ∧ w = y ∨ j ≠ k ∧ xs[j]? = some w := by
  have bound : k < xs.length := (List.getElem?_eq_some_iff.mp at_k).1
  rw [List.getElem?_set]
  by_cases same : k = j
  · subst same
    simp [bound, eq_comm]
  · simp [same, Ne.symm same]

theorem countP_replaced {β : Type} {xs : List β} {k : Nat} {x : β} (p : β → Bool) (y : β)
    (at_k : xs[k]? = some x) :
    (xs.set k y).countP p + (if p x then 1 else 0) = xs.countP p + if p y then 1 else 0 := by
  obtain ⟨bound, same⟩ := List.getElem?_eq_some_iff.mp at_k
  rw [List.countP_set bound, same]
  have counted : (if p x then 1 else 0) ≤ xs.countP p := by
    split
    · rename_i holds
      exact List.countP_pos_iff.mpr ⟨x, List.mem_of_getElem? at_k, holds⟩
    · exact Nat.zero_le _
  omega

namespace Crowd

variable {α : Type} {c c' : Crowd α} {j k : Nat} {v w : Visitor α} {t : LockTable} {p : Phase α}
  {s : Nat} {id : String}

theorem users_replaced (at_k : c.visitors[k]? = some v) (t : LockTable) (p : Phase α) (id : String) :
    users ⟨t, c.visitors.set k ⟨v.id, p⟩⟩ id +
        (if v.id = id ∧ v.phase.refers?.isSome then 1 else 0) =
      c.users id + if v.id = id ∧ p.refers?.isSome then 1 else 0 := by
  have counted := countP_replaced (fun v : Visitor α => v.id == id && v.phase.refers?.isSome)
    ⟨v.id, p⟩ at_k
  simpa [users] using counted

theorem users_pos (at_k : c.visitors[k]? = some v) (refers : v.phase.refers?.isSome) :
    0 < c.users v.id :=
  List.countP_pos_iff.mpr ⟨v, List.mem_of_getElem? at_k, by simp [refers]⟩

theorem opened_fresh {ids : List String} (at_k : (opened ids : Crowd α).visitors[k]? = some v) :
    v.phase = .fresh := by
  simp only [opened, List.getElem?_map, Option.map_eq_some_iff] at at_k
  obtain ⟨id, _, rfl⟩ := at_k
  rfl

theorem referred_opened (ids : List String) : (opened ids : Crowd α).Referred where
  shared := by
    intro k v s at_k refers
    rw [opened_fresh at_k] at refers
    cases refers
  counted := by
    intro id
    symm
    apply List.countP_eq_zero.mpr
    intro v member
    obtain ⟨k, at_k⟩ := List.mem_iff_getElem?.mp member
    simp [opened_fresh at_k, Phase.refers?]
  alive := by
    intro id s found
    cases found
  distinct := by
    intro id id' s found
    cases found
  older := by
    intro id s found
    cases found

theorem guarded_opened (ids : List String) : (opened ids : Crowd α).Guarded where
  held := by
    intro s
    constructor
    · intro taken
      cases taken
    · rintro ⟨k, v, at_k, holds⟩
      rw [opened_fresh at_k] at holds
      cases holds
  alone := by
    intro j k v w at_j _ _ holds
    rw [opened_fresh at_j] at holds
    cases holds

theorem referred_kept (referred : c.Referred) (at_k : c.visitors[k]? = some v)
    (entries : t.entries = c.table.entries) (next : t.next = c.table.next)
    (same : p.refers? = v.phase.refers?) : Referred ⟨t, c.visitors.set k ⟨v.id, p⟩⟩ := by
  have finds : t.find? = c.table.find? := by
    unfold LockTable.find?
    rw [entries]
  have serials : t.serial? = c.table.serial? := by
    unfold LockTable.serial?
    rw [finds]
  have refs : t.refs = c.table.refs := by
    unfold LockTable.refs
    rw [finds]
  constructor
  · intro j w s at_j refers
    dsimp only
    rw [serials]
    rcases (getElem?_replaced at_k).mp at_j with ⟨_, rfl⟩ | ⟨_, old⟩
    · exact referred.shared k v s at_k (same ▸ refers)
    · exact referred.shared j w s old refers
  · intro id
    have moved := users_replaced at_k t p id
    rw [same] at moved
    dsimp only
    rw [refs, referred.counted id]
    omega
  · dsimp only
    rw [serials, refs]
    exact referred.alive
  · dsimp only
    rw [serials]
    exact referred.distinct
  · dsimp only
    rw [serials, next]
    exact referred.older

/-- An ID that has a lock already is given that one, and no other ID has the lock that it is given. -/
theorem acquire_serial (referred : c.Referred) (found : c.table.serial? id = some s) (other : String) :
    s = (c.table.acquire other).1 ↔ id = other := by
  rcases @LockTable.acquire_cases c.table other with ⟨known, _⟩ | ⟨absent, new, _⟩
  · constructor
    · intro same
      exact referred.distinct id other s found (same ▸ known)
    · rintro rfl
      exact Option.some.inj (found.symm.trans known)
  · constructor
    · intro same
      have below := referred.older id s found
      omega
    · rintro rfl
      cases found.symm.trans absent

theorem referred_acquire (referred : c.Referred) (at_k : c.visitors[k]? = some v)
    (fresh : v.phase = .fresh) :
    Referred ⟨(c.table.acquire v.id).2,
      c.visitors.set k ⟨v.id, .waiting (c.table.acquire v.id).1⟩⟩ := by
  constructor
  · intro j w s at_j refers
    rw [LockTable.serial?_acquire]
    rcases (getElem?_replaced at_k).mp at_j with ⟨_, rfl⟩ | ⟨_, old⟩
    · rw [if_pos rfl]
      exact refers
    · have shared := referred.shared j w s old refers
      split
      · rename_i same
        rw [(acquire_serial referred shared v.id).mpr same]
      · exact shared
  · intro id
    have moved := users_replaced at_k (c.table.acquire v.id).2 (.waiting (c.table.acquire v.id).1) id
    have counted := referred.counted id
    simp only [fresh, Phase.refers?, Option.isSome_none, Option.isSome_some, Bool.false_eq_true,
      and_false, and_true, if_false, eq_comm (a := v.id)] at moved
    rw [LockTable.refs_acquire]
    omega
  · intro id s found
    rw [LockTable.serial?_acquire] at found
    rw [LockTable.refs_acquire]
    split at found
    · rename_i same
      rw [if_pos same]
      omega
    · have some := referred.alive id s found
      omega
  · intro id id' s found found'
    rw [LockTable.serial?_acquire] at found found'
    split at found <;> split at found'
    · rename_i same same'
      exact same.trans same'.symm
    · rename_i same other
      exact absurd ((acquire_serial referred found' v.id).mp (Option.some.inj found).symm) other
    · rename_i other same
      exact absurd ((acquire_serial referred found v.id).mp (Option.some.inj found').symm) other
    · exact referred.distinct id id' s found found'
  · intro id s found
    rw [LockTable.serial?_acquire] at found
    dsimp only
    rcases @LockTable.acquire_cases c.table v.id with ⟨known, next⟩ | ⟨_, new, next⟩
    · rw [next]
      split at found
      · exact referred.older v.id s (known.trans found)
      · exact referred.older id s found
    · rw [next]
      split at found
      · cases found
        omega
      · have below := referred.older id s found
        omega

theorem referred_release {o : α} (referred : c.Referred) (at_k : c.visitors[k]? = some v)
    (leaving : v.phase = .leaving s o) :
    Referred ⟨c.table.release v.id, c.visitors.set k ⟨v.id, .returned o⟩⟩ := by
  have some := users_pos at_k (by rw [leaving]; rfl)
  have users (id : String) := users_replaced at_k (c.table.release v.id) (.returned o) id
  simp only [leaving, Phase.refers?, Option.isSome_none, Option.isSome_some, Bool.false_eq_true,
    and_false, and_true, if_false, eq_comm (a := v.id)] at users
  constructor
  · intro j w s at_j refers
    rw [LockTable.serial?_release]
    have after := users_pos (c := ⟨c.table.release v.id, c.visitors.set k ⟨v.id, .returned o⟩⟩) at_j
      (by rw [refers]; rfl)
    rcases (getElem?_replaced at_k).mp at_j with ⟨_, rfl⟩ | ⟨_, old⟩
    · cases refers
    · have shared := referred.shared j w s old refers
      split
      · rename_i last
        -- the call at `j` refers to the lock too, so that this was not the last reference
        have moved := users w.id
        rw [if_pos last.1] at moved
        have counted := referred.counted v.id
        rw [last.1] at moved after
        omega
      · exact shared
  · intro id
    have counted := referred.counted id
    have moved := users id
    rw [LockTable.refs_release]
    omega
  · intro id s found
    rw [LockTable.serial?_release] at found
    rw [LockTable.refs_release]
    split at found
    · cases found
    · rename_i stays
      have alive := referred.alive id s found
      split
      · rename_i same
        subst same
        have others : ¬ c.table.refs v.id ≤ 1 := fun last => stays ⟨rfl, last⟩
        omega
      · omega
  · intro id id' s found found'
    rw [LockTable.serial?_release] at found found'
    split at found
    · cases found
    · split at found'
      · cases found'
      · exact referred.distinct id id' s found found'
  · intro id s found
    rw [LockTable.serial?_release] at found
    dsimp only
    rw [LockTable.release_kept.1]
    split at found
    · cases found
    · exact referred.older id s found

theorem guarded_kept (guarded : c.Guarded) (at_k : c.visitors[k]? = some v)
    (held : t.held = c.table.held) (same : p.holds? = v.phase.holds?) :
    Guarded ⟨t, c.visitors.set k ⟨v.id, p⟩⟩ := by
  constructor
  · intro s
    dsimp only
    rw [held, guarded.held s]
    constructor
    · rintro ⟨j, w, at_j, holds⟩
      by_cases here : j = k
      · subst here
        cases Option.some.inj (at_j.symm.trans at_k)
        exact ⟨j, _, (getElem?_replaced at_k).mpr (.inl ⟨rfl, rfl⟩), same.trans holds⟩
      · exact ⟨j, w, (getElem?_replaced at_k).mpr (.inr ⟨here, at_j⟩), holds⟩
    · rintro ⟨j, w, at_j, holds⟩
      rcases (getElem?_replaced at_k).mp at_j with ⟨_, rfl⟩ | ⟨_, old⟩
      · exact ⟨k, v, at_k, same.symm.trans holds⟩
      · exact ⟨j, w, old, holds⟩
  · intro i j w w' at_i at_j ids holds holds'
    have before : ∀ {j : Nat} {w : Visitor α}, (c.visitors.set k ⟨v.id, p⟩)[j]? = some w →
        w.phase.holds?.isSome → ∃ u, c.visitors[j]? = some u ∧ u.id = w.id ∧ u.phase.holds?.isSome := by
      intro j w at_j holds
      rcases (getElem?_replaced at_k).mp at_j with ⟨rfl, rfl⟩ | ⟨_, old⟩
      · exact ⟨v, at_k, rfl, same ▸ holds⟩
      · exact ⟨w, old, rfl, holds⟩
    obtain ⟨u, there, id, inside⟩ := before at_i holds
    obtain ⟨u', there', id', inside'⟩ := before at_j holds'
    exact guarded.alone i j u u' there there' (id.trans (ids.trans id'.symm)) inside inside'

theorem guarded_lock (referred : c.Referred) (guarded : c.Guarded) (at_k : c.visitors[k]? = some v)
    (waits : v.phase = .waiting s) (locked : c.table.lock? s = some t) :
    Guarded ⟨t, c.visitors.set k ⟨v.id, .inside s⟩⟩ := by
  obtain ⟨free, rfl⟩ := LockTable.lock?_some locked
  have mine := referred.shared k v s at_k (by rw [waits]; rfl)
  -- whoever is inside on the same ID has taken this lock, which is free
  have nobody : ∀ (j : Nat) (w : Visitor α), c.visitors[j]? = some w → w.id = v.id →
      w.phase.holds?.isSome → False := by
    intro j w at_j same holds
    obtain ⟨s', inside⟩ := Option.isSome_iff_exists.mp holds
    have theirs := referred.shared j w s' at_j (Phase.refers_of_holds inside)
    rw [same, mine] at theirs
    cases theirs
    exact free ((guarded.held s).mpr ⟨j, w, at_j, inside⟩)
  constructor
  · intro s'
    dsimp only
    rw [List.mem_cons, guarded.held s']
    constructor
    · rintro (rfl | ⟨j, w, at_j, holds⟩)
      · exact ⟨k, _, (getElem?_replaced at_k).mpr (.inl ⟨rfl, rfl⟩), rfl⟩
      · have other : j ≠ k := by
          rintro rfl
          cases Option.some.inj (at_j.symm.trans at_k)
          rw [waits] at holds
          cases holds
        exact ⟨j, w, (getElem?_replaced at_k).mpr (.inr ⟨other, at_j⟩), holds⟩
    · rintro ⟨j, w, at_j, holds⟩
      rcases (getElem?_replaced at_k).mp at_j with ⟨_, rfl⟩ | ⟨_, old⟩
      · exact .inl (Option.some.inj holds).symm
      · exact .inr ⟨j, w, old, holds⟩
  · intro i j w w' at_i at_j ids holds holds'
    rcases (getElem?_replaced at_k).mp at_i with ⟨rfl, rfl⟩ | ⟨_, old⟩ <;>
      rcases (getElem?_replaced at_k).mp at_j with ⟨rfl, rfl⟩ | ⟨_, old'⟩
    · rfl
    · exact (nobody j w' old' ids.symm holds').elim
    · exact (nobody i w old ids holds).elim
    · exact guarded.alone i j w w' old old' ids holds holds'

theorem guarded_unlock {o : α} (referred : c.Referred) (guarded : c.Guarded)
    (at_k : c.visitors[k]? = some v) (ended : v.phase = .ended s o) :
    Guarded ⟨c.table.unlock s, c.visitors.set k ⟨v.id, .leaving s o⟩⟩ := by
  have mine : v.phase.holds? = some s := by rw [ended]; rfl
  have only : ∀ (j : Nat) (w : Visitor α), c.visitors[j]? = some w → w.phase.holds? = some s →
      j = k := by
    intro j w at_j theirs
    have here := referred.shared k v s at_k (Phase.refers_of_holds mine)
    have there := referred.shared j w s at_j (Phase.refers_of_holds theirs)
    exact guarded.alone j k w v at_j at_k (referred.distinct _ _ s there here) (by simp [theirs])
      (by simp [mine])
  constructor
  · intro s'
    simp only [LockTable.unlock, List.mem_filter, bne_iff_ne, guarded.held s']
    constructor
    · rintro ⟨⟨j, w, at_j, holds⟩, other⟩
      have elsewhere : j ≠ k := by
        rintro rfl
        cases Option.some.inj (at_j.symm.trans at_k)
        exact other (Option.some.inj (holds.symm.trans mine))
      exact ⟨j, w, (getElem?_replaced at_k).mpr (.inr ⟨elsewhere, at_j⟩), holds⟩
    · rintro ⟨j, w, at_j, holds⟩
      rcases (getElem?_replaced at_k).mp at_j with ⟨_, rfl⟩ | ⟨elsewhere, old⟩
      · cases holds
      · refine ⟨⟨j, w, old, holds⟩, ?_⟩
        rintro rfl
        exact elsewhere (only j w old holds)
  · intro i j w w' at_i at_j ids holds holds'
    rcases (getElem?_replaced at_k).mp at_i with ⟨_, rfl⟩ | ⟨_, old⟩
    · cases holds
    · rcases (getElem?_replaced at_k).mp at_j with ⟨_, rfl⟩ | ⟨_, old'⟩
      · cases holds'
      · exact guarded.alone i j w w' old old' ids holds holds'

/-- Every step keeps the table and the calls in order. -/
theorem step_orderly (step : Step c c') (orderly : c.Referred ∧ c.Guarded) :
    c'.Referred ∧ c'.Guarded := by
  obtain ⟨referred, guarded⟩ := orderly
  cases step with
  | @move k v t p at_k moves =>
    generalize before : v.phase = q at moves
    cases moves with
    | acquire =>
      exact ⟨referred_acquire referred at_k before,
        guarded_kept guarded at_k LockTable.held_acquire (by rw [before]; rfl)⟩
    | lock locked =>
      refine ⟨?_, guarded_lock referred guarded at_k before locked⟩
      obtain ⟨_, rfl⟩ := LockTable.lock?_some locked
      exact referred_kept referred at_k rfl rfl (by rw [before]; rfl)
    | work o =>
      exact ⟨referred_kept referred at_k rfl rfl (by rw [before]; rfl),
        guarded_kept guarded at_k rfl (by rw [before]; rfl)⟩
    | unlock =>
      exact ⟨referred_kept referred at_k rfl rfl (by rw [before]; rfl),
        guarded_unlock referred guarded at_k before⟩
    | release =>
      exact ⟨referred_release referred at_k before,
        guarded_kept guarded at_k LockTable.release_kept.2 (by rw [before]; rfl)⟩

theorem runs_orderly {ids : List String} (run : (opened ids).Runs c) : c.Referred ∧ c.Guarded := by
  induction run with
  | refl => exact ⟨referred_opened ids, guarded_opened ids⟩
  | tail _ step ih => exact step_orderly step ih

/-! ## Taking turns -/

/-- What the table promises to the calls on it. A call has to wait only while one on the same ID is
inside. -/
structure TakesTurns (c : Crowd α) : Prop where
  present : ∀ id, (c.table.find? id).isSome ↔
    ∃ v ∈ c.visitors, v.id = id ∧ v.phase.refers?.isSome
  entry : ∀ id e, c.table.find? id = some e → e.refs = c.users id ∧
    ∀ v ∈ c.visitors, v.id = id → ∀ s, v.phase.refers? = some s → s = e.serial
  alone : ∀ (j k : Nat) v w, c.visitors[j]? = some v → c.visitors[k]? = some w → v.id = w.id →
    v.phase.holds?.isSome → w.phase.holds?.isSome → j = k
  free : ∀ v ∈ c.visitors, ∀ s, v.phase = .waiting s → ((c.table.lock? s).isSome ↔
    ∀ w ∈ c.visitors, w.id = v.id → w.phase.holds? = none)
  gone : (∀ v ∈ c.visitors, ∃ o, v.phase = .returned o) → c.table.entries = [] ∧ c.table.held = []

theorem find?_isSome_iff (referred : c.Referred) :
    (c.table.find? id).isSome ↔ ∃ v ∈ c.visitors, v.id = id ∧ v.phase.refers?.isSome := by
  constructor
  · intro present
    obtain ⟨e, found⟩ := Option.isSome_iff_exists.mp present
    have alive := referred.alive id e.serial (by simp [LockTable.serial?, found])
    rw [referred.counted id] at alive
    obtain ⟨v, member, counts⟩ := List.countP_pos_iff.mp alive
    simp only [Bool.and_eq_true, beq_iff_eq] at counts
    exact ⟨v, member, counts.1, counts.2⟩
  · rintro ⟨v, member, rfl, refers⟩
    obtain ⟨k, at_k⟩ := List.mem_iff_getElem?.mp member
    obtain ⟨s, refers⟩ := Option.isSome_iff_exists.mp refers
    have shared := referred.shared k v s at_k refers
    unfold LockTable.serial? at shared
    cases found : c.table.find? v.id with
    | none => simp [found] at shared
    | some e => rfl

/-- A lock is free for the calls that wait for it while none on their ID is inside. -/
theorem lock?_isSome_iff (referred : c.Referred) (guarded : c.Guarded)
    (at_k : c.visitors[k]? = some v) (waits : v.phase = .waiting s) :
    (c.table.lock? s).isSome ↔ ∀ w ∈ c.visitors, w.id = v.id → w.phase.holds? = none := by
  have mine := referred.shared k v s at_k (by rw [waits]; rfl)
  rw [LockTable.lock?_isSome, guarded.held s]
  constructor
  · intro free w member same
    obtain ⟨j, at_j⟩ := List.mem_iff_getElem?.mp member
    cases inside : w.phase.holds? with
    | none => rfl
    | some s' =>
      have theirs := referred.shared j w s' at_j (Phase.refers_of_holds inside)
      rw [same, mine] at theirs
      cases theirs
      exact absurd ⟨j, w, at_j, inside⟩ free
  · rintro nobody ⟨j, w, at_j, inside⟩
    have theirs := referred.shared j w s at_j (Phase.refers_of_holds inside)
    have same := referred.distinct _ _ s theirs mine
    rw [nobody w (List.mem_of_getElem? at_j) same] at inside
    cases inside

theorem takesTurns (referred : c.Referred) (guarded : c.Guarded) : c.TakesTurns where
  present := fun _ => find?_isSome_iff referred
  entry := by
    intro id e found
    have counted := referred.counted id
    simp only [LockTable.refs, found, Option.map_some, Option.getD_some] at counted
    refine ⟨counted, ?_⟩
    rintro v member rfl s refers
    obtain ⟨k, at_k⟩ := List.mem_iff_getElem?.mp member
    have shared := referred.shared k v s at_k refers
    simp only [LockTable.serial?, found, Option.map_some, Option.some.injEq] at shared
    exact shared.symm
  alone := guarded.alone
  free := by
    intro v member s waits
    obtain ⟨k, at_k⟩ := List.mem_iff_getElem?.mp member
    exact lock?_isSome_iff referred guarded at_k waits
  gone := by
    intro returned
    constructor
    · cases entries : c.table.entries with
      | nil => rfl
      | cons entry rest =>
        have present : (c.table.find? entry.1).isSome := by
          simp [LockTable.find?, entries]
        obtain ⟨v, member, _, refers⟩ := (find?_isSome_iff referred).mp present
        obtain ⟨o, done⟩ := returned v member
        rw [done] at refers
        cases refers
    · apply List.eq_nil_iff_forall_not_mem.mpr
      intro s taken
      obtain ⟨k, v, at_k, holds⟩ := (guarded.held s).mp taken
      obtain ⟨o, done⟩ := returned v (List.mem_of_getElem? at_k)
      rw [done] at holds
      cases holds

end Crowd

end StackFlow
