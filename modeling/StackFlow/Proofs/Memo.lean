import Mathlib.Algebra.GroupWithZero.Nat
import Mathlib.Data.List.Perm.Basic
import StackFlow.Memo

/-!
What a memo holds. It is a map from nodes to stacks; what it lists altogether is fixed, up to its
order, by what it holds at each node.
-/

namespace StackFlow

/-- The stacks of a node in a list of stacks with their nodes. -/
def stacksOf (id : Int) (rs : List (Int × Stack)) : List Stack :=
  rs.filterMap fun r => if r.1 = id then some r.2 else none

section StacksOf

variable {id k : Int} {rs : List (Int × Stack)}

@[simp] theorem stacksOf_nil : stacksOf id [] = [] := rfl

@[simp] theorem stacksOf_append (rs ts : List (Int × Stack)) :
    stacksOf id (rs ++ ts) = stacksOf id rs ++ stacksOf id ts := List.filterMap_append

theorem stacksOf_node (ss : List Stack) :
    stacksOf id (ss.map fun s => (k, s)) = if id = k then ss else [] := by
  rw [stacksOf, List.filterMap_map]
  by_cases same : k = id
  · subst same
    simp
  · simp [same, Ne.symm same]

theorem mem_stacksOf {s : Stack} : s ∈ stacksOf id rs ↔ (id, s) ∈ rs := by
  simp only [stacksOf, List.mem_filterMap]
  constructor
  · rintro ⟨⟨k, t⟩, member, picked⟩
    obtain ⟨rfl, same⟩ := Option.ite_none_right_eq_some.mp picked
    cases same
    exact member
  · exact fun member => ⟨(id, s), member, if_pos rfl⟩

end StacksOf

namespace Memo

variable {m m' : Memo} {id k : Int} {a b added : Array Stack}
  {entries : List (Int × Array Stack)}

/-! ## Lookup -/

theorem lookup_apart {e : Int × Array Stack} (apart : k ≠ e.1) :
    (e :: entries).lookup k = entries.lookup k := by
  obtain ⟨key, old⟩ := e
  rw [List.lookup_cons, beq_eq_false_iff_ne.mpr apart]

theorem lookup_here {e : Int × Array Stack} : (e :: entries).lookup e.1 = some e.2 :=
  List.lookup_cons_self

theorem lookup_below (least : ∀ e ∈ entries, k < e.1) : entries.lookup k = none := by
  induction entries with
  | nil => rfl
  | cons e rest ih =>
    have here := least e List.mem_cons_self
    rw [lookup_apart (by omega)]
    exact ih fun f member => least f (List.mem_cons_of_mem e member)

theorem insert_lookup (sorted : entries.Pairwise fun a b => a.1 < b.1) :
    (insert id added entries).lookup k =
      if k = id then some ((entries.lookup id).getD #[] ++ added) else entries.lookup k := by
  induction sorted with
  | nil =>
    by_cases same : k = id
    · simp [insert, same]
    · rw [insert, lookup_apart same, if_neg same]
  | @cons e rest least later ih =>
    obtain ⟨key, old⟩ := e
    unfold insert
    split
    · rename_i less
      have absent : ((key, old) :: rest).lookup id = none := lookup_below fun f member => by
        rcases List.mem_cons.mp member with rfl | member
        · exact less
        · exact Int.lt_trans less (least f member)
      by_cases same : k = id
      · simp [same, absent]
      · rw [lookup_apart same, if_neg same]
    · split
      · rename_i here
        subst here
        by_cases same : k = id
        · simp [same]
        · rw [if_neg same, lookup_apart same, lookup_apart same]
      · rename_i other
        by_cases here : k = key
        · subst here
          simp [Ne.symm other]
        · rw [lookup_apart here, lookup_apart (Ne.symm (Ne.symm other)), ih, lookup_apart here]

theorem find?_add (m : Memo) : (m.add id added).find? k =
    if k = id then some (m.stacksAt id ++ added) else m.find? k := insert_lookup m.sorted

theorem stacksAt_add (m : Memo) : (m.add id added).stacksAt k =
    if k = id then m.stacksAt id ++ added else m.stacksAt k := by
  rw [stacksAt, find?_add]
  split <;> rfl

theorem insert_insert : insert id b (insert id a entries) = insert id (a ++ b) entries := by
  induction entries with
  | nil => simp [insert]
  | cons e rest ih =>
    obtain ⟨key, old⟩ := e
    rw [insert, insert]
    split
    · simp [insert]
    · split
      · rename_i here
        simp [insert, here]
      · rename_i above other
        simp [insert, above, other, ih]

theorem add_add : (m.add id a).add id b = m.add id (a ++ b) := by
  simp [add, insert_insert]

theorem ext_entries (same : m.entries = m'.entries) : m = m' := by
  cases m
  cases same
  rfl

/-! ## All that it holds -/

/-- All stacks with their nodes, by node. -/
def all (m : Memo) : List (Int × Stack) :=
  m.entries.flatMap fun e => e.2.toList.map fun s => (e.1, s)

theorem stacksOf_all (m : Memo) (id : Int) : stacksOf id m.all = (m.stacksAt id).toList := by
  obtain ⟨entries, sorted⟩ := m
  change stacksOf id (entries.flatMap _) = ((entries.lookup id).getD #[]).toList
  induction sorted with
  | nil => rfl
  | @cons e rest least later ih =>
    rw [List.flatMap_cons, stacksOf_append, stacksOf_node, ih]
    by_cases here : id = e.1
    · subst here
      rw [lookup_below least, lookup_here]
      simp
    · rw [if_neg here, lookup_apart here]
      rfl

/-- Lists of stacks with their nodes that have the same stacks at each node differ in their order
alone. -/
theorem perm_of_stacksOf {rs ts : List (Int × Stack)}
    (same : ∀ id, stacksOf id rs = stacksOf id ts) : rs.Perm ts := by
  classical
  have counted (rs : List (Int × Stack)) (id : Int) (s : Stack) :
      rs.count (id, s) = (stacksOf id rs).count s := by
    induction rs with
    | nil => rfl
    | cons r rs ih =>
      obtain ⟨k, t⟩ := r
      unfold stacksOf at ih ⊢
      by_cases here : k = id
      · simp [here, List.count_cons, ih]
      · simp [here, ih]
  refine List.perm_iff_count.mpr fun ⟨id, s⟩ => ?_
  rw [counted, counted, same]

theorem all_perm {rs : List (Int × Stack)}
    (grown : ∀ id, (m'.stacksAt id).toList = (m.stacksAt id).toList ++ stacksOf id rs) :
    m'.all.Perm (m.all ++ rs) := by
  refine perm_of_stacksOf fun id => ?_
  rw [stacksOf_append, stacksOf_all, stacksOf_all, grown]

/-! ## Sizes -/

theorem sizes_lookup (m : Memo) (id : Int) :
    (m.sizes.lookup id).getD 0 = (m.stacksAt id).size := by
  unfold sizes stacksAt find?
  generalize m.entries = entries
  induction entries with
  | nil => rfl
  | cons e rest ih =>
    obtain ⟨key, ss⟩ := e
    by_cases here : id = key
    · simp [here]
    · simpa [List.lookup_cons, beq_eq_false_iff_ne.mpr here] using ih

/-- The sizes of the nodes of a kind add up to what the memo holds there. -/
theorem sizes_sum (p : Int → Bool) (m : Memo) :
    ((m.sizes.filter fun c => p c.1).map (·.2)).sum = m.all.countP fun entry => p entry.1 := by
  unfold sizes all
  generalize m.entries = entries
  induction entries with
  | nil => rfl
  | cons e rest ih =>
    rw [List.flatMap_cons, List.countP_append, ← ih, List.map_cons, List.countP_map]
    cases kind : p e.1 <;> simp [kind, Function.comp_def]

/-! ## Other stacks in their place -/

def map (f : Stack → Stack) (m : Memo) : Memo :=
  ⟨m.entries.map fun e => (e.1, e.2.map f), List.pairwise_map.mpr m.sorted⟩

section Map

variable {f : Stack → Stack}

@[simp] theorem map_empty : Memo.empty.map f = .empty := rfl

theorem map_add (m : Memo) :
    (m.add id added).map f = (m.map f).add id (added.map f) := by
  refine ext_entries ?_
  change (insert id added m.entries).map _ = insert id (added.map f) (m.entries.map _)
  generalize m.entries = entries
  induction entries with
  | nil => rfl
  | cons e rest ih =>
    rw [insert]
    split
    · rename_i less
      simp [insert, less]
    · rename_i above
      split
      · rename_i here
        simp [insert, here]
      · rename_i other
        simp [insert, above, other, ih]

theorem find?_map (m : Memo) : (m.map f).find? id = (m.find? id).map (Array.map f) := by
  change (m.entries.map fun e => (e.1, e.2.map f)).lookup id = (m.entries.lookup id).map _
  generalize m.entries = entries
  induction entries with
  | nil => rfl
  | cons e rest ih =>
    by_cases here : id = e.1
    · subst here
      rw [List.map_cons, lookup_here]
      exact List.lookup_cons_self
    · rw [List.map_cons, lookup_apart here, ← ih]
      exact lookup_apart here

theorem stacksAt_map (m : Memo) : (m.map f).stacksAt id = (m.stacksAt id).map f := by
  rw [stacksAt, find?_map, stacksAt]
  cases m.find? id <;> simp

theorem sizes_map (m : Memo) : (m.map f).sizes = m.sizes := by
  simp [sizes, map, Function.comp_def]

end Map

end Memo

end StackFlow
