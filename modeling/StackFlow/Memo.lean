import StackFlow.Stack

/-!
Stacks by the node that put them out.
-/

namespace StackFlow

/-- A list of nodes, each once and in order, with the stacks of each in order of arrival. -/
structure Memo where
  entries : List (Int × Array Stack)
  sorted : entries.Pairwise fun a b => a.1 < b.1

namespace Memo

def empty : Memo := ⟨[], .nil⟩

/-- Puts stacks behind those of a node. -/
def insert (id : Int) (added : Array Stack) :
    List (Int × Array Stack) → List (Int × Array Stack)
  | [] => [(id, added)]
  | (k, old) :: rest =>
    if id < k then (id, added) :: (k, old) :: rest
    else if id = k then (k, old ++ added) :: rest
    else (k, old) :: insert id added rest

theorem insert_key {id : Int} {added : Array Stack} {entries : List (Int × Array Stack)}
    {e : Int × Array Stack} (member : e ∈ insert id added entries) :
    e.1 = id ∨ ∃ f ∈ entries, e.1 = f.1 := by
  induction entries with
  | nil =>
    cases List.mem_singleton.mp member
    exact .inl rfl
  | cons f rest ih =>
    unfold insert at member
    split at member
    · rcases List.mem_cons.mp member with rfl | member
      · exact .inl rfl
      · exact .inr ⟨e, member, rfl⟩
    · split at member
      · rcases List.mem_cons.mp member with rfl | member
        · exact .inr ⟨f, List.mem_cons_self, rfl⟩
        · exact .inr ⟨e, List.mem_cons_of_mem f member, rfl⟩
      · rcases List.mem_cons.mp member with rfl | member
        · exact .inr ⟨f, List.mem_cons_self, rfl⟩
        · rcases ih member with same | ⟨d, among, same⟩
          · exact .inl same
          · exact .inr ⟨d, List.mem_cons_of_mem f among, same⟩

theorem insert_sorted {id : Int} {added : Array Stack} {entries : List (Int × Array Stack)}
    (sorted : entries.Pairwise fun a b => a.1 < b.1) :
    (insert id added entries).Pairwise fun a b => a.1 < b.1 := by
  induction sorted with
  | nil => exact List.pairwise_singleton _ _
  | @cons e rest least later ih =>
    unfold insert
    split
    · rename_i less
      refine .cons ?_ (.cons least later)
      intro d member
      rcases List.mem_cons.mp member with rfl | member
      · exact less
      · exact Int.lt_trans less (least d member)
    · split
      · exact .cons least later
      · refine .cons ?_ ih
        intro d member
        rcases insert_key member with same | ⟨f, among, same⟩
        · change e.1 < d.1
          omega
        · change e.1 < d.1
          rw [same]
          exact least f among

/-- Puts stacks behind those of a node. -/
def add (id : Int) (added : Array Stack) (m : Memo) : Memo :=
  ⟨insert id added m.entries, insert_sorted m.sorted⟩

def find? (m : Memo) (id : Int) : Option (Array Stack) := m.entries.lookup id

/-- The stacks of a node, none if it is not there. -/
def stacksAt (m : Memo) (id : Int) : Array Stack := (m.find? id).getD #[]

/-- The number of stacks at each node. -/
def sizes (m : Memo) : List (Int × Nat) := m.entries.map fun (id, ss) => (id, ss.size)

end Memo

end StackFlow
