import StackFlow.Graph.Flatten

/-!
What code means, without graphs and markers: a relation between a list of visible items and the ways
in which the code can end on it. A block that protects items runs on the list below them; a joint
pops its guard and runs one of its arms, and a loop may come back to its guard.
-/

namespace StackFlow

open Micheline (Instruction Code)

/-- How code ends: with items, or failed for a reason. -/
inductive Ending where
  | done (items : List Item)
  | failed (reason : Item)

/-- The code of an arm of a joint; an arm that is missing is empty. -/
def arm (i : Instruction) (k : Nat) : Code := i.codeArgs[k]?.getD []

/-- A stack of visible items only. -/
def bare (env : Option Env) (items : List Item) : Stack := { visible := items, env }

/-- The item that stands for the rest of a collection while an element of it is looked at. -/
def iterRest (coll : Item) : Item := Joint.payload "ITER.rest" coll.ty coll

def iterElem (coll : Item) : Item := Joint.payload "ITER.elem" (Joint.elementTy coll.ty) coll

mutual

/-- `Exec env code v e`: on the items `v` the code can end with `e`. -/
inductive Exec (env : Option Env) : Code → List Item → Ending → Prop where
  | nil {v : List Item} : Exec env [] v (.done v)
  | cons {i : Instruction} {is : Code} {v w : List Item} {e : Ending} :
      Does env i v (.done w) → Exec env is w e → Exec env (i :: is) v e
  | stop {i : Instruction} {is : Code} {v : List Item} {r : Item} :
      Does env i v (.failed r) → Exec env (i :: is) v (.failed r)

/-- `Does env i v e`: on the items `v` the instruction can end with `e`. -/
inductive Does (env : Option Env) : Instruction → List Item → Ending → Prop where
  | group {i : Instruction} {v : List Item} {e : Ending} :
      i.isGroup = true → Exec env i.body v e → Does env i v e
  | dip {i : Instruction} {top below w : List Item} :
      i.name = "DIP" → (top.length : Int) = dipLevel i → Exec env (dipBody i) below (.done w) →
      Does env i (top ++ below) (.done (top ++ w))
  | dipFails {i : Instruction} {top below : List Item} {r : Item} :
      i.name = "DIP" → (top.length : Int) = dipLevel i → Exec env (dipBody i) below (.failed r) →
      Does env i (top ++ below) (.failed r)
  | apply {i : Instruction} {v : List Item} {s : Stack} :
      i.name ≠ "FAILWITH" → (Stack.step i).run (bare env v) = .ok () s →
      Does env i v (.done s.visible)
  | failWith {i : Instruction} {r : Item} {rest : List Item} :
      i.name = "FAILWITH" → Does env i (r :: rest) (.failed r)
  | first {i : Instruction} {j : Joint} {v : List Item} {a b t : Stack} {e : Ending} :
      Joint.ofName? i.name = some j → j.isLoop = false →
      (Stack.split i.name).run (bare env v) = .ok (a, b) t → Exec env (arm i 0) a.visible e →
      Does env i v e
  | second {i : Instruction} {j : Joint} {v : List Item} {a b t : Stack} {e : Ending} :
      Joint.ofName? i.name = some j → j.isLoop = false →
      (Stack.split i.name).run (bare env v) = .ok (a, b) t → Exec env (arm i 1) b.visible e →
      Does env i v e
  | exit {i : Instruction} {j : Joint} {v : List Item} {a b t : Stack} :
      Joint.ofName? i.name = some j → j.isLoop = true → j ≠ .iter →
      (Stack.split i.name).run (bare env v) = .ok (a, b) t → Does env i v (.done b.visible)
  | again {i : Instruction} {j : Joint} {v w : List Item} {a b t : Stack} {e : Ending} :
      Joint.ofName? i.name = some j → j.isLoop = true → j ≠ .iter →
      (Stack.split i.name).run (bare env v) = .ok (a, b) t →
      Exec env (arm i 0) a.visible (.done w) →
      Does env i w e → Does env i v e
  | againFails {i : Instruction} {j : Joint} {v : List Item} {a b t : Stack} {r : Item} :
      Joint.ofName? i.name = some j → j.isLoop = true → j ≠ .iter →
      (Stack.split i.name).run (bare env v) = .ok (a, b) t →
      Exec env (arm i 0) a.visible (.failed r) →
      Does env i v (.failed r)
  | over {i : Instruction} {coll : Item} {rest : List Item} :
      Joint.ofName? i.name = some .iter → Does env i (coll :: rest) (.done rest)
  | next {i : Instruction} {coll : Item} {rest w : List Item} {e : Ending} :
      Joint.ofName? i.name = some .iter → Exec env (arm i 0) (iterElem coll :: rest) (.done w) →
      Does env i (iterRest coll :: w) e → Does env i (coll :: rest) e
  | nextFails {i : Instruction} {coll : Item} {rest : List Item} {r : Item} :
      Joint.ofName? i.name = some .iter → Exec env (arm i 0) (iterElem coll :: rest) (.failed r) →
      Does env i (coll :: rest) (.failed r)

end

/-- Code one of whose instructions is done in another way ends as that way does. -/
theorem exec_head {env : Option Env} {i : Instruction} {is : Code} {v w : List Item} {e : Ending}
    (back : ∀ e, Does env i w e → Does env i v e) (run : Exec env (i :: is) w e) :
    Exec env (i :: is) v e := by
  cases run with
  | cons first rest => exact .cons (back _ first) rest
  | stop first => exact .stop (back _ first)

end StackFlow
