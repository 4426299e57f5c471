import StackFlow.Proofs.Bottom

/-!
Instructions do not see the items that a block protects. A stack with protected items on top is
compared with one that has its visible items only. Main statement: under every instruction but the
marker, and along both edges of every joint, the two end alike, and the protected items stay.
-/

namespace StackFlow

open Micheline (Instruction)

/-- `s.Covers p n t u`: the first stack hides its topmost `n` items, and the second has the same items
hidden and visible, under the items `p`, which it hides as well. Both have the trail and the
environment of `s`. -/
def Stack.Covers (s : Stack) (p : List Item) (n : Nat) (t u : Stack) : Prop :=
  ∃ w, t = s.arranged w n ∧ u = s.arranged (p ++ w) (p.length + n)

/-- Two outcomes agree: both actions succeed with related results, or both give up for one reason and
leave related stacks. -/
def SameEnd {α : Type} (results : α → Stack → α → Stack → Prop) (left : Stack → Stack → Prop) :
    EStateM.Result Fault Stack α → EStateM.Result Fault Stack α → Prop
  | .ok x t, .ok y u => results x t y u
  | .error e t, .error e' u => e = e' ∧ left t u
  | _, _ => False

section Stacks

variable {s : Stack} {p v w : List Item}

/-- A stack of protected and visible items. -/
theorem arranged_split (s : Stack) (p v : List Item) : s.arranged (p ++ v) p.length =
    { s with hidden := p, visible := v, beyond := 0 } := by
  simp [Stack.arranged, Stack.ofItems]

theorem arranged_shown (s : Stack) (v : List Item) : s.arranged v 0 =
    { s with hidden := [], visible := v, beyond := 0 } := arranged_split s [] v

theorem covers_visible (s : Stack) (p w : List Item) :
    s.Covers p 0 { s.arranged v 0 with visible := w }
      { s.arranged (p ++ v) p.length with visible := w } := by
  refine ⟨w, ?_, ?_⟩
  · rw [arranged_shown, arranged_shown]
  · rw [arranged_split, Nat.add_zero, arranged_split]

theorem covers_self (s : Stack) (p v : List Item) :
    s.Covers p 0 (s.arranged v 0) (s.arranged (p ++ v) p.length) := ⟨v, rfl, rfl⟩

end Stacks

section Blind

variable {s : Stack} {p v : List Item} {i : Instruction}

/-- A plain action on the visible items alone and under protected ones. -/
theorem plain_covers {a : Action Unit} (plain : Plain (fun _ => True) (fun _ => True) a) :
    SameEnd (fun _ t _ u => s.Covers p 0 t u) (s.Covers p 0)
      (a.run (s.arranged v 0)) (a.run (s.arranged (p ++ v) p.length)) := by
  have within : (s.arranged (p ++ v) p.length).beyond = 0 := by rw [arranged_split]
  have same : (s.arranged v 0).visible = (s.arranged (p ++ v) p.length).visible := by
    rw [arranged_split, arranged_shown]
  obtain ⟨r, w, first, second, _⟩ := plain (s.arranged v 0) (s.arranged (p ++ v) p.length)
    (by rw [arranged_shown]) within rfl same fun _ _ => trivial
  rw [first, second]
  cases r with
  | ok x => exact covers_visible s p w
  | error e => exact ⟨rfl, covers_visible s p w⟩

theorem failWith_covers (s : Stack) (p v : List Item) (i : Instruction) :
    SameEnd (fun _ t _ u => ∃ reason, v.head? = some reason ∧
        t = s.arranged [Item.failure reason] 0 ∧ u = t) (s.Covers p 0)
      ((Rule.run i .failWith).run (s.arranged v 0))
      ((Rule.run i .failWith).run (s.arranged (p ++ v) p.length)) := by
  have first := arranged_shown s v
  have second := arranged_split s p v
  cases v with
  | nil =>
    rw [run_failWith_empty (by rw [first]) (by rw [first]),
      run_failWith_empty (by rw [second]) (by rw [second])]
    exact ⟨rfl, covers_self s p []⟩
  | cons reason rest =>
    rw [run_failWith (by rw [first]) (by rw [first]), run_failWith (by rw [second]) (by rw [second])]
    exact ⟨reason, rfl, rfl, rfl⟩

theorem step_covers (unmarked : isMarker i = false) :
    SameEnd (fun _ t _ u =>
        if i.name = "FAILWITH" then
          ∃ reason, v.head? = some reason ∧ t = s.arranged [Item.failure reason] 0 ∧ u = t
        else s.Covers p 0 t u) (s.Covers p 0)
      ((Stack.step i).run (s.arranged v 0)) ((Stack.step i).run (s.arranged (p ++ v) p.length)) := by
  by_cases fails : i.name = "FAILWITH"
  · simp only [if_pos fails, step_failWith fails]
    exact failWith_covers s p v i
  · simp only [if_neg fails]
    unfold Stack.step
    cases found : Rule.ofName? i.name with
    | none => exact ⟨rfl, covers_self s p v⟩
    | some r =>
      have entry := table_plain _ (ofName?_mem found)
      have marker : (i.name == "CURSOR") = false := unmarked
      have plain : r.isPlain := by simpa [bne, marker, beq_false_of_ne fails] using entry
      exact plain_covers (run_plain closed_true (fun _ _ _ _ => trivial) found plain)

end Blind

/-! ## Joints -/

section Joints

variable {s : Stack} {p v rest : List Item} {guard : Item} {j : Joint} {name : String}

theorem pushAll_covers (s : Stack) (p v rest xs : List Item) :
    s.Covers p 0 (Joint.pushAll { s.arranged v 0 with visible := rest } xs)
      (Joint.pushAll { s.arranged (p ++ v) p.length with visible := rest } xs) :=
  covers_visible s p (xs.reverse ++ rest)

/-- The body of an iteration is entered with one more item hidden, if a machine can count them. -/
theorem enterBody_arranged (fits : ((p.length + 1 : Nat) : Int) ≤ greatestWord) :
    (Joint.enterBody guard).run (s.arranged (p ++ rest) p.length) =
      .ok () (s.arranged (p ++ Joint.payload "ITER.rest" guard.ty guard ::
        Joint.payload "ITER.elem" (Joint.elementTy guard.ty) guard :: rest) (p.length + 1)) := by
  have moved : wrap (((p.length : Nat) : Int) + 1) = (p.length + 1 : Nat) := by
    apply wrap_eq
    · unfold leastWord
      omega
    · exact fits
  have joined (x : Item) (xs : List Item) : s.arranged (p ++ x :: xs) (p.length + 1) =
      { s with hidden := p ++ [x], visible := xs, beyond := 0 } := by
    have split := arranged_split s (p ++ [x]) xs
    simpa using split
  have pushed (x : Item) : { s.arranged (p ++ rest) p.length with
      visible := x :: (s.arranged (p ++ rest) p.length).visible, beyond := 0 } =
      s.arranged (p ++ x :: rest) p.length := by
    rw [arranged_split, arranged_split]
  have shifted (x : Item) : (Action.shift 1).run (s.arranged (p ++ x :: rest) p.length) =
      .ok () (s.arranged (p ++ x :: rest) (p.length + 1)) := by
    rw [run_shift_arranged (m := p.length + 1)]
    · rw [items_arranged, arranged_arranged]
    · rw [cursor_arranged, moved]
    · rw [items_arranged, List.length_append, List.length_cons]
      omega
  have within : (s.arranged (p ++ rest) p.length).beyond = 0 := by rw [arranged_split]
  rw [enterBody_of_shift (pushed _) within (shifted _), joined, joined]

theorem split_covers (fits : name = Joint.iter.name → ((p ++ v).length : Int) ≤ greatestWord) :
    SameEnd (fun x _ y _ => s.Covers p (if name = Joint.iter.name then 1 else 0) x.1 y.1 ∧
        s.Covers p 0 x.2 y.2) (s.Covers p 0)
      ((Stack.split name).run (s.arranged v 0))
      ((Stack.split name).run (s.arranged (p ++ v) p.length)) := by
  have first := arranged_shown s v
  have second := arranged_split s p v
  unfold Stack.split
  cases found : Joint.ofName? name with
  | none => exact ⟨rfl, covers_self s p v⟩
  | some j =>
    have named := Joint.ofName?_name found
    cases v with
    | nil =>
      dsimp only
      rw [Joint.run_branch_empty j (by rw [first]) (by rw [first]),
        Joint.run_branch_empty j (by rw [second]) (by rw [second])]
      exact ⟨rfl, covers_self s p []⟩
    | cons guard rest =>
      dsimp only
      have left : { s.arranged (guard :: rest) 0 with visible := rest } = s.arranged rest 0 := by
        rw [arranged_shown, arranged_shown]
      have right : { s.arranged (p ++ guard :: rest) p.length with visible := rest } =
          s.arranged (p ++ rest) p.length := by
        rw [arranged_split, arranged_split]
      by_cases iter : j = .iter
      · subst iter
        have room := fits named.symm
        simp only [List.length_append, List.length_cons] at room
        have alone := @enterBody_arranged s [] rest guard (by decide)
        have covered := @enterBody_arranged s p rest guard (by omega)
        rw [Joint.run_branch_iter (by rw [first]) (by rw [first]),
          Joint.run_branch_iter (by rw [second]) (by rw [second]), left, right,
          Joint.run_beside, Joint.run_beside, covered, if_pos named.symm]
        rw [List.nil_append, List.length_nil] at alone
        rw [alone]
        exact ⟨⟨_, rfl, rfl⟩, covers_self s p rest⟩
      · have other : name ≠ Joint.iter.name := by
          intro same
          rw [same] at found
          exact iter (Option.some.inj (found.symm.trans rfl))
        rw [Joint.run_branch (by rw [first]) (by rw [first]) iter,
          Joint.run_branch (by rw [second]) (by rw [second]) iter, if_neg other]
        exact ⟨pushAll_covers s p _ rest _, pushAll_covers s p _ rest _⟩

end Joints

/-- Under every instruction but the marker, and along both edges of every joint, a stack with
protected items ends as its visible items alone do, and for one reason where they do not; the
protected items, the path and the environment stay. A failure leaves the same stack of both, and the
first edge of an iteration hides one more item below the protected ones. -/
theorem instructions_blind (s : Stack) (p v : List Item) :
    (∀ i, isMarker i = false →
      SameEnd (fun _ t _ u =>
          if i.name = "FAILWITH" then
            ∃ reason, v.head? = some reason ∧ t = s.arranged [Item.failure reason] 0 ∧ u = t
          else s.Covers p 0 t u) (s.Covers p 0)
        ((Stack.step i).run (s.arranged v 0))
        ((Stack.step i).run (s.arranged (p ++ v) p.length))) ∧
    ∀ name, (name = Joint.iter.name → ((p ++ v).length : Int) ≤ greatestWord) →
      SameEnd (fun x _ y _ => s.Covers p (if name = Joint.iter.name then 1 else 0) x.1 y.1 ∧
          s.Covers p 0 x.2 y.2) (s.Covers p 0)
        ((Stack.split name).run (s.arranged v 0))
        ((Stack.split name).run (s.arranged (p ++ v) p.length)) := by
  constructor
  · intro i unmarked
    exact step_covers unmarked
  · intro name fits
    exact split_covers fits

def shelteredItem : Item := .ofText Ty.bool "kept"

def shownList : Item := .ofText (.app "list" [Ty.nat]) "numbers"

/-- A list below a protected item: doubled, and at the joint of an iteration. -/
theorem sheltered_list_blind :
    (∃ t u, (Stack.step (.op "DUP" [] [])).run (({} : Stack).arranged [shownList] 0) = .ok () t ∧
      (Stack.step (.op "DUP" [] [])).run (({} : Stack).arranged ([shelteredItem] ++ [shownList]) 1) =
        .ok () u ∧ ({} : Stack).Covers [shelteredItem] 0 t u) ∧
    ∃ x y t u, (Stack.split "ITER").run (({} : Stack).arranged [shownList] 0) = .ok x t ∧
      (Stack.split "ITER").run (({} : Stack).arranged ([shelteredItem] ++ [shownList]) 1) = .ok y u ∧
      ({} : Stack).Covers [shelteredItem] 1 x.1 y.1 ∧
      ({} : Stack).Covers [shelteredItem] 0 x.2 y.2 := by
  obtain ⟨steps, splits⟩ := instructions_blind {} [shelteredItem] [shownList]
  constructor
  · have doubled := steps (.op "DUP" [] []) rfl
    exact ⟨_, _, rfl, rfl, doubled⟩
  · have entered := splits "ITER" fun _ => by decide
    exact ⟨_, _, _, _, rfl, rfl, entered⟩

end StackFlow
