import StackFlow.Proofs.Bottom

/-!
Integers as arguments of instructions. An argument that is no machine word counts as none, so the
instruction takes its default. Main statement: for which integers each instruction succeeds, and
where it acts.
-/

namespace StackFlow

open Micheline (Arg Code Instruction)

/-- An instruction with an integer as its first argument. -/
def numbered (name : String) (annots : List String) (t : String) (rest : List Arg) : Instruction :=
  .op name annots (.literal (.int t) :: rest)

/-- What an instruction takes an integer for: its default, if the integer is no word. -/
def taken (n dflt : Int) : Int := if fitsWord n then n else dflt

/-- In its range an action leaves one stack, and elsewhere it fails. -/
structure Performs (a : Action Unit) (s : Stack) (range : Prop) (after : Stack) : Prop where
  acts : range → a.run s = .ok () after
  fails : ¬ range → ∃ e t, a.run s = .error e t

section Taken

variable {t : String} {n dflt : Int} {annots : List String} {rest : List Arg}

theorem intArg_numbered (read : Decimal.readInteger? t = some n) (name : String) :
    (numbered name annots t rest).intArg 0 dflt = taken n dflt := by
  change (Decimal.readWord? t).getD dflt = taken n dflt
  rw [Decimal.readWord?, read, taken, Option.filter_some]
  split <;> rfl

theorem taken_word (lower : leastWord ≤ dflt) (upper : dflt ≤ greatestWord) :
    leastWord ≤ taken n dflt ∧ taken n dflt ≤ greatestWord := by
  unfold taken
  split
  · rename_i fits
    exact fitsWord_iff.mp fits
  · exact ⟨lower, upper⟩

theorem flatten_numbered (read : Decimal.readInteger? t = some n) :
    ∃ code, flatten [numbered "DIP" annots t rest] = marker (taken n 1) :: code := by
  have level : dipLevel (numbered "DIP" annots t rest) = taken n 1 := intArg_numbered read "DIP"
  rw [flatten_dip (by rfl) (by rfl), level]
  exact ⟨_, rfl⟩

end Taken

/-! ## Positions -/

section Positions

variable {s : Stack} {i : Instruction} {k : Int}

theorem performs_ok {a : Action Unit} {range : Prop} {after : Stack} (inside : range)
    (accepted : a.run s = .ok () after) : Performs a s range after :=
  ⟨fun _ => accepted, fun outside => absurd inside outside⟩

theorem performs_error {a : Action Unit} {range : Prop} {after t : Stack} {e : Fault}
    (outside : ¬ range) (refused : a.run s = .error e t) : Performs a s range after :=
  ⟨fun inside => absurd inside outside, fun _ => ⟨e, t, refused⟩⟩

variable (place : s.beyond = 0 ∨ 0 < s.beyond ∧ s.visible = [])

include place

theorem within_of_depth (deep : 0 ≤ s.depth) : s.beyond = 0 := by
  rcases place with within | ⟨outside, none⟩
  · exact within
  · simp only [Stack.depth, none, List.length_nil] at deep
    omega

theorem run_peek_inside (lower : 0 ≤ k) (upper : k < s.depth) :
    (Action.peek k).run s = .ok (s.visible.getD k.toNat .absent) s := by
  have within := within_of_depth place (by omega)
  rw [Stack.depth, within] at upper
  have inside : k.toNat < s.visible.length := by omega
  rw [Action.run_peek, if_neg (by omega), List.getD_eq_getElem?_getD,
    List.getElem?_eq_getElem inside]
  rfl

theorem run_peek_outside (outside : ¬ (0 ≤ k ∧ k < s.depth)) :
    (Action.peek k).run s = .error (.underflow k s.depth) s := by
  rw [Action.run_peek]
  split
  · rfl
  · have none : s.visible[k.toNat]? = none := by
      apply List.getElem?_eq_none
      rcases place with within | ⟨_, none⟩
      · rw [Stack.depth, within] at outside
        omega
      · rw [none]
        exact Nat.zero_le _
    rw [none]

theorem run_popAt_inside (lower : 0 ≤ k) (upper : k < s.depth) :
    (Action.popAt k).run s = .ok (s.visible.getD k.toNat .absent)
      { s with visible := s.visible.eraseIdx k.toNat } := by
  unfold Action.popAt
  rw [Action.run_bind, run_peek_inside place lower upper]
  rfl

theorem run_popAt_outside (outside : ¬ (0 ≤ k ∧ k < s.depth)) :
    (Action.popAt k).run s = .error (.underflow k s.depth) s := by
  unfold Action.popAt
  rw [Action.run_bind, run_peek_outside place outside]

/-! ## Instructions -/

theorem dup_performs (i : Instruction) : Performs (Rule.run i .dup) s
    (1 ≤ i.intArg 0 1 ∧ i.intArg 0 1 ≤ s.depth)
    { s with visible := s.visible.getD (i.intArg 0 1 - 1).toNat .absent :: s.visible } := by
  simp only [Rule.run]
  generalize i.intArg 0 1 = n
  by_cases low : n < 1
  · apply performs_error (e := .badLevel n) (t := s) (by omega)
    rw [if_pos low]
    rfl
  · rw [if_neg low]
    by_cases deep : n ≤ s.depth
    · have within := within_of_depth place (by omega)
      apply performs_ok ⟨by omega, deep⟩
      rw [Action.run_bind, run_peek_inside place (by omega) (by omega)]
      exact Action.run_push_shown _ within
    · apply performs_error (by omega)
      rw [Action.run_bind, run_peek_outside place (by omega)]

omit place in
theorem drop_performs (i : Instruction) : Performs (Rule.run i .drop) s
    (0 ≤ i.intArg 0 1 ∧ i.intArg 0 1 ≤ s.depth)
    { s with visible := s.visible.drop (i.intArg 0 1).toNat } := by
  simp only [Rule.run]
  generalize i.intArg 0 1 = n
  by_cases inside : 0 ≤ n ∧ n ≤ s.depth
  · apply performs_ok inside
    rw [Action.run_bind, Action.run_pop, if_neg (by simp; omega)]
    rfl
  · apply performs_error inside
    rw [Action.run_bind, Action.run_pop, if_pos (by simp; omega)]

theorem dig_performs (i : Instruction) : Performs (Rule.run i .dig) s
    (0 ≤ i.intArg 0 0 ∧ i.intArg 0 0 < s.depth)
    { s with visible := s.visible.getD (i.intArg 0 0).toNat .absent ::
      s.visible.eraseIdx (i.intArg 0 0).toNat } := by
  simp only [Rule.run]
  generalize i.intArg 0 0 = n
  by_cases inside : 0 ≤ n ∧ n < s.depth
  · have within := within_of_depth place (by omega)
    apply performs_ok inside
    rw [Action.run_bind, run_popAt_inside place inside.1 inside.2]
    exact Action.run_push_shown _ within
  · apply performs_error inside
    rw [Action.run_bind, run_popAt_outside place inside]

theorem dug_performs (i : Instruction) : Performs (Rule.run i .dug) s
    (0 ≤ i.intArg 0 0 ∧ i.intArg 0 0 < s.depth)
    { s with visible := s.visible.tail.insertIdx (i.intArg 0 0).toNat (s.visible.headD .absent) } := by
  simp only [Rule.run]
  generalize i.intArg 0 0 = n
  by_cases inside : 0 ≤ n ∧ n < s.depth
  · have within := within_of_depth place (by omega)
    apply performs_ok inside
    change EStateM.run (if s.depth ≤ n then _ else _) s = _
    rw [if_neg (by omega), Action.run_bind, run_popAt_inside place (by omega) (by omega)]
    dsimp only
    rw [Action.run_pushAt, if_neg, Int.toNat_zero, List.eraseIdx_zero]
    · cases s.visible <;> rfl
    · rw [Stack.depth, within] at inside
      simp [Stack.depth, within]
      omega
  · by_cases deep : s.depth ≤ n
    · apply performs_error (e := .underflow n s.depth) (t := s) inside
      change EStateM.run (if s.depth ≤ n then _ else _) s = _
      rw [if_pos deep]
      rfl
    · have refuses (u : Stack) (x : Item) :
          (Action.pushAt n x).run u = .error (.underflow n u.depth) u := by
        rw [Action.run_pushAt, if_pos (by simp; omega)]
      constructor
      · exact fun within => absurd within inside
      · intro _
        change ∃ e t, EStateM.run (if s.depth ≤ n then _ else _) s = .error e t
        rw [if_neg deep, Action.run_bind]
        cases (Action.popAt 0).run s with
        | ok x u => exact ⟨_, _, refuses u x⟩
        | error e u => exact ⟨_, _, rfl⟩

omit place in
theorem marker_performs {m : Int} (base : Stack) (items : List Item) (cursor : Nat)
    (held : (items.length : Int) ≤ greatestWord) (placed : (cursor : Int) ≤ greatestWord)
    (lower : leastWord ≤ m) (upper : m ≤ greatestWord) :
    Performs (Stack.step (marker m)) (base.arranged items cursor)
      (-cursor ≤ m ∧ m ≤ (base.arranged items cursor).depth)
      (base.arranged items (cursor + m).toNat) := by
  rw [step_marker lower upper]
  have depth : (base.arranged items cursor).depth = items.length - cursor := by
    simp only [Stack.depth, Stack.arranged, Stack.ofItems, List.length_drop]
    omega
  rw [depth]
  by_cases inside : -(cursor : Int) ≤ m ∧ m ≤ items.length - cursor
  · apply performs_ok inside
    obtain ⟨place, same⟩ := Int.eq_ofNat_of_zero_le (a := cursor + m) (by omega)
    have moved : wrap (((base.arranged items cursor).cursor : Int) + m) = place := by
      rw [cursor_arranged, same]
      exact wrap_eq (by unfold leastWord; omega) (by omega)
    rw [run_shift_arranged moved (by rw [items_arranged]; omega), items_arranged, arranged_arranged,
      same, Int.toNat_natCast]
  · apply performs_error inside
    rw [Action.run_shift, cursor_arranged, items_arranged, if_pos]
    by_cases high : greatestWord < cursor + m
    · have negative := wrap_above high (by omega)
      simp [negative]
    · rw [wrap_eq (by unfold leastWord at lower ⊢; omega) (by omega)]
      simp only [Bool.or_eq_true, decide_eq_true_eq]
      omega

end Positions

/-- The instructions that take an integer, on any stack and for any integer. `DUP` reaches a position
from one on, `DIG` and `DUG` one from zero on, `DROP` takes a count, all within the visible items. The
marker of a `DIP` moves the boundary by what it takes within all items. -/
theorem integers_as_arguments {t : String} {n : Int} (read : Decimal.readInteger? t = some n)
    (annots : List String) (rest : List Arg) (base : Stack) (items : List Item) (cursor : Nat)
    (held : (items.length : Int) ≤ greatestWord) (placed : (cursor : Int) ≤ greatestWord) :
    let s := base.arranged items cursor
    let applied := fun name => Stack.step (numbered name annots t rest)
    Performs (applied "DUP") s (1 ≤ taken n 1 ∧ taken n 1 ≤ s.depth)
      { s with visible := s.visible.getD (taken n 1 - 1).toNat .absent :: s.visible } ∧
    Performs (applied "DROP") s (0 ≤ taken n 1 ∧ taken n 1 ≤ s.depth)
      { s with visible := s.visible.drop (taken n 1).toNat } ∧
    Performs (applied "DIG") s (0 ≤ taken n 0 ∧ taken n 0 < s.depth)
      { s with visible := s.visible.getD (taken n 0).toNat .absent ::
        s.visible.eraseIdx (taken n 0).toNat } ∧
    Performs (applied "DUG") s (0 ≤ taken n 0 ∧ taken n 0 < s.depth)
      { s with visible :=
        s.visible.tail.insertIdx (taken n 0).toNat (s.visible.headD .absent) } ∧
    (∃ code, flatten [numbered "DIP" annots t rest] = marker (taken n 1) :: code) ∧
    Performs (Stack.step (marker (taken n 1))) s (-cursor ≤ taken n 1 ∧ taken n 1 ≤ s.depth)
      (base.arranged items (cursor + taken n 1).toNat) := by
  have place := arranged_place base items cursor
  have dup := dup_performs place (numbered "DUP" annots t rest)
  have drop := drop_performs (numbered "DROP" annots t rest) (s := base.arranged items cursor)
  have dig := dig_performs place (numbered "DIG" annots t rest)
  have dug := dug_performs place (numbered "DUG" annots t rest)
  rw [intArg_numbered read] at dup drop dig dug
  obtain ⟨lower, upper⟩ := @taken_word n 1 (by decide) (by decide)
  exact ⟨dup, drop, dig, dug, flatten_numbered read,
    marker_performs base items cursor held placed lower upper⟩

def namedItem (name : String) : Item := .ofText Ty.nat name

/-- Below one hidden item the first of three is put at position two, and no fourth can be dropped. -/
theorem third_position_reached :
    (Stack.step (numbered "DUG" [] "2" [])).run
        (({} : Stack).arranged (["a", "b", "c", "d"].map namedItem) 1) =
      .ok () (({} : Stack).arranged (["a", "c", "d", "b"].map namedItem) 1) ∧
    ∃ e t, (Stack.step (numbered "DROP" [] "4" [])).run
      (({} : Stack).arranged (["a", "b", "c", "d"].map namedItem) 1) = .error e t := by
  have two : Decimal.readInteger? "2" = some 2 := by decide
  have four : Decimal.readInteger? "4" = some 4 := by decide
  obtain ⟨_, _, _, dug, _⟩ := integers_as_arguments two [] [] {}
    (["a", "b", "c", "d"].map namedItem) 1 (by decide) (by decide)
  obtain ⟨_, drop, _⟩ := integers_as_arguments four [] [] {}
    (["a", "b", "c", "d"].map namedItem) 1 (by decide) (by decide)
  exact ⟨dug.acts (by decide), drop.fails (by decide)⟩

/-- One number, with a cursor. -/
def oneNumber (cursor : Nat) : Stack := ({} : Stack).arranged [.ofText Ty.nat "one"] cursor

/-- `DIG` takes the least integer that is no word for position zero, and the marker of a `DIP` goes
back by an item that is hidden. -/
theorem integers_not_meant :
    Decimal.readInteger? "9223372036854775808" = some 9223372036854775808 ∧
    (∀ after, ¬ Performs (Stack.step (numbered "DIG" [] "9223372036854775808" [])) (oneNumber 0)
      (0 ≤ (9223372036854775808 : Int) ∧ 9223372036854775808 < (oneNumber 0).depth) after) ∧
    Decimal.readInteger? "-1" = some (-1) ∧
    flatten [numbered "DIP" [] "-1" []] = [marker (-1), marker 1] ∧
    ∀ after, ¬ Performs (Stack.step (marker (-1))) (oneNumber 1)
      (0 ≤ (-1 : Int) ∧ -1 ≤ (oneNumber 1).depth) after := by
  have digs : (Stack.step (numbered "DIG" [] "9223372036854775808" [])).run (oneNumber 0) =
      .ok () (oneNumber 0) := by
    rfl
  have back : (Stack.step (marker (-1))).run (oneNumber 1) = .ok () (oneNumber 0) := by
    rfl
  refine ⟨by decide, ?_, by decide, by cbv, ?_⟩
  · intro after performs
    obtain ⟨e, t, refused⟩ := performs.fails (by decide)
    cases digs.symm.trans refused
  · intro after performs
    obtain ⟨e, t, refused⟩ := performs.fails (by decide)
    cases back.symm.trans refused

end StackFlow
