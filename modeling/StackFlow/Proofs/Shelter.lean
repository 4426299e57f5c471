import StackFlow.Proofs.Blocks

/-!
Items that stay hidden. While the boundary stays behind them, whatever happens to a stack leaves its
topmost items where they are, and happens in the same way whatever they are. Main statement: while a
stack is on its way through code whose markers do not take the boundary back in front of those items,
they stay; and all markers that it meets belong to a block or to an iteration of the code.
-/

namespace StackFlow

open Micheline (Instruction Code)

/-- The stack with further items hidden above it. -/
def Stack.under (s : Stack) (kept : List Item) : Stack := { s with hidden := kept ++ s.hidden }

/-- The nested markers of the code do not take the boundary back in front of where it was. -/
def Sheltered (code : Code) : Prop := ∀ r c, Nested code r c → 0 ≤ r

/-! ## Instructions and joints -/

section Actions

variable {u t x y : Stack} {kept : List Item} {i : Instruction} {n : Int}

theorem step_under (within : u.beyond = 0) (unmarked : isMarker i = false)
    (stepped : (Stack.step i).run (u.under kept) = .ok () t) (alive : t.isFailed = false) :
    ∃ w : Stack, t = w.under kept ∧ w.beyond = 0 ∧ w.hidden = u.hidden ∧
      ∀ other, (Stack.step i).run (u.under other) = .ok () (w.under other) := by
  have goes : i.name ≠ "FAILWITH" := by
    intro fails
    rw [step_failWith fails] at stepped
    cases shown : u.visible with
    | nil =>
      have empty : (Rule.run i .failWith).run (u.under kept) = _ := run_failWith_empty within shown
      cases empty.symm.trans stepped
    | cons reason rest =>
      have drops : (Rule.run i .failWith).run (u.under kept) = _ := run_failWith within shown
      cases drops.symm.trans stepped
      simp [failWith_failed] at alive
  unfold Stack.step at stepped ⊢
  cases found : Rule.ofName? i.name with
  | none =>
    rw [found] at stepped
    cases stepped
  | some r =>
    rw [found] at stepped
    have plain : r.isPlain := by
      have entry := table_plain _ (ofName?_mem found)
      have marker : (i.name == "CURSOR") = false := unmarked
      simpa [bne, marker, beq_false_of_ne goes] using entry
    have alike (other : List Item) :=
      run_plain (i := i) closed_true (fun _ _ _ _ => trivial) found plain (u.under kept)
        (u.under other) within within rfl rfl (fun _ _ => trivial)
    have result (other : List Item) : t = { u with visible := t.visible }.under kept ∧
        (r.run i).run (u.under other) = .ok () ({ u with visible := t.visible }.under other) := by
      obtain ⟨result, v, run, same, _⟩ := alike other
      cases result with
      | error e => cases run.symm.trans stepped
      | ok x =>
        cases run.symm.trans stepped
        exact ⟨rfl, same⟩
    exact ⟨{ u with visible := t.visible }, (result []).1, within, rfl, fun other => (result other).2⟩

/-- A boundary that does not come back in front of the items above moves below them. -/
theorem shift_under (within : u.beyond = 0)
    (narrow : ((kept.length + u.hidden.length : Nat) : Int) ≤ greatestWord)
    (lower : leastWord ≤ n) (upper : n ≤ greatestWord)
    (below : kept = [] ∨ 0 ≤ u.hidden.length + n)
    (shifted : (Action.shift n).run (u.under kept) = .ok () t) :
    ∃ w : Stack, t = w.under kept ∧ w.beyond = 0 ∧ (w.hidden.length : Int) = u.hidden.length + n ∧
      ((kept.length + w.hidden.length : Nat) : Int) ≤ greatestWord ∧
      ∀ other, other.length = kept.length →
        (Action.shift n).run (u.under other) = .ok () (w.under other) := by
  obtain ⟨natural, inside, rfl⟩ := shift_ok shifted
  have cursor (items : List Item) :
      (((u.under items).cursor : Nat) : Int) = items.length + u.hidden.length := by
    simp [Stack.cursor, Stack.under, within]
  have straight : wrap (kept.length + u.hidden.length + n) = kept.length + u.hidden.length + n := by
    rw [cursor] at natural
    refine wrap_eq (by omega) ?_
    by_contra large
    have negative := wrap_above (n := kept.length + u.hidden.length + n) (by omega) (by omega)
    omega
  rw [cursor, straight] at natural inside ⊢
  have enough : 0 ≤ u.hidden.length + n := by
    rcases below with rfl | enough
    · simpa using natural
    · exact enough
  obtain ⟨m, split⟩ := Int.eq_ofNat_of_zero_le enough
  have place : (kept.length + u.hidden.length + n).toNat = kept.length + m := by omega
  have items (above : List Item) : (u.under above).items = above ++ u.items := by
    simp [Stack.items, Stack.under]
  have length : u.items.length = u.hidden.length + u.visible.length := by simp [Stack.items]
  rw [items, List.length_append] at inside
  have top := (wrap_bounds (kept.length + u.hidden.length + n)).2
  rw [straight] at top
  refine ⟨{ u with hidden := u.items.take m, visible := u.items.drop m, beyond := 0 }, ?_, rfl, ?_,
    ?_, fun other same => ?_⟩
  · simp only [items, place, List.take_length_add_append, List.drop_length_add_append]
    rfl
  · simp only [List.length_take]
    omega
  · simp only [List.length_take]
    omega
  · have fits : ¬ ((u.items.length + kept.length : Int) < kept.length + m) := by omega
    rw [Action.run_shift, cursor, same, straight, if_neg (by simp [items, same]; omega)]
    rw [place, ← same]
    simp only [items, List.take_length_add_append, List.drop_length_add_append]
    rfl

theorem enterBody_of_shift {coll : Item} {s pushed : Stack}
    (same : { s with
      visible := Joint.payload "ITER.rest" coll.ty coll :: s.visible, beyond := 0 } = pushed)
    (within : s.beyond = 0)
    (shifted : (Action.shift 1).run pushed = .ok () t) :
    (Joint.enterBody coll).run s = .ok () { t with
      visible := Joint.payload "ITER.elem" (Joint.elementTy coll.ty) coll :: t.visible
      beyond := 0 } := by
  rw [Joint.run_enterBody coll within, same, shifted]

/-- The body of an iteration is entered with one more item hidden, below those above. -/
theorem enterBody_under {coll : Item} (within : u.beyond = 0)
    (narrow : ((kept.length + u.hidden.length : Nat) : Int) ≤ greatestWord)
    (entered : (Joint.enterBody coll).run (u.under kept) = .ok () t) :
    ∃ w : Stack, t = w.under kept ∧ w.beyond = 0 ∧ w.hidden.length = u.hidden.length + 1 ∧
      ((kept.length + w.hidden.length : Nat) : Int) ≤ greatestWord ∧
      ∀ other, other.length = kept.length →
        (Joint.enterBody coll).run (u.under other) = .ok () (w.under other) := by
  obtain ⟨inner, shifted, rfl⟩ := Joint.enterBody_ok entered within
  obtain ⟨pushed, rest⟩ : ∃ pushed : Stack, pushed =
      { u with visible := Joint.payload "ITER.rest" coll.ty coll :: u.visible, beyond := 0 } :=
    ⟨_, rfl⟩
  have shown (above : List Item) : { u.under above with
      visible := Joint.payload "ITER.rest" coll.ty coll :: (u.under above).visible, beyond := 0 } =
      pushed.under above := by
    rw [rest]
    rfl
  have hidden : pushed.hidden = u.hidden := by rw [rest]
  have inside : pushed.beyond = 0 := by rw [rest]
  rw [shown] at shifted
  rw [← hidden] at narrow ⊢
  have lower : leastWord ≤ 1 := by decide
  have upper : 1 ≤ greatestWord := by decide
  have below : kept = [] ∨ 0 ≤ (pushed.hidden.length : Int) + 1 := .inr (by omega)
  obtain ⟨w, rfl, _, length, fits, alike⟩ := shift_under inside narrow lower upper below shifted
  refine ⟨{ w with
    visible := Joint.payload "ITER.elem" (Joint.elementTy coll.ty) coll :: w.visible
    beyond := 0 }, rfl, rfl, ?_, fits, ?_⟩
  · dsimp only
    omega
  · intro other same
    exact enterBody_of_shift (shown other) within (alike other same)

theorem split_under {joint : String} (within : u.beyond = 0)
    (narrow : ((kept.length + u.hidden.length : Nat) : Int) ≤ greatestWord)
    (branched : (Stack.split joint).run (u.under kept) = .ok (x, y) t) :
    ∃ v w : Stack, x = v.under kept ∧ y = w.under kept ∧ v.beyond = 0 ∧ w.beyond = 0 ∧
      v.hidden.length = (if joint == Joint.iter.name then u.hidden.length + 1 else u.hidden.length) ∧
      ((kept.length + v.hidden.length : Nat) : Int) ≤ greatestWord ∧ w.hidden = u.hidden ∧
      ∀ other, other.length = kept.length →
        ∃ t', (Stack.split joint).run (u.under other) = .ok (v.under other, w.under other) t' := by
  unfold Stack.split at branched ⊢
  cases found : Joint.ofName? joint with
  | none =>
    rw [found] at branched
    cases branched
  | some j =>
    rw [found] at branched
    dsimp only at branched ⊢
    have named := Joint.ofName?_name found
    cases shown : u.visible with
    | nil =>
      have empty : j.branch.run (u.under kept) = _ := Joint.run_branch_empty j within shown
      cases empty.symm.trans branched
    | cons guard rest =>
      by_cases iter : j = .iter
      · subst iter
        have entered (above : List Item) : Joint.iter.branch.run (u.under above) =
            (Joint.beside (Joint.enterBody guard)).run ({ u with visible := rest }.under above) :=
          Joint.run_branch_iter within shown
        rw [entered, Joint.run_beside] at branched
        split at branched
        · rename_i made body
          cases branched
          obtain ⟨v, rfl, inside, length, fits, alike⟩ :=
            enterBody_under (u := { u with visible := rest }) within narrow body
          refine ⟨v, { u with visible := rest }, rfl, rfl, inside, within, ?_, fits, rfl, ?_⟩
          · rw [if_pos (by simp [named])]
            exact length
          · intro other same
            refine ⟨{ u with visible := rest }.under other, ?_⟩
            rw [entered, Joint.run_beside, alike other same]
        · cases branched
      · have run (above : List Item) : j.branch.run (u.under above) =
            .ok (Joint.pushAll ({ u with visible := rest }.under above) (j.payloads guard).1,
              Joint.pushAll ({ u with visible := rest }.under above) (j.payloads guard).2)
              ({ u with visible := rest }.under above) := Joint.run_branch within shown iter
        cases (run kept).symm.trans branched
        refine ⟨Joint.pushAll { u with visible := rest } (j.payloads guard).1,
          Joint.pushAll { u with visible := rest } (j.payloads guard).2, rfl, rfl, within, within, ?_,
          narrow, rfl, fun above _ => ⟨_, run above⟩⟩
        rw [Joint.name_ne_iter found iter]
        rfl

end Actions

/-! ## Places -/

/-- What becomes of the stack at `p`, unless it fails, has the items `kept` on top as before, and
nothing else about it depends on what they are. -/
def Shields (g : Graph) (kept : List Item) (p : Waypoint) (s : Stack) : Prop :=
  ∃ u : Stack, s = u.under kept ∧ ∀ q t, g.Effect p s q t → t.isFailed = false →
    ∃ w : Stack, t = w.under kept ∧ ∀ other, other.length = kept.length →
      g.Effect p (u.under other) q (w.under other)

/-- The stack has failed, or hides `r` items below the items `kept` on top. -/
def Held (kept : List Item) (r : Int) (s : Stack) : Prop :=
  s.isFailed = false → ∃ u : Stack, s = u.under kept ∧ u.beyond = 0 ∧ (u.hidden.length : Int) = r ∧
    ((kept.length + u.hidden.length : Nat) : Int) ≤ greatestWord

section Places

variable {g : Graph} {kept : List Item} {r n : Int} {p q : Waypoint} {s t : Stack} {i : Instruction}

theorem shields_run (here : g.stop? p = some (.run i)) (unmarked : isMarker i = false)
    (held : Held kept r s) (alive : s.isFailed = false) : Shields g kept p s ∧
      ∀ q t, g.Move p s q t → q = p.succ ∧ Held kept r t := by
  obtain ⟨u, rfl, within, length, narrow⟩ := held alive
  constructor
  · refine ⟨u, rfl, fun q t effect going => ?_⟩
    obtain ⟨rfl, stepped⟩ := Graph.effect_run here effect
    obtain ⟨w, rfl, _, _, alike⟩ := step_under within unmarked stepped going
    exact ⟨w, rfl, fun other _ => .run here (alike other)⟩
  · rintro q t ⟨_, effect⟩
    obtain ⟨rfl, stepped⟩ := Graph.effect_run here effect
    refine ⟨rfl, fun going => ?_⟩
    obtain ⟨w, rfl, inside, hidden, _⟩ := step_under within unmarked stepped going
    rw [← hidden] at length narrow
    exact ⟨w, rfl, inside, length, narrow⟩

theorem shields_marker (here : g.stop? p = some (.run (marker n))) (lower : leastWord ≤ n)
    (upper : n ≤ greatestWord) (below : kept = [] ∨ 0 ≤ r + n) (held : Held kept r s)
    (alive : s.isFailed = false) : Shields g kept p s ∧
      ∀ q t, g.Move p s q t → q = p.succ ∧ Held kept (r + n) t := by
  obtain ⟨u, rfl, within, rfl, narrow⟩ := held alive
  have moves {q : Waypoint} {t : Stack} (effect : g.Effect p (u.under kept) q t) :
      q = p.succ ∧ (Action.shift n).run (u.under kept) = .ok () t := by
    obtain ⟨next, stepped⟩ := Graph.effect_run here effect
    rw [step_marker lower upper] at stepped
    exact ⟨next, stepped⟩
  constructor
  · refine ⟨u, rfl, fun q t effect _ => ?_⟩
    obtain ⟨rfl, shifted⟩ := moves effect
    obtain ⟨w, rfl, _, _, _, alike⟩ := shift_under within narrow lower upper below shifted
    refine ⟨w, rfl, fun other same => .run here ?_⟩
    rw [step_marker lower upper]
    exact alike other same
  · rintro q t ⟨_, effect⟩
    obtain ⟨rfl, shifted⟩ := moves effect
    obtain ⟨w, rfl, inside, length, fits, _⟩ :=
      shift_under within narrow lower upper below shifted
    exact ⟨rfl, fun _ => ⟨w, rfl, inside, length, fits⟩⟩

theorem shields_leave {id next : Int} (here : g.stop? p = some (.leave id next))
    (held : Held kept r s) (alive : s.isFailed = false) : Shields g kept p s ∧
      ∀ q t, g.Move p s q t → q = .entry next ∧ Held kept r t := by
  obtain ⟨u, rfl, within, length, narrow⟩ := held alive
  constructor
  · refine ⟨u, rfl, fun q t effect _ => ?_⟩
    obtain ⟨rfl, rfl⟩ := Graph.effect_leave here effect
    exact ⟨u.visit id, rfl, fun other _ => .leave here⟩
  · rintro q t ⟨_, effect⟩
    obtain ⟨rfl, rfl⟩ := Graph.effect_leave here effect
    exact ⟨rfl, fun _ => ⟨u.visit id, rfl, within, length, narrow⟩⟩

/-- At a joint the boundary stays, but the first edge of an iteration hides one more item. -/
theorem shields_fork {joint : String} {a b : Int} (here : g.stop? p = some (.fork joint a b))
    (held : Held kept r s) (alive : s.isFailed = false) : Shields g kept p s ∧
      ∀ q t, g.Move p s q t →
        (q = .entry a ∧ Held kept (if joint == Joint.iter.name then r + 1 else r) t) ∨
          (q = .entry b ∧ Held kept r t) := by
  obtain ⟨u, rfl, within, rfl, narrow⟩ := held alive
  constructor
  · refine ⟨u, rfl, fun q t effect _ => ?_⟩
    obtain ⟨x, y, _, branched, edge⟩ := Graph.effect_fork here effect
    obtain ⟨v, w, rfl, rfl, _, _, _, _, _, alike⟩ := split_under within narrow branched
    rcases edge with ⟨rfl, rfl⟩ | ⟨rfl, rfl⟩
    · refine ⟨v, rfl, fun other same => ?_⟩
      obtain ⟨_, splits⟩ := alike other same
      exact .first here splits
    · refine ⟨w, rfl, fun other same => ?_⟩
      obtain ⟨_, splits⟩ := alike other same
      exact .second here splits
  · rintro q t ⟨_, effect⟩
    obtain ⟨x, y, _, branched, edge⟩ := Graph.effect_fork here effect
    obtain ⟨v, w, rfl, rfl, inside, inside', length, fits, hidden, _⟩ :=
      split_under within narrow branched
    rcases edge with ⟨rfl, rfl⟩ | ⟨rfl, rfl⟩
    · refine .inl ⟨rfl, fun _ => ⟨v, rfl, inside, ?_, fits⟩⟩
      rw [length]
      split <;> simp
    · rw [← hidden] at narrow ⊢
      exact .inr ⟨rfl, fun _ => ⟨w, rfl, inside', rfl, narrow⟩⟩

end Places

/-! ## Ways through code -/

/-- Why there is a marker at a place. -/
inductive Role (whole : Code) (g : Graph) (p : Waypoint) : Prop where
  | opens {d : Instruction} {is : Code} {r : Int} {b : Waypoint} :
      Nested whole r (d :: is) → d.name = "DIP" → Block g d p b → Role whole g p
  | closes {d : Instruction} {is : Code} {r : Int} {a : Waypoint} :
      Nested whole r (d :: is) → d.name = "DIP" → Block g d a p → Role whole g p
  | turns {i : Instruction} {is : Code} {r : Int} {q : Waypoint} :
      Nested whole r (i :: is) → Joint.ofName? i.name = some .iter → g.TurnsBack .iter p q →
      Role whole g p

/-- What holds of a stack that has not failed on its way through code. -/
def OnWay (whole : Code) (g : Graph) (kept : List Item) (p : Waypoint) (s : Stack) : Prop :=
  s.isFailed = false →
    Shields g kept p s ∧ ∀ i, g.stop? p = some (.run i) → isMarker i = true → Role whole g p

/-- `Keeps g I E n p s`: for `n` moves from `p` on, `I` holds until `E` does. -/
def Keeps (g : Graph) (I E : Waypoint → Stack → Prop) : Nat → Waypoint → Stack → Prop
  | 0, p, s => E p s ∨ I p s
  | n + 1, p, s => E p s ∨ (I p s ∧ ∀ q t, g.Move p s q t → Keeps g I E n q t)

section Keeps

variable {g : Graph} {I E F : Waypoint → Stack → Prop} {n : Nat} {p q : Waypoint} {s t : Stack}

theorem keeps_exit (exit : E p s) : Keeps g I E n p s := by
  cases n with
  | zero => exact .inl exit
  | succ n => exact .inl exit

theorem keeps_move (here : I p s) (next : ∀ q t, g.Move p s q t → ∀ m < n, Keeps g I E m q t) :
    Keeps g I E n p s := by
  cases n with
  | zero => exact .inr here
  | succ n => exact .inr ⟨here, fun q t move => next q t move n (Nat.lt_succ_self n)⟩

theorem keeps_then (first : Keeps g I E n p s)
    (rest : ∀ q t, E q t → ∀ m ≤ n, Keeps g I F m q t) : Keeps g I F n p s := by
  induction n generalizing p s with
  | zero =>
    rcases first with exit | here
    · exact rest p s exit 0 (Nat.le_refl 0)
    · exact .inr here
  | succ n ih =>
    rcases first with exit | ⟨here, next⟩
    · exact rest p s exit (n + 1) (Nat.le_refl _)
    · refine .inr ⟨here, fun q t move => ih (next q t move) fun q t exit m fewer => ?_⟩
      exact rest q t exit m (Nat.le_succ_of_le fewer)

/-- Wherever a trip leads that has not gone on from where `E` holds, `I` or `E` holds. -/
theorem keeps_trip {inside : Waypoint → Prop} (keeps : ∀ n, Keeps g I E n p s)
    (apart : ∀ q t, E q t → ¬ inside q) (trip : g.Trip inside p s q t) : E q t ∨ I q t := by
  induction trip with
  | stay => exact keeps 0
  | @move p q r s t u within first _ ih =>
    refine ih fun n => ?_
    rcases keeps (n + 1) with exit | ⟨_, next⟩
    · exact absurd within (apart p s exit)
    · exact next q t first

end Keeps

/-- For `n` moves from where code lies, the items are kept until the code ends. -/
def KeepsWays (whole : Code) (g : Graph) (kept : List Item) (n : Nat) : Prop :=
  ∀ code r p q s, Nested whole r code → Lies g code p q → Held kept r s →
    Keeps g (OnWay whole g kept) (fun p' s' => p' = q ∧ Held kept r s') n p s

section Ways

variable {whole is : Code} {g : Graph} {kept : List Item} {n : Nat} {r : Int}
  {p q : Waypoint} {s : Stack} {i : Instruction} {E F : Waypoint → Stack → Prop}

theorem keeps_pass (passes : s.isFailed = false →
      Shields g kept p s ∧ ∀ q t, g.Move p s q t → E q t)
    (role : ∀ i, g.stop? p = some (.run i) → isMarker i = true → Role whole g p)
    (next : s.isFailed = false → ∀ q t, E q t → ∀ m < n, Keeps g (OnWay whole g kept) F m q t) :
    Keeps g (OnWay whole g kept) F n p s :=
  keeps_move (fun alive => ⟨(passes alive).1, role⟩)
    fun q t move => next move.1 q t ((passes move.1).2 q t move)

theorem role_of_other {stop : Stop} (here : g.stop? p = some stop)
    (other : ∀ i, stop = .run i → isMarker i = false) :
    ∀ i, g.stop? p = some (.run i) → isMarker i = true → Role whole g p := by
  intro i there marks
  rw [other i (Option.some.inj (here.symm.trans there))] at marks
  cases marks

theorem keeps_leave {code : Code} {id next : Int} (fewer : ∀ m < n, KeepsWays whole g kept m)
    (nested : Nested whole r code) (here : g.stop? p = some (.leave id next))
    (rest : Lies g code (.entry next) q) (held : Held kept r s) :
    Keeps g (OnWay whole g kept) (fun p' s' => p' = q ∧ Held kept r s') n p s := by
  refine keeps_pass (shields_leave here held) (role_of_other here (by simp)) ?_
  rintro _ _ t ⟨rfl, held⟩ m less
  exact fewer m less code r _ q t nested rest held

theorem keeps_run (unmarked : Unmarked whole) (fewer : ∀ m < n, KeepsWays whole g kept m)
    (nested : Nested whole r (i :: is)) (here : g.stop? p = some (.run i))
    (rest : Lies g is p.succ q) (held : Held kept r s) :
    Keeps g (OnWay whole g kept) (fun p' s' => p' = q ∧ Held kept r s') n p s := by
  have plain := unmarked r i is nested
  refine keeps_pass (shields_run here plain held) (role_of_other here ?_) ?_
  · intro k same
    cases same
    exact plain
  · rintro _ _ t ⟨rfl, held⟩ m less
    exact fewer m less is r _ q t nested.rest rest held

theorem keeps_dip {a b : Waypoint} (safe : kept = [] ∨ Sheltered whole)
    (fewer : ∀ m < n, KeepsWays whole g kept m) (nested : Nested whole r (i :: is))
    (dip : i.name = "DIP") (block : Block g i a b) (rest : Lies g is b.succ q)
    (held : Held kept r s) :
    Keeps g (OnWay whole g kept) (fun p' s' => p' = q ∧ Held kept r s') n a s := by
  obtain ⟨lower, upper⟩ := dipLevel_bounds i
  have inner := nested.dip dip
  have inside : kept = [] ∨ 0 ≤ r + dipLevel i := safe.imp_right fun sheltered => sheltered _ _ inner
  have outside : kept = [] ∨ 0 ≤ r := safe.imp_right fun sheltered => sheltered _ _ nested
  refine keeps_pass (shields_marker block.opens lower upper inside held)
    (fun _ _ _ => .opens nested dip block) ?_
  rintro alive _ t ⟨rfl, entered⟩ m less
  obtain ⟨_, _, _, level, narrow⟩ := held alive
  refine keeps_then (fewer m less _ _ _ b t inner block.body entered) ?_
  rintro e u ⟨same, ends⟩ k less'
  rw [same]
  -- a stack that has come here was not hidden by more than a word
  have back : u.isFailed = false → wrap (-dipLevel i) = -dipLevel i := by
    intro going
    obtain ⟨_, _, _, deep, _⟩ := ends going
    unfold greatestWord at narrow upper
    unfold leastWord at lower
    exact wrap_eq (by unfold leastWord; omega) (by unfold greatestWord; omega)
  have closes : u.isFailed = false → Shields g kept b u ∧
      ∀ q t, g.Move b u q t → q = b.succ ∧ Held kept r t := by
    intro going
    have closes := block.closes
    rw [back going] at closes
    have bounds := wrap_bounds (-dipLevel i)
    rw [back going] at bounds
    have shields := shields_marker closes bounds.1 bounds.2 (by simpa using outside) ends going
    simpa using shields
  refine keeps_pass closes (fun _ _ _ => .closes nested dip block) ?_
  rintro _ _ v ⟨rfl, held⟩ l less''
  exact fewer l (by omega) is r _ q v nested.rest rest held

theorem keeps_fork {j : Joint} {a b : Int} {e : Waypoint}
    (fewer : ∀ m < n, KeepsWays whole g kept m) (nested : Nested whole r (i :: is))
    (found : Joint.ofName? i.name = some j) (branches : j.isLoop = false)
    (here : g.stop? p = some (.fork i.name a b)) (left : Lies g (arm i 0) (.entry a) e)
    (right : Lies g (arm i 1) (.entry b) e) (rest : Lies g is e q) (held : Held kept r s) :
    Keeps g (OnWay whole g kept) (fun p' s' => p' = q ∧ Held kept r s') n p s := by
  have other : j ≠ .iter := by
    rintro rfl
    cases branches
  have edges := shields_fork here held
  simp only [Joint.name_ne_iter found other, Bool.false_eq_true, if_false] at edges
  refine keeps_pass edges (role_of_other here (by simp)) ?_
  have arms (k : Nat) (small : k < 2) {f : Waypoint} (lies : Lies g (arm i k) f e) (t : Stack)
      (held : Held kept r t) (m : Nat) (less : m < n) :
      Keeps g (OnWay whole g kept) (fun p' s' => p' = q ∧ Held kept r s') m f t := by
    refine keeps_then (fewer m less _ r f e t (nested.arm found branches small) lies held) ?_
    rintro _ u ⟨rfl, held⟩ l less'
    exact fewer l (by omega) is r _ q u nested.rest rest held
  rintro _ _ t (⟨rfl, held⟩ | ⟨rfl, held⟩) m less
  · exact arms 0 (by decide) left t held m less
  · exact arms 1 (by decide) right t held m less

/-- A loop goes on behind it, or comes back in front of it. -/
theorem keeps_loop {j : Joint} {a next : Int} {back : Waypoint}
    (safe : kept = [] ∨ Sheltered whole) (fewer : ∀ m < n, KeepsWays whole g kept m)
    (nested : Nested whole r (i :: is)) (found : Joint.ofName? i.name = some j)
    (loops : j.isLoop = true) (here : g.stop? p = some (.fork i.name a next))
    (body : Lies g (arm i 0) (.entry a) back) (turns : g.TurnsBack j back p)
    (rest : Lies g is (.entry next) q) (held : Held kept r s) :
    Keeps g (OnWay whole g kept) (fun p' s' => p' = q ∧ Held kept r s') n p s := by
  have all := Lies.loop found loops here body turns rest
  have inner := nested.turn found loops
  have named := Joint.ofName?_name found
  refine keeps_pass (shields_fork here held) (role_of_other here (by simp)) ?_
  rintro _ _ t (⟨rfl, entered⟩ | ⟨rfl, left⟩) m less
  · by_cases iter : j = .iter
    · subst iter
      rw [if_pos (by simp [← named])] at entered
      rw [if_pos rfl] at inner
      rw [Graph.TurnsBack, if_pos rfl] at turns
      obtain ⟨shows, id, joint, leaves, rfl⟩ := turns
      refine keeps_then (fewer m less _ _ _ back t inner body entered) ?_
      rintro e u ⟨same, ends⟩ k less'
      rw [same]
      have outside : kept = [] ∨ 0 ≤ r + 1 + -1 := by
        rw [Int.add_neg_cancel_right]
        exact safe.imp_right fun sheltered => sheltered _ _ nested
      have turn : g.TurnsBack .iter back (.entry joint) := by
        rw [Graph.TurnsBack, if_pos rfl]
        exact ⟨shows, id, joint, leaves, rfl⟩
      refine keeps_pass (shields_marker shows (by decide) (by decide) outside ends)
        (fun _ _ _ => .turns nested found turn) ?_
      rintro _ _ v ⟨rfl, shown⟩ l less''
      rw [Int.add_neg_cancel_right] at shown
      exact keeps_leave (fun m' less => fewer m' (by omega)) nested leaves all shown
    · rw [if_neg iter] at inner
      rw [Graph.TurnsBack, if_neg iter] at turns
      rw [Joint.name_ne_iter found iter, if_neg Bool.false_ne_true] at entered
      refine keeps_then (fewer m less _ r _ back t inner body entered) ?_
      rintro e u ⟨same, ends⟩ k less'
      rw [same, turns]
      -- the joint once more, with fewer moves left
      exact fewer k (by omega) _ r p q u nested all ends
  · exact fewer m less is r _ q t nested.rest rest left

end Ways

/-- On its way through code a stack keeps the items above those that the code can reach. -/
theorem keepsWays {whole : Code} {g : Graph} {kept : List Item} (unmarked : Unmarked whole)
    (safe : kept = [] ∨ Sheltered whole) (n : Nat) : KeepsWays whole g kept n := by
  induction n using Nat.strongRecOn with
  | ind n fewer =>
    -- a group may begin its rest without a move, so how the code lies is a second induction
    intro code r p q s nested lies held
    induction lies generalizing r s with
    | nil => exact keeps_exit ⟨rfl, held⟩
    | leave here rest _ => exact keeps_leave fewer nested here rest held
    | @group i is p q e group body rest first second =>
      refine keeps_then (first r s (nested.group group) held) ?_
      rintro f t ⟨same, held⟩ m less
      rw [same]
      rcases Nat.lt_or_eq_of_le less with less | rfl
      · exact fewer m less is r e q t nested.rest rest held
      · exact second r t nested.rest held
    | dip dip opens body closes rest _ _ =>
      exact keeps_dip safe fewer nested dip ⟨opens, body, closes⟩ rest held
    | run _ _ _ here rest _ => exact keeps_run unmarked fewer nested here rest held
    | fork found branches here left right rest _ _ _ =>
      exact keeps_fork fewer nested found branches here left right rest held
    | loop found loops here body turns rest _ _ =>
      exact keeps_loop safe fewer nested found loops here body turns rest held

end StackFlow
