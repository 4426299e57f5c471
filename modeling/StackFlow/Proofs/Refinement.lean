import StackFlow.Proofs.Positions

/-!
Compiled code does only what the code means. A course that starts where code is laid out either
fails as the code can fail, or it comes to where the code goes on, with the items that the code can
leave and with the same hidden items. The induction is on the nodes that the course still goes
through, and for one number of nodes on the size of the code: a loop comes back to itself through
fewer nodes.
-/

namespace StackFlow

open Micheline (Instruction Code)

/-- The end of a failed path. -/
structure FailedWith (reason : Item) (t : Stack) : Prop where
  hidden : t.hidden = []
  visible : t.visible = [Item.failure reason]
  within : t.beyond = 0

/-- The course to `t` comes, through at most `n` nodes, by where `flat` is laid out, with the
visible items `w` over the hidden ones of `s`. -/
def ComesBy (g : Graph) (n : Nat) (flat : Code) (last : Int) (s : Stack) (w : List Item)
    (t : Stack) :
    Prop :=
  ∃ m ≤ n, ∃ here pending next s', Laid g flat last pending next ∧
    Path g m here pending next s' (some t) ∧ Settled s' ∧ s'.hidden = s.hidden ∧ s'.env = s.env ∧
    s'.visible = w

/-- The course to `t` does on `s` what the code means, and goes on with `flat`. -/
def Follows (g : Graph) (n : Nat) (code flat : Code) (last : Int) (s t : Stack) : Prop :=
  (∃ r, Exec s.env code s.visible (.failed r) ∧ FailedWith r t) ∨
    ∃ w, Exec s.env code s.visible (.done w) ∧ ComesBy g n flat last s w t

/-- Courses through `n` nodes do what the code means. -/
def Refines (g : Graph) (n : Nat) (code : Code) : Prop :=
  Micheline.isSource code → ∀ flat last here pending next s t, Settled s →
    Laid g (flatten code ++ flat) last pending next → Path g n here pending next s (some t) →
    Follows g n code flat last s t

section Parts

variable {g : Graph} {n m : Nat} {flat rest : Code} {last id : Int} {s s' t : Stack} {w : List Item}
  {i : Instruction} {is : Code}

theorem comesBy_of_course (fewer : m ≤ n) (laid : Laid g flat last [] id) (settled : Settled s')
    (hidden : s'.hidden = s.hidden) (env : s'.env = s.env) (visible : s'.visible = w)
    (course : Course g m ⟨id, s'⟩ (some t)) : ComesBy g n flat last s w t :=
  ⟨m, fewer, none, [], id, s', laid, course, settled, hidden, env, visible⟩

/-- The end of an arm is where the code behind the joint is laid out. -/
theorem comesBy_arm (fewer : m ≤ n) (laid : Laid g flat last [] id) (hidden : s'.hidden = s.hidden)
    (env : s'.env = s.env) (comes : ComesBy g m [] id s' w t) : ComesBy g n flat last s w t := by
  obtain ⟨m', fewer', here, pending, next, u, empty, path, settled, hidden', env', visible⟩ := comes
  obtain ⟨m'', fewer'', l, course⟩ := path_done settled empty path
  exact comesBy_of_course (by omega) laid (settled.withTrail l) (hidden'.trans hidden)
    (env'.trans env) visible course

theorem follows_cons (done : Does s.env i s.visible (.done w))
    (comes : ComesBy g n (flatten is ++ flat) last s w t)
    (others : ∀ m ≤ n, Refines g m is) (source : Micheline.isSource is) :
    Follows g n (i :: is) flat last s t := by
  obtain ⟨m, fewer, here, pending, next, u, laid, path, settled, hidden, env, rfl⟩ := comes
  rcases others m fewer source flat last here pending next u t settled laid path with
    ⟨r, run, fails⟩ | ⟨w', run, comes⟩
  · rw [env] at run
    exact .inl ⟨r, .cons done run, fails⟩
  · rw [env] at run
    obtain ⟨m', fewer', here', pending', next', u', laid', path', settled', hidden', env',
      visible'⟩ :=
      comes
    exact .inr ⟨w', .cons done run, m', by omega, here', pending', next', u', laid',
      path', settled', hidden'.trans hidden, env'.trans env, visible'⟩

theorem refines_nil : Refines g n [] := by
  intro _ flat last here pending next s t settled laid path
  rw [flatten_nil, List.nil_append] at laid
  exact .inr ⟨s.visible, .nil, n, Nat.le_refl n, here, pending, next, s, laid, path,
    settled, rfl, rfl, rfl⟩

theorem refines_group (group : i.isGroup = true) (body : Refines g n i.body)
    (others : ∀ m ≤ n, Refines g m is) : Refines g n (i :: is) := by
  intro source flat last here pending next s t settled laid path
  obtain ⟨first, remaining⟩ := isSource_cons source
  rw [flatten_group group, List.append_assoc] at laid
  rcases body (isSource_body first) _ last here pending next s t settled laid path with
    ⟨r, run, fails⟩ | ⟨w, run, comes⟩
  · exact .inl ⟨r, .stop (.group group run), fails⟩
  · exact follows_cons (.group group run) comes others remaining

theorem refines_straight (group : i.isGroup = false) (dip : i.name ≠ "DIP")
    (straight : Joint.ofName? i.name = none) (others : ∀ m ≤ n, Refines g m is) :
    Refines g n (i :: is) := by
  intro source flat last here pending next s t settled laid path
  obtain ⟨first, remaining⟩ := isSource_cons source
  rw [flatten_other group dip, List.cons_append] at laid
  obtain ⟨m, fewer, here', pending', next', l, s', stepped, laid, path⟩ :=
    path_step settled straight laid path
  have moved := settled.withTrail l
  by_cases fails : i.name = "FAILWITH"
  · rw [step_failWith fails] at stepped
    cases shown : s.visible with
    | nil => cases (run_failWith_empty moved.within shown).symm.trans stepped
    | cons r below =>
      cases (run_failWith moved.within shown).symm.trans stepped
      rw [path_failed (failWith_failed r) path]
      obtain ⟨l', same⟩ := leave_eq here' (Stack.failWith { s with trail := l } r)
      rw [same]
      have failed : Does s.env i s.visible (.failed r) := by
        rw [shown]
        exact .failWith fails
      exact .inl ⟨r, .stop failed, rfl, rfl, rfl⟩
  · obtain ⟨result, v, run, alike, free⟩ := step_alike moved first fails
    cases result with
    | error e => cases run.symm.trans stepped
    | ok x =>
      cases run.symm.trans stepped
      have done : Does s.env i s.visible (.done v) := .apply fails alike
      refine follows_cons done ⟨m, fewer, here', pending', next', _, laid, path, ?_, rfl, rfl, rfl⟩
        others remaining
      exact moved.withVisible free

theorem refines_dip (dip : i.name = "DIP") (body : ∀ m ≤ n, Refines g m (dipBody i))
    (others : ∀ m ≤ n, Refines g m is) : Refines g n (i :: is) := by
  intro source flat last here pending next s t settled laid path
  obtain ⟨first, remaining⟩ := isSource_cons source
  have natural := isSource_dipLevel first dip
  obtain ⟨lower, upper⟩ := dipLevel_bounds i
  have group : i.isGroup = false := by simp [Instruction.isGroup, dip]
  rw [flatten_dip group dip, List.cons_append, List.append_assoc, List.cons_append] at laid
  obtain ⟨m, fewer, here', pending', next', l, s', stepped, laid, path⟩ :=
    path_step settled (marker_straight _) laid path
  rw [step_marker lower upper] at stepped
  obtain ⟨deep, rfl, inside⟩ := shift_hide (settled.withTrail l) natural upper stepped
  dsimp only at deep
  have length : ((s.visible.take (dipLevel i).toNat).length : Int) = dipLevel i := by
    rw [List.length_take]
    omega
  have split := List.take_append_drop (dipLevel i).toNat s.visible
  rcases body m fewer (isSource_dipBody first) _ last here' pending' next' _ t inside laid path with
    ⟨r, run, fails⟩ | ⟨w, run, comes⟩
  · have failed := Does.dipFails dip length run
    rw [split] at failed
    exact .inl ⟨r, .stop failed, fails⟩
  · have done := Does.dip dip length run
    rw [split] at done
    refine follows_cons done ?_ others remaining
    -- the closing marker shows the items again
    obtain ⟨m', fewer', here', pending', next', u, laid, path, settled', hidden, env, rfl⟩ := comes
    obtain ⟨m'', fewer'', here'', pending'', next'', l', u', stepped, laid, path⟩ :=
      path_step settled' (marker_straight _) laid path
    rw [← length, step_closing (settled'.withTrail l') hidden] at stepped
    cases stepped
    exact ⟨m'', by omega, here'', pending'', next'', _, laid, path,
      (settled'.withTrail l').reveal hidden, rfl, env, rfl⟩

/-- A course through code that begins with a joint comes to the joint. -/
theorem path_joint {flat pending : Code} {next : Int} {here : Option Int} {j : Joint}
    (settled : Settled s) (found : Joint.ofName? i.name = some j)
    (laid : Laid g (i :: flat) last pending next) (path : Path g n here pending next s (some t)) :
    ∃ m ≤ n, ∃ id l, Ready g (i :: flat) last [] id ∧
      Course g m ⟨id, { s with trail := l }⟩ (some t) := by
  obtain ⟨m, fewer, here', pending', next', l, ready, path⟩ := path_ready settled path laid
  have moved := leave_eq here' { s with trail := l }
  cases ready with
  | run straight => simp [straight] at found
  | fork f b node x y r =>
    obtain ⟨l', same⟩ := moved
    rw [path_nil, same] at path
    exact ⟨m, fewer, next', l', .fork f b node x y r, path⟩
  | loop f b node c x r =>
    obtain ⟨l', same⟩ := moved
    rw [path_nil, same] at path
    exact ⟨m, fewer, next', l', .loop f b node c x r, path⟩

theorem follows_arm {k : Nat} {a : Int} (source : i.isSource) (refines : Refines g m (arm i k))
    (settled : Settled s) (laid : Laid g (flatten (arm i k)) id [] a)
    (course : Course g m ⟨a, s⟩ (some t)) : Follows g m (arm i k) [] id s t :=
  refines (isSource_arm source k) [] id none [] a s t settled (by rwa [List.append_nil]) course

theorem refines_fork {j : Joint} (found : Joint.ofName? i.name = some j)
    (branches : j.isLoop = false)
    (arms : ∀ m < n, ∀ k, Refines g m (arm i k)) (others : ∀ m ≤ n, Refines g m is) :
    Refines g n (i :: is) := by
  intro source flat last here pending next s t settled laid path
  obtain ⟨first, remaining⟩ := isSource_cons source
  obtain ⟨group, dip⟩ := joint_apart found
  rw [flatten_other group dip, List.cons_append] at laid
  obtain ⟨m, fewer, id, l, ready, course⟩ := path_joint settled found laid path
  have moved := settled.withTrail l
  have other : j ≠ .iter := by
    rintro rfl
    cases branches
  cases ready with
  | loop found' loops =>
    cases Option.some.inj (found.symm.trans found')
    simp [branches] at loops
  | @fork _ _ _ _ _ a b r found' _ node left right rest =>
    obtain ⟨m', fewer', x, y, u, branched, course⟩ := course_branch moved.not_failed node course
    rcases split_alike moved found other with ⟨e, refused, _⟩ |
      ⟨v, w, _, _, run, alike, free, free'⟩
    · cases refused.symm.trans branched
    · cases run.symm.trans branched
      rcases course with course | course
      · have inside := moved.withVisible free
        rcases follows_arm first (arms m' (by omega) 0) inside left course with
          ⟨r, run, fails⟩ | ⟨w', run, comes⟩
        · exact .inl ⟨r, .stop (.first found branches alike run), fails⟩
        · have comes := comesBy_arm (n := n) (s := s) (by omega) rest rfl rfl comes
          exact follows_cons (.first found branches alike run) comes others remaining
      · have inside := moved.withVisible free'
        rcases follows_arm first (arms m' (by omega) 1) inside right course with
          ⟨r, run, fails⟩ | ⟨w', run, comes⟩
        · exact .inl ⟨r, .stop (.second found branches alike run), fails⟩
        · have comes := comesBy_arm (n := n) (s := s) (by omega) rest rfl rfl comes
          exact follows_cons (.second found branches alike run) comes others remaining

/-- A loop whose body is behind it goes on as the loop does in front of it. -/
theorem follows_again {w : List Item} {flat : Code} (fewer : m ≤ n)
    (back : ∀ e, Does s.env i w e → Does s.env i s.visible e) (hidden : s'.hidden = s.hidden)
    (env : s'.env = s.env) (visible : s'.visible = w)
    (follows : Follows g m (i :: is) flat last s' t) : Follows g n (i :: is) flat last s t := by
  rcases follows with ⟨r, run, fails⟩ | ⟨w', run, comes⟩
  · rw [env, visible] at run
    exact .inl ⟨r, exec_head back run, fails⟩
  · rw [env, visible] at run
    obtain ⟨m', fewer', here, pending, next, u, laid, path, settled, hidden', env',
      visible'⟩ := comes
    exact .inr ⟨w', exec_head back run, m', by omega, here, pending, next, u, laid, path, settled,
      hidden'.trans hidden, env'.trans env, visible'⟩

theorem refines_loop {j : Joint} (found : Joint.ofName? i.name = some j) (loops : j.isLoop = true)
    (other : j ≠ .iter) (body : ∀ m < n, Refines g m (arm i 0))
    (again : ∀ m < n, Refines g m (i :: is)) (others : ∀ m ≤ n, Refines g m is) :
    Refines g n (i :: is) := by
  intro source flat last here pending next s t settled laid path
  obtain ⟨first, remaining⟩ := isSource_cons source
  obtain ⟨group, dip⟩ := joint_apart found
  rw [flatten_other group dip, List.cons_append] at laid
  obtain ⟨m, fewer, id, l, ready, course⟩ := path_joint settled found laid path
  have moved := settled.withTrail l
  have here_again : Laid g (flatten (i :: is) ++ flat) last [] id := by
    rw [flatten_other group dip]
    exact .ready ready
  cases ready with
  | fork found' branches =>
    cases Option.some.inj (found.symm.trans found')
    simp [branches] at loops
  | @loop _ _ _ _ _ a back r found' _ node comesBack left rest =>
    cases Option.some.inj (found.symm.trans found')
    rw [Graph.ComesBack, if_neg other] at comesBack
    subst comesBack
    obtain ⟨m', fewer', x, y, u, branched, course⟩ := course_branch moved.not_failed node course
    rcases split_alike moved found other with ⟨e, refused, _⟩ |
      ⟨v, w, _, _, run, alike, free, free'⟩
    · cases refused.symm.trans branched
    · cases run.symm.trans branched
      rcases course with course | course
      · have inside := moved.withVisible free
        rcases follows_arm first (body m' (by omega)) inside left course with
          ⟨r, run, fails⟩ | ⟨w', run, comes⟩
        · exact .inl ⟨r, .stop (.againFails found loops other alike run), fails⟩
        · obtain ⟨m₁, few₁, _, _, _, u₁, empty, path, settled₁, hidden, env, visible⟩ := comes
          obtain ⟨m₂, few₂, l₂, course⟩ := path_done settled₁ empty path
          have once := again m₂ (by omega) source flat last none [] back _ t
            (settled₁.withTrail l₂) here_again course
          exact follows_again (by omega) (fun e => .again found loops other alike run) hidden env
            visible once
      · have comes := comesBy_of_course (n := n) (s := s) (by omega) rest
          (moved.withVisible free') rfl rfl rfl course
        exact follows_cons (.exit found loops other alike) comes others remaining

theorem closing_marker (x : Item) : marker (-1) = marker (wrap (-([x] : List Item).length)) := by
  have one : wrap (-1) = -1 := by decide
  rw [List.length_singleton, Nat.cast_one, one]

/-- On the way back of an iteration the rest of the collection is shown again. -/
theorem course_back {back : Int} {x : Item} {h : List Item} (settled : Settled s)
    (hidden : s.hidden = h ++ [x]) (found : g.node? back = some (.tube back [marker (-1)] id))
    (course : Course g n ⟨back, s⟩ (some t)) :
    ∃ m ≤ n, ∃ l, Course g m ⟨id, { s with hidden := h, visible := x :: s.visible, trail := l }⟩
      (some t) := by
  obtain ⟨m, fewer, path⟩ := course_enter settled.not_failed found rfl course
  simp only [Node.tube] at path
  rw [path_cons settled.not_failed, closing_marker x, step_closing settled hidden] at path
  exact ⟨m, by omega, back :: s.trail, path⟩

theorem refines_iter (found : Joint.ofName? i.name = some .iter)
    (body : ∀ m < n, Refines g m (arm i 0)) (again : ∀ m < n, Refines g m (i :: is))
    (others : ∀ m ≤ n, Refines g m is) : Refines g n (i :: is) := by
  intro source flat last here pending next s t settled laid path
  obtain ⟨first, remaining⟩ := isSource_cons source
  obtain ⟨group, dip⟩ := joint_apart found
  rw [flatten_other group dip, List.cons_append] at laid
  obtain ⟨m, fewer, id, l, ready, course⟩ := path_joint settled found laid path
  have moved := settled.withTrail l
  have here_again : Laid g (flatten (i :: is) ++ flat) last [] id := by
    rw [flatten_other group dip]
    exact .ready ready
  cases ready with
  | fork found' branches =>
    cases Option.some.inj (found.symm.trans found')
    cases branches
  | @loop _ _ _ _ _ a back r found' _ node comesBack left rest =>
    cases Option.some.inj (found.symm.trans found')
    rw [Graph.ComesBack, if_pos rfl] at comesBack
    obtain ⟨m', fewer', x, y, u, branched, course⟩ := course_branch moved.not_failed node course
    rcases split_iter moved found with ⟨e, u', refused⟩ |
      ⟨coll, below, u', shown, run, inside, behind⟩
    · cases refused.symm.trans branched
    · cases run.symm.trans branched
      dsimp only at shown
      rcases course with course | course
      · rcases follows_arm first (body m' (by omega)) inside left course with
          ⟨r, run, fails⟩ | ⟨w, run, comes⟩
        · have failed : Does s.env i s.visible (.failed r) := by
            rw [shown]
            exact .nextFails found run
          exact .inl ⟨r, .stop failed, fails⟩
        · obtain ⟨m₁, few₁, _, _, _, u₁, empty, path, settled₁, hidden, env, visible⟩ := comes
          obtain ⟨m₂, few₂, l₂, course⟩ := path_done settled₁ empty path
          obtain ⟨m₃, few₃, l₃, course⟩ :=
            course_back (settled₁.withTrail l₂) hidden comesBack course
          have turned := ((settled₁.withTrail l₃).reveal hidden)
          have once := again m₃ (by omega) source flat last none [] id _ t turned here_again course
          refine follows_again (w := iterRest coll :: w) ?_ ?_ ?_ ?_ ?_ once
          · omega
          · intro e does
            rw [shown]
            exact .next found run does
          · rfl
          · exact env
          · rw [← visible]
            rfl
      · have comes := comesBy_of_course (n := n) (s := s) (by omega) rest behind rfl rfl rfl course
        have done : Does s.env i s.visible (.done below) := by
          rw [shown]
          exact .over found
        exact follows_cons done comes others remaining

end Parts

/-- Courses do what the code means. -/
theorem refines (g : Graph) (n : Nat) (code : Code) : Refines g n code := by
  induction n using Nat.strongRecOn generalizing code with
  | ind n fewer =>
    induction size : sizeOf code using Nat.strongRecOn generalizing code with
    | ind k smaller =>
      have upTo : ∀ c : Code, sizeOf c < k → ∀ m ≤ n, Refines g m c := by
        intro c small m bound
        rcases Nat.lt_or_eq_of_le bound with less | rfl
        · exact fewer m less c
        · exact smaller (sizeOf c) small c rfl
      cases code with
      | nil => exact refines_nil
      | cons i is =>
        rw [List.cons.sizeOf_spec] at size
        have others := upTo is (by omega)
        by_cases group : i.isGroup = true
        · have inner := sizeOf_body i
          exact refines_group group (upTo i.body (by omega) n (Nat.le_refl n)) others
        · have group : i.isGroup = false := by simpa using group
          by_cases dip : i.name = "DIP"
          · have inner := sizeOf_dipBody i
            exact refines_dip dip (upTo (dipBody i) (by omega)) others
          · cases found : Joint.ofName? i.name with
            | none => exact refines_straight group dip found others
            | some j =>
              cases loops : j.isLoop with
              | false => exact refines_fork found loops (fun m less k => fewer m less _) others
              | true =>
                have body := fun m less => fewer m less (arm i 0)
                have again := fun m less => fewer m less (i :: is)
                by_cases iter : j = .iter
                · subst iter
                  exact refines_iter found body again others
                · exact refines_loop found loops iter body again others

end StackFlow
