import Mathlib
import StackFlow.Proofs.Refinement

/-!
Compilation preserves meaning. That compiled code does only what the code means is the refinement of
courses; here, every way in which the code can end is the end of a course, unless the course breaks
on the way. Main statement: the stacks that a valve over a compiled graph puts in its books are
those in which the code can end.
-/

namespace StackFlow

open Micheline (Instruction Code)

/-- What is left to show when the code in front has ended: behind its items the course goes on, and
a failure is an end. -/
def Awaits (g : Graph) (flat : Code) (last : Int) (s : Stack) (good : Option Stack → Prop) :
    Ending → Prop
  | .done w => ∀ here pending next s', Settled s' → s'.hidden = s.hidden → s'.env = s.env →
    s'.visible = w → Laid g flat last pending next → Onward g here pending next s' good
  | .failed r => ∀ t, FailedWith r t → good (some t)

/-- Where code is laid out that can end with `e`, a course leads to where it goes on. -/
def Realizes (g : Graph) (env : Option Env) (code : Code) (v : List Item) (e : Ending) : Prop :=
  Micheline.isSource code → ∀ flat last here pending next s good, Settled s → s.visible = v →
    s.env = env → good none → Laid g (flatten code ++ flat) last pending next →
    Awaits g flat last s good e → Onward g here pending next s good

section Parts

variable {g : Graph} {env : Option Env} {i : Instruction} {is flat pending : Code} {v w : List Item}
  {e : Ending} {last next id : Int} {here : Option Int} {s s' : Stack} {good : Option Stack → Prop}

theorem awaits_over (hidden : s'.hidden = s.hidden) (env : s'.env = s.env)
    (awaits : Awaits g flat last s good e) : Awaits g flat last s' good e := by
  cases e with
  | failed r => exact awaits
  | done w =>
    intro here pending next u settled hidden' env' visible laid
    exact awaits here pending next u settled (hidden'.trans hidden) (env'.trans env) visible laid

/-- An arm goes on in front of the node behind its joint. -/
theorem awaits_arm (hidden : s'.hidden = s.hidden) (env : s'.env = s.env)
    (laid : Laid g flat last [] id) (awaits : Awaits g flat last s good e) :
    Awaits g [] id s' good e := by
  cases e with
  | failed r => exact awaits
  | done w =>
    intro here pending next u settled hidden' env' visible empty
    refine onward_done settled empty fun l => ?_
    exact awaits none [] id _ (settled.withTrail l) (hidden'.trans hidden) (env'.trans env)
      visible laid

theorem flatten_cons (i : Instruction) (is : Code) :
    flatten (i :: is) = flatten [i] ++ flatten is := by
  by_cases group : i.isGroup = true
  · rw [flatten_group group, flatten_group group, flatten_nil, List.append_nil]
  · have group : i.isGroup = false := by simpa using group
    by_cases dip : i.name = "DIP"
    · rw [flatten_dip group dip, flatten_dip group dip, flatten_nil]
      simp
    · rw [flatten_other group dip, flatten_other group dip, flatten_nil]
      rfl

theorem realizes_nil : Realizes g env [] v (.done v) := by
  intro _ flat last here pending next s good settled visible _ _ laid awaits
  rw [flatten_nil, List.nil_append] at laid
  exact awaits here pending next s settled rfl rfl visible laid

theorem realizes_cons (first : Realizes g env [i] v (.done w)) (rest : Realizes g env is w e) :
    Realizes g env (i :: is) v e := by
  intro source flat last here pending next s good settled visible env breaks laid awaits
  obtain ⟨head, tail⟩ := isSource_cons source
  rw [flatten_cons, List.append_assoc] at laid
  refine first (by simp [Micheline.isSource, head]) _ last here pending next s good settled
    visible env breaks laid ?_
  intro here' pending' next' s' settled' hidden env' visible' laid'
  exact rest tail flat last here' pending' next' s' good settled' visible' (env'.trans env)
    breaks laid' (awaits_over hidden env' awaits)

theorem realizes_stop {r : Item} (first : Realizes g env [i] v (.failed r)) :
    Realizes g env (i :: is) v (.failed r) := by
  intro source flat last here pending next s good settled visible env breaks laid awaits
  obtain ⟨head, _⟩ := isSource_cons source
  rw [flatten_cons, List.append_assoc] at laid
  exact first (by simp [Micheline.isSource, head]) _ last here pending next s good settled
    visible env breaks laid awaits

theorem isSource_single (source : Micheline.isSource [i]) : i.isSource :=
  (isSource_cons source).1

theorem realizes_group (group : i.isGroup = true) (body : Realizes g env i.body v e) :
    Realizes g env [i] v e := by
  intro source flat last here pending next s good settled visible env breaks laid awaits
  rw [flatten_group group, flatten_nil, List.append_nil] at laid
  exact body (isSource_body (isSource_single source)) flat last here pending next s good settled
    visible env breaks laid awaits

/-- The items that a block protects are hidden while its body runs. -/
theorem onward_dip {top below : List Item} (dip : i.name = "DIP")
    (length : (top.length : Int) = dipLevel i) (source : i.isSource) (settled : Settled s)
    (visible : s.visible = top ++ below) (breaks : good none)
    (laid : Laid g (flatten [i] ++ flat) last pending next)
    (go : ∀ here' pending' next' s', Settled s' → s'.hidden = s.hidden ++ top → s'.env = s.env →
      s'.visible = below →
      Laid g (flatten (dipBody i) ++ marker (wrap (-top.length)) :: flat) last pending' next' →
      Onward g here' pending' next' s' good) : Onward g here pending next s good := by
  have group : i.isGroup = false := by simp [Instruction.isGroup, dip]
  obtain ⟨lower, upper⟩ := dipLevel_bounds i
  rw [flatten_dip group dip, flatten_nil, List.cons_append, List.append_assoc] at laid
  refine onward_step settled breaks (marker_straight _) laid ?_
  intro here' pending' next' l s' stepped laid'
  rw [step_marker lower upper] at stepped
  obtain ⟨_, rfl, inside⟩ :=
    shift_hide (settled.withTrail l) (isSource_dipLevel source dip) upper stepped
  have count : (dipLevel i).toNat = top.length := by omega
  rw [← length] at laid'
  refine go here' pending' next' _ inside ?_ rfl ?_ laid'
  · simp [visible, count]
  · simp [visible, count]

theorem realizes_dip {top below : List Item} (dip : i.name = "DIP")
    (length : (top.length : Int) = dipLevel i) (body : Realizes g env (dipBody i) below (.done w)) :
    Realizes g env [i] (top ++ below) (.done (top ++ w)) := by
  intro source flat last here pending next s good settled visible env breaks laid awaits
  have source := isSource_single source
  refine onward_dip dip length source settled visible breaks laid ?_
  intro here' pending' next' s' settled' hidden env' visible' laid'
  refine body (isSource_dipBody source) _ last here' pending' next' s' good settled' visible'
    (env'.trans env) breaks laid' ?_
  intro here'' pending'' next'' u settled'' hidden' env'' visible'' laid''
  refine onward_step settled'' breaks (marker_straight _) laid'' ?_
  intro here₃ pending₃ next₃ l u' stepped laid₃
  have covered := hidden'.trans hidden
  rw [step_closing (settled''.withTrail l) covered] at stepped
  cases stepped
  exact awaits here₃ pending₃ next₃ _ ((settled''.withTrail l).reveal covered) rfl
    (env''.trans env') (by simp [visible'']) laid₃

theorem realizes_dipFails {top below : List Item} {r : Item} (dip : i.name = "DIP")
    (length : (top.length : Int) = dipLevel i)
    (body : Realizes g env (dipBody i) below (.failed r)) :
    Realizes g env [i] (top ++ below) (.failed r) := by
  intro source flat last here pending next s good settled visible env breaks laid awaits
  have source := isSource_single source
  refine onward_dip dip length source settled visible breaks laid ?_
  intro here' pending' next' s' settled' hidden env' visible' laid'
  exact body (isSource_dipBody source) _ last here' pending' next' s' good settled' visible'
    (env'.trans env) breaks laid' awaits

theorem rule_apart (straight : (Rule.ofName? i.name).isSome) :
    i.isGroup = false ∧ i.name ≠ "DIP" ∧ Joint.ofName? i.name = none := by
  refine ⟨?_, ?_, rule_not_joint straight⟩
  · by_contra group
    have empty : i.name = "" := by simpa [Instruction.isGroup] using group
    rw [empty] at straight
    exact absurd straight (by decide)
  · intro dip
    rw [dip] at straight
    exact absurd straight (by decide)

theorem step_ok_rule {x : Unit} (stepped : (Stack.step i).run s = .ok x s') :
    (Rule.ofName? i.name).isSome := by
  unfold Stack.step at stepped
  cases found : Rule.ofName? i.name with
  | none =>
    rw [found] at stepped
    cases stepped
  | some r => rfl

theorem realizes_apply (goes : i.name ≠ "FAILWITH")
    (stepped : (Stack.step i).run (bare env v) = .ok () s') :
    Realizes g env [i] v (.done s'.visible) := by
  intro source flat last here pending next s good settled rfl rfl breaks laid awaits
  obtain ⟨group, dip, straight⟩ := rule_apart (step_ok_rule stepped)
  rw [flatten_other group dip, flatten_nil, List.cons_append, List.nil_append] at laid
  refine onward_step settled breaks straight laid ?_
  intro here' pending' next' l u stepped' laid'
  obtain ⟨result, w, run, alike, free⟩ :=
    step_alike (settled.withTrail l) (isSource_single source) goes
  have same := alike.symm.trans stepped
  cases result with
  | error fault => cases same
  | ok x =>
    cases same
    cases run.symm.trans stepped'
    exact awaits here' pending' next' _ ((settled.withTrail l).withVisible free) rfl rfl rfl laid'

theorem realizes_failWith {r : Item} (fails : i.name = "FAILWITH") :
    Realizes g env [i] (r :: w) (.failed r) := by
  intro source flat last here pending next s good settled visible _ breaks laid awaits
  have straight : (Rule.ofName? i.name).isSome := by
    rw [fails]
    decide
  obtain ⟨group, dip, straight⟩ := rule_apart straight
  rw [flatten_other group dip, flatten_nil, List.cons_append, List.nil_append] at laid
  refine onward_step settled breaks straight laid ?_
  intro here' pending' next' l u stepped laid'
  rw [step_failWith fails, run_failWith (settled.withTrail l).within visible] at stepped
  cases stepped
  refine ⟨0, _, path_of_failed (failWith_failed r), awaits _ ?_⟩
  obtain ⟨l', same⟩ := leave_eq here' (Stack.failWith { s with trail := l } r)
  rw [same]
  exact ⟨rfl, rfl, rfl⟩

/-! ## Joints -/

theorem onward_joint {j : Joint} (found : Joint.ofName? i.name = some j) (settled : Settled s)
    (laid : Laid g (flatten [i] ++ flat) last pending next)
    (go : ∀ id l, Ready g (i :: flat) last [] id → Onward g none [] id { s with trail := l } good) :
    Onward g here pending next s good := by
  obtain ⟨group, dip⟩ := joint_apart found
  rw [flatten_other group dip, flatten_nil, List.cons_append, List.nil_append] at laid
  refine onward_of_ready settled (fun here' pending' next' l ready => ?_) laid
  obtain ⟨l', same⟩ := leave_eq here' { s with trail := l }
  cases ready with
  | run straight => simp [straight] at found
  | fork f b node x y r =>
    obtain ⟨n, t, path, ends⟩ := go next' l' (.fork f b node x y r)
    refine ⟨n, t, ?_, ends⟩
    rw [path_nil, same]
    exact path
  | loop f b node c x r =>
    obtain ⟨n, t, path, ends⟩ := go next' l' (.loop f b node c x r)
    refine ⟨n, t, ?_, ends⟩
    rw [path_nil, same]
    exact path

/-- A joint other than an iteration sends a course along either of its edges. -/
theorem onward_split {j : Joint} {name : String} {a b : Int} {x y u : Stack} (settled : Settled s)
    (found : Joint.ofName? name = some j) (other : j ≠ .iter)
    (node : g.node? id = some (.fork id name [a, b]))
    (branched : (Stack.split name).run s.shown = .ok (x, y) u)
    (go : Settled { s with visible := x.visible } → Settled { s with visible := y.visible } →
      Onward g none [] a { s with visible := x.visible } good ∨
        Onward g none [] b { s with visible := y.visible } good) :
    Onward g none [] id s good := by
  rcases split_alike settled found other with ⟨e, _, refused⟩ |
    ⟨v, w, _, _, run, alike, free, free'⟩
  · cases refused.symm.trans branched
  · cases alike.symm.trans branched
    have alive := settled.not_failed
    rcases go (settled.withVisible free) (settled.withVisible free') with
      ⟨n, r, course, ends⟩ | ⟨n, r, course, ends⟩
    · exact ⟨n + 1, r, course_of_branch alive node run (.inl course), ends⟩
    · exact ⟨n + 1, r, course_of_branch alive node run (.inr course), ends⟩

theorem not_iter {j : Joint} (branches : j.isLoop = false) : j ≠ .iter := by
  rintro rfl
  cases branches

/-- What a branching is to a course in front of it: both arms lead to where the code goes on. -/
theorem onward_fork {j : Joint} (found : Joint.ofName? i.name = some j) (branches : j.isLoop = false)
    (settled : Settled s) (laid : Laid g (flatten [i] ++ flat) last pending next)
    (go : ∀ id x y r l, g.node? id = some (.fork id i.name [x, y]) →
      Laid g (flatten (arm i 0) ++ []) r [] x → Laid g (flatten (arm i 1) ++ []) r [] y →
      Laid g flat last [] r → Onward g none [] id { s with trail := l } good) :
    Onward g here pending next s good := by
  refine onward_joint found settled laid fun id l ready => ?_
  cases ready with
  | loop found' loops =>
    cases Option.some.inj (found.symm.trans found')
    simp [branches] at loops
  | @fork _ _ _ _ _ x y r _ _ node left right rest =>
    exact go id x y r l node (by rwa [List.append_nil]) (by rwa [List.append_nil]) rest

theorem realizes_first {j : Joint} {a b t : Stack} (found : Joint.ofName? i.name = some j)
    (branches : j.isLoop = false) (branched : (Stack.split i.name).run (bare env v) = .ok (a, b) t)
    (taken : Realizes g env (arm i 0) a.visible e) : Realizes g env [i] v e := by
  intro source flat last here pending next s good settled rfl rfl breaks laid awaits
  refine onward_fork found branches settled laid fun id x y r l node left _ rest => ?_
  refine onward_split (settled.withTrail l) found (not_iter branches) node branched
    fun inside _ => .inl ?_
  exact taken (isSource_arm (isSource_single source) 0) [] r none [] x _ good inside rfl rfl breaks
    left (awaits_arm rfl rfl rest awaits)

theorem realizes_second {j : Joint} {a b t : Stack} (found : Joint.ofName? i.name = some j)
    (branches : j.isLoop = false) (branched : (Stack.split i.name).run (bare env v) = .ok (a, b) t)
    (taken : Realizes g env (arm i 1) b.visible e) : Realizes g env [i] v e := by
  intro source flat last here pending next s good settled rfl rfl breaks laid awaits
  refine onward_fork found branches settled laid fun id x y r l node _ right rest => ?_
  refine onward_split (settled.withTrail l) found (not_iter branches) node branched
    fun _ inside => .inr ?_
  exact taken (isSource_arm (isSource_single source) 1) [] r none [] y _ good inside rfl rfl breaks
    right (awaits_arm rfl rfl rest awaits)

/-- What a loop is to a course in front of it: its exit leads to where the code goes on, and its
body comes back to it. -/
theorem onward_loop {j : Joint} (found : Joint.ofName? i.name = some j) (loops : j.isLoop = true)
    (settled : Settled s) (laid : Laid g (flatten [i] ++ flat) last pending next)
    (go : ∀ id x back r l, g.node? id = some (.fork id i.name [x, r]) → g.ComesBack j back id →
      Laid g (flatten (arm i 0) ++ []) back [] x → Laid g flat last [] r →
      Laid g (flatten [i] ++ flat) last [] id → Onward g none [] id { s with trail := l } good) :
    Onward g here pending next s good := by
  refine onward_joint found settled laid fun id l ready => ?_
  have again : Laid g (flatten [i] ++ flat) last [] id := by
    obtain ⟨group, dip⟩ := joint_apart found
    rw [flatten_other group dip, flatten_nil]
    exact .ready ready
  cases ready with
  | fork found' branches =>
    cases Option.some.inj (found.symm.trans found')
    simp [branches] at loops
  | @loop _ _ _ _ _ x back r found' _ node comesBack left rest =>
    cases Option.some.inj (found.symm.trans found')
    exact go id x back r l node comesBack (by rwa [List.append_nil]) rest again

theorem realizes_exit {j : Joint} {a b t : Stack} (found : Joint.ofName? i.name = some j)
    (loops : j.isLoop = true) (other : j ≠ .iter)
    (branched : (Stack.split i.name).run (bare env v) = .ok (a, b) t) :
    Realizes g env [i] v (.done b.visible) := by
  intro source flat last here pending next s good settled rfl rfl breaks laid awaits
  refine onward_loop found loops settled laid fun id x back r l node _ _ rest _ => ?_
  refine onward_split (settled.withTrail l) found other node branched fun _ behind => .inr ?_
  exact awaits none [] r _ behind rfl rfl rfl rest

theorem realizes_again {j : Joint} {a b t : Stack} (found : Joint.ofName? i.name = some j)
    (loops : j.isLoop = true) (other : j ≠ .iter)
    (branched : (Stack.split i.name).run (bare env v) = .ok (a, b) t)
    (body : Realizes g env (arm i 0) a.visible (.done w)) (more : Realizes g env [i] w e) :
    Realizes g env [i] v e := by
  intro source flat last here pending next s good settled rfl rfl breaks laid awaits
  refine onward_loop found loops settled laid fun id x back r l node comesBack left _ again => ?_
  rw [Graph.ComesBack, if_neg other] at comesBack
  subst comesBack
  refine onward_split (settled.withTrail l) found other node branched fun inside _ => .inl ?_
  refine body (isSource_arm (isSource_single source) 0) [] back none [] x _ good inside rfl
    rfl breaks left ?_
  intro here' pending' next' s' settled' hidden env visible empty
  refine onward_done settled' empty fun l' => ?_
  exact more source flat last none [] back _ good (settled'.withTrail l') visible env breaks again
    (awaits_over hidden env awaits)

theorem realizes_againFails {j : Joint} {a b t : Stack} {r : Item}
    (found : Joint.ofName? i.name = some j) (loops : j.isLoop = true) (other : j ≠ .iter)
    (branched : (Stack.split i.name).run (bare env v) = .ok (a, b) t)
    (body : Realizes g env (arm i 0) a.visible (.failed r)) : Realizes g env [i] v (.failed r) := by
  intro source flat last here pending next s good settled rfl rfl breaks laid awaits
  refine onward_loop found loops settled laid fun id x back r' l node _ left _ _ => ?_
  refine onward_split (settled.withTrail l) found other node branched fun inside _ => .inl ?_
  exact body (isSource_arm (isSource_single source) 0) [] back none [] x _ good inside rfl
    rfl breaks left awaits

/-- An iteration sends a course into its body or past it, unless the boundary cannot move. -/
theorem onward_iter {name : String} {a b : Int} {coll : Item} {rest : List Item}
    (settled : Settled s) (found : Joint.ofName? name = some .iter)
    (node : g.node? id = some (.fork id name [a, b])) (visible : s.visible = coll :: rest)
    (breaks : good none)
    (go :
      Settled { s with hidden := s.hidden ++ [iterRest coll], visible := iterElem coll :: rest } →
      Settled { s with visible := rest } →
      Onward g none [] a
        { s with hidden := s.hidden ++ [iterRest coll], visible := iterElem coll :: rest } good ∨
        Onward g none [] b { s with visible := rest } good) :
    Onward g none [] id s good := by
  have alive := settled.not_failed
  rcases split_iter settled found with ⟨e, u, refused⟩ |
    ⟨coll', rest', u, shown, run, inside, behind⟩
  · exact ⟨0, none, course_of_refusal alive node refused, breaks⟩
  · cases visible.symm.trans shown
    rcases go inside behind with ⟨n, r, course, ends⟩ | ⟨n, r, course, ends⟩
    · exact ⟨n + 1, r, course_of_branch alive node run (.inl course), ends⟩
    · exact ⟨n + 1, r, course_of_branch alive node run (.inr course), ends⟩

theorem realizes_over {coll : Item} {rest : List Item} (found : Joint.ofName? i.name = some .iter) :
    Realizes g env [i] (coll :: rest) (.done rest) := by
  intro source flat last here pending next s good settled visible _ breaks laid awaits
  refine onward_loop found rfl settled laid fun id x back r l node _ _ laid' _ => ?_
  refine onward_iter (settled.withTrail l) found node visible breaks fun _ behind => .inr ?_
  exact awaits none [] r _ behind rfl rfl rfl laid'

theorem realizes_nextFails {coll r : Item} {rest : List Item}
    (found : Joint.ofName? i.name = some .iter)
    (body : Realizes g env (arm i 0) (iterElem coll :: rest) (.failed r)) :
    Realizes g env [i] (coll :: rest) (.failed r) := by
  intro source flat last here pending next s good settled visible env breaks laid awaits
  refine onward_loop found rfl settled laid fun id x back r' l node _ left _ _ => ?_
  refine onward_iter (settled.withTrail l) found node visible breaks fun inside _ => .inl ?_
  exact body (isSource_arm (isSource_single source) 0) [] back none [] x _ good inside rfl
    env breaks left awaits

/-- The way back of an iteration shows the rest of the collection again. -/
theorem onward_back {back : Int} {x : Item} {h : List Item} (settled : Settled s)
    (hidden : s.hidden = h ++ [x]) (node : g.node? back = some (.tube back [marker (-1)] id))
    (go : ∀ l,
      Onward g none [] id { s with hidden := h, visible := x :: s.visible, trail := l } good) :
    Onward g none [] back s good := by
  obtain ⟨n, r, course, ends⟩ := go (back :: s.trail)
  have path : Path g n (some back) [marker (-1)] id s r := by
    rw [path_cons settled.not_failed, closing_marker x, step_closing settled hidden]
    exact course
  obtain ⟨m, course⟩ := course_of_tube settled.not_failed node rfl path
  exact ⟨m, r, course, ends⟩

theorem realizes_next {coll : Item} {rest : List Item} (found : Joint.ofName? i.name = some .iter)
    (body : Realizes g env (arm i 0) (iterElem coll :: rest) (.done w))
    (more : Realizes g env [i] (iterRest coll :: w) e) : Realizes g env [i] (coll :: rest) e := by
  intro source flat last here pending next s good settled visible env breaks laid awaits
  refine onward_loop found rfl settled laid fun id x back r l node comesBack left _ again => ?_
  rw [Graph.ComesBack, if_pos rfl] at comesBack
  refine onward_iter (settled.withTrail l) found node visible breaks fun inside _ => .inl ?_
  refine body (isSource_arm (isSource_single source) 0) [] back none [] x _ good inside rfl
    env breaks left ?_
  intro here' pending' next' s' settled' hidden env' visible' empty
  refine onward_done settled' empty fun l' => ?_
  refine onward_back (settled'.withTrail l') hidden comesBack fun l'' => ?_
  refine more source flat last none [] id _ good ((settled'.withTrail l'').reveal hidden)
    (by simp [visible']) (env'.trans env) breaks again ?_
  exact awaits_over (s := s) rfl env' awaits

end Parts

mutual

theorem exec_realizes {g : Graph} {env : Option Env} {code : Code} {v : List Item} {e : Ending} :
    Exec env code v e → Realizes g env code v e
  | .nil => realizes_nil
  | .cons first rest => realizes_cons (does_realizes first) (exec_realizes rest)
  | .stop first => realizes_stop (does_realizes first)

theorem does_realizes {g : Graph} {env : Option Env} {i : Instruction} {v : List Item}
    {e : Ending} :
    Does env i v e → Realizes g env [i] v e
  | .group group body => realizes_group group (exec_realizes body)
  | .dip dip length body => realizes_dip dip length (exec_realizes body)
  | .dipFails dip length body => realizes_dipFails dip length (exec_realizes body)
  | .apply goes stepped => realizes_apply goes stepped
  | .failWith fails => realizes_failWith fails
  | .first found branches branched taken =>
    realizes_first found branches branched (exec_realizes taken)
  | .second found branches branched taken =>
    realizes_second found branches branched (exec_realizes taken)
  | .exit found loops other branched => realizes_exit found loops other branched
  | .again found loops other branched body more =>
    realizes_again found loops other branched (exec_realizes body) (does_realizes more)
  | .againFails found loops other branched body =>
    realizes_againFails found loops other branched (exec_realizes body)
  | .over found => realizes_over found
  | .next found body more => realizes_next found (exec_realizes body) (does_realizes more)
  | .nextFails found body => realizes_nextFails found (exec_realizes body)

end

/-! ## The books of a valve over compiled code -/

/-- The books of a valve hold an end of code. -/
def Valve.Records (v : Valve) : Ending → Prop
  | .done w => ∃ f ∈ v.finished, f.stack.cursor = 0 ∧ f.stack.items = w
  | .failed r => ∃ f ∈ v.failed, f.stack.cursor = 0 ∧ f.stack.items = [Item.failure r]

/-- A stack stands for an end of code. -/
def Ending.Shows (t : Stack) : Ending → Prop
  | .done w => t.isFailed = false ∧ t.cursor = 0 ∧ t.items = w
  | .failed r => t.isFailed = true ∧ t.cursor = 0 ∧ t.items = [Item.failure r]

section Books

variable {code : Code} {initial t : Stack} {n k : Nat} {budget : Int} {tag : String} {v : Valve}
  {e : Ending}

theorem settled_initial (cursor : initial.cursor = 0) (free : ∀ x ∈ initial.items, x.FailFree) :
    Settled initial ∧ initial.hidden = [] ∧ initial.items = initial.visible := by
  unfold Stack.cursor at cursor
  have none : initial.hidden = [] := List.length_eq_zero_iff.mp (by omega)
  have within : initial.beyond = 0 := by omega
  have items : initial.items = initial.visible := by simp [Stack.items, none]
  refine ⟨⟨within, by simp [none, greatestWord], by simp [none], ?_⟩, none, items⟩
  rwa [items] at free

theorem FailedWith.shows {r : Item} (fails : FailedWith r t) : Ending.Shows t (.failed r) := by
  have items : t.items = [Item.failure r] := by simp [Stack.items, fails.hidden, fails.visible]
  refine ⟨?_, by simp [Stack.cursor, fails.hidden, fails.within], items⟩
  rw [Stack.isFailed, items]
  rfl

theorem Settled.shows (settled : Settled t) (hidden : t.hidden = []) :
    Ending.Shows t (.done t.visible) :=
  ⟨settled.not_failed, by simp [Stack.cursor, hidden, settled.within],
    by simp [Stack.items, hidden]⟩

/-- A course through compiled code ends as the code can end. -/
theorem course_means (source : Micheline.isSource code) (settled : Settled initial)
    (hidden : initial.hidden = [])
    (course : Course (Graph.build code) n ⟨(Graph.build code).root, initial⟩ (some t)) :
    ∃ e, Exec initial.env code initial.visible e ∧ Ending.Shows t e := by
  have laid := build_laid code
  rw [← List.append_nil (flatten code)] at laid
  have path : Path (Graph.build code) n none [] (Graph.build code).root initial (some t) := course
  rcases refines (Graph.build code) n code source [] noNode none [] _ initial t settled
    laid path with
    ⟨r, run, fails⟩ | ⟨w, run, m, _, here, pending, next, u, empty, rest, inside, same, _, rfl⟩
  · exact ⟨.failed r, run, fails.shows⟩
  · obtain ⟨_, _, l, course⟩ := path_done inside empty rest
    have ended := (inside.withTrail l).shows (same.trans hidden)
    cases course with
    | failed fails => exact absurd ((inside.withTrail l).not_failed.symm.trans fails) (by decide)
    | ended => exact ⟨.done u.visible, run, ended⟩
    | flow _ found => cases node?_noNode.symm.trans found

/-- Every end of the code is the end of a course through compiled code, or the course breaks. -/
theorem exec_course (source : Micheline.isSource code) (settled : Settled initial)
    (hidden : initial.hidden = []) (run : Exec initial.env code initial.visible e) :
    ∃ n r, Course (Graph.build code) n ⟨(Graph.build code).root, initial⟩ r ∧
      ∀ t, r = some t → Ending.Shows t e := by
  have laid := build_laid code
  rw [← List.append_nil (flatten code)] at laid
  -- a course that breaks ends with no stack, of which nothing has to be shown
  refine exec_realizes run source [] noNode none [] (Graph.build code).root initial
    (fun r => ∀ t, r = some t → Ending.Shows t e) settled rfl rfl (by simp) laid ?_
  cases e with
  | failed r =>
    intro t fails t' same
    cases same
    exact fails.shows
  | done w =>
    intro here pending next s settled' hidden' _ visible empty
    refine onward_done settled' empty fun l => ?_
    refine ⟨0, some { s with trail := l }, .ended (settled'.withTrail l).not_failed rfl, ?_⟩
    rintro t ⟨⟩
    exact visible ▸ (settled'.withTrail l).shows (hidden'.trans hidden)

theorem records_of_shows (alive : initial.isFailed = false) {g : Graph}
    (run : Valve.Advances k (Valve.opened g initial budget tag) v) {r : Option Stack}
    (course : Course g n ⟨g.root, initial⟩ r) (shows : ∀ t, r = some t → Ending.Shows t e)
    (enough : n < k) : v.Records e := by
  obtain ⟨t, rfl, books⟩ := course_recorded alive run course enough
  have shown := shows t rfl
  rcases books with ⟨sound, f, member, rfl⟩ | ⟨fails, f, member, rfl⟩
  · cases e with
    | done w => exact ⟨f, member, shown.2⟩
    | failed r => exact absurd (sound.symm.trans shown.1) (by decide)
  · cases e with
    | done w => exact absurd (fails.symm.trans shown.1) (by decide)
    | failed r => exact ⟨f, member, shown.2⟩

end Books

/-- Over compiled code the books of a valve hold only ends of the code, every end of the code stands
in them after enough steps, and a valve without a frontier has them all. -/
theorem compilation_preserves_meaning {code : Code} {initial : Stack}
    (source : Micheline.isSource code) (cursor : initial.cursor = 0)
    (free : ∀ x ∈ initial.items, x.FailFree) :
    (∀ budget tag k v, Valve.Advances k (Valve.opened (Graph.build code) initial budget tag) v →
      (∀ f ∈ v.finished, f.stack.cursor = 0 ∧
        Exec initial.env code initial.items (.done f.stack.items)) ∧
      ∀ f ∈ v.failed, ∃ r, f.stack.cursor = 0 ∧ f.stack.items = [Item.failure r] ∧
        Exec initial.env code initial.items (.failed r)) ∧
    (∀ e, Exec initial.env code initial.items e → ∃ enough, ∀ budget tag k v, enough ≤ k →
      Valve.Advances k (Valve.opened (Graph.build code) initial budget tag) v → v.Records e) ∧
    ∀ budget tag k v, Valve.Advances k (Valve.opened (Graph.build code) initial budget tag) v →
      v.isDone = true → ∀ e, Exec initial.env code initial.items e → v.Records e := by
  obtain ⟨settled, hidden, items⟩ := settled_initial cursor free
  have alive := settled.not_failed
  rw [items]
  have complete : ∀ e, Exec initial.env code initial.visible e → ∃ enough, ∀ budget tag k v,
      enough ≤ k → Valve.Advances k (Valve.opened (Graph.build code) initial budget tag) v →
      v.Records e := by
    intro e run
    obtain ⟨n, r, course, shows⟩ := exec_course source settled hidden run
    exact ⟨n + 1, fun budget tag k v enough steps =>
      records_of_shows alive steps course shows enough⟩
  refine ⟨fun budget tag k v steps => ⟨fun f member => ?_, fun f member => ?_⟩, complete, ?_⟩
  · obtain ⟨sound, n, course⟩ := finished_course alive steps member
    obtain ⟨e, run, shown⟩ := course_means source settled hidden course
    cases e with
    | done w => exact ⟨shown.2.1, shown.2.2 ▸ run⟩
    | failed r => exact absurd (sound.symm.trans shown.1) (by decide)
  · obtain ⟨fails, n, course⟩ := failed_course alive steps member
    obtain ⟨e, run, shown⟩ := course_means source settled hidden course
    cases e with
    | done w => exact absurd (fails.symm.trans shown.1) (by decide)
    | failed r => exact ⟨r, shown.2.1, shown.2.2, run⟩
  · intro budget tag k v steps done e run
    obtain ⟨enough, records⟩ := complete e run
    -- the valve is taken further without changing its books, until the end must be in them
    have drained : v.frontier = [] := by simpa [Valve.isDone] using done
    obtain ⟨u, further, _, finished, failed⟩ := Valve.advances_drained steps drained enough
    have recorded := records budget tag (k + enough) u (by omega) further
    unfold Valve.Records at recorded ⊢
    rwa [finished, failed] at recorded

def keptItem : Item := .ofText Ty.nat "kept"

def guardItem : Item := .ofText Ty.bool "guard"

def reasonItem : Item := .ofText Ty.nat "reason"

/-- A block under which a path may fail. -/
def guardedBlock : Instruction :=
  .op "DIP" [] [.code [.op "IF" [] [.code [.op "FAILWITH" [] []], .code []]]]

def guardedCode : Code := [guardedBlock, .op "SWAP" [] []]

def guardedStack : Stack := { visible := [keptItem, guardItem, reasonItem] }

/-- The block is opened in front of the joint and closed behind it, where its arms meet. -/
theorem build_guardedCode : Graph.build guardedCode =
    { nodes := #[.tube 0 [] noNode, .tube 1 [marker (-1), .op "SWAP" [] []] noNode,
        .tube 2 [marker 1] 3, .fork 3 "IF" [4, 5], .tube 4 [.op "FAILWITH" [] []] 1, .tube 5 [] 1],
      root := 2 } := by
  cbv

theorem guardedCode_drains : ∃ v,
    Valve.Advances 4 (Valve.opened (Graph.build guardedCode) guardedStack 0 "") v ∧
      v.isDone = true := by
  rw [build_guardedCode]
  exact ⟨_, .next (.next (.next (.next .none rfl) rfl) rfl) rfl, rfl⟩

/-- A failure under a block drops the item that the block protects; the other arm keeps it. -/
theorem guarded_block_recorded :
    Micheline.isSource guardedCode ∧ guardedStack.cursor = 0 ∧
      (∀ x ∈ guardedStack.items, x.FailFree) ∧
      ∃ v, Valve.Advances 4 (Valve.opened (Graph.build guardedCode) guardedStack 0 "") v ∧
        v.Records (.done [reasonItem, keptItem]) ∧ v.Records (.failed reasonItem) := by
  have source : Micheline.isSource guardedCode := by decide
  have free : ∀ x ∈ guardedStack.items, x.FailFree := by decide
  obtain ⟨v, steps, done⟩ := guardedCode_drains
  have records := (compilation_preserves_meaning source rfl free).2.2 0 "" 4 v steps done
  have branched : (Stack.split "IF").run (bare guardedStack.env [guardItem, reasonItem]) =
      .ok (bare guardedStack.env [reasonItem], bare guardedStack.env [reasonItem])
        (bare guardedStack.env [reasonItem]) := rfl
  refine ⟨source, rfl, free, v, steps, records _ ?_, records _ ?_⟩
  · have passed : Exec guardedStack.env (dipBody guardedBlock) [guardItem, reasonItem]
        (.done [reasonItem]) := .cons (.second rfl rfl branched .nil) .nil
    have swapped : Does guardedStack.env (.op "SWAP" [] []) [keptItem, reasonItem]
        (.done [reasonItem, keptItem]) :=
      .apply (s := bare guardedStack.env [reasonItem, keptItem]) (by decide) rfl
    exact .cons (@Does.dip _ _ [keptItem] _ _ rfl (by decide) passed) (.cons swapped .nil)
  · have fails : Exec guardedStack.env (dipBody guardedBlock) [guardItem, reasonItem]
        (.failed reasonItem) := .stop (.first rfl rfl branched (.stop (.failWith rfl)))
    exact .stop (@Does.dipFails _ _ [keptItem] _ _ rfl (by decide) fails)

end StackFlow
