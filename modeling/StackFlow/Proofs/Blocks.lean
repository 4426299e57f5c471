import StackFlow.Proofs.Layout
import StackFlow.Proofs.Waypoints

/-!
Which ways of a compiled graph belong to which part of the code. The code lies between two places, a
block that protects items between its two markers, and each part of the code between places of its
own. Main statements: compiled code lies between the root and the end, and where code lies in a valid
graph the depth is the same at both ends.
-/

namespace StackFlow

open Micheline (Instruction Code)

/-- `Nested whole r code`: `code` is what is left, from some instruction on, of a code list in
`whole` that is compiled, and the markers around it move the boundary by `r`. -/
inductive Nested (whole : Code) : Int → Code → Prop where
  | whole : Nested whole 0 whole
  | rest {r : Int} {i : Instruction} {is : Code} : Nested whole r (i :: is) → Nested whole r is
  | group {r : Int} {i : Instruction} {is : Code} :
      Nested whole r (i :: is) → i.isGroup = true → Nested whole r i.body
  | dip {r : Int} {i : Instruction} {is : Code} :
      Nested whole r (i :: is) → i.name = "DIP" → Nested whole (r + dipLevel i) (dipBody i)
  | arm {r : Int} {i : Instruction} {is : Code} {j : Joint} {k : Nat} :
      Nested whole r (i :: is) → Joint.ofName? i.name = some j → j.isLoop = false → k < 2 →
      Nested whole r (arm i k)
  | turn {r : Int} {i : Instruction} {is : Code} {j : Joint} :
      Nested whole r (i :: is) → Joint.ofName? i.name = some j → j.isLoop = true →
      Nested whole (if j = .iter then r + 1 else r) (arm i 0)

/-- No instruction of the code is a marker. -/
def Unmarked (code : Code) : Prop := ∀ r i is, Nested code r (i :: is) → isMarker i = false

theorem nested_trans {whole inner code : Code} {r s : Int} (outer : Nested whole r inner)
    (nested : Nested inner s code) : Nested whole (r + s) code := by
  induction nested with
  | whole =>
    rw [Int.add_zero]
    exact outer
  | rest _ ih => exact ih.rest
  | group _ group ih => exact ih.group group
  | dip _ dip ih =>
    rw [← Int.add_assoc]
    exact ih.dip dip
  | arm _ found branches small ih => exact ih.arm found branches small
  | @turn s i is j _ found loops ih =>
    have turned := ih.turn found loops
    by_cases iter : j = .iter
    · rw [if_pos iter] at turned ⊢
      rw [← Int.add_assoc]
      exact turned
    · rw [if_neg iter] at turned ⊢
      exact turned

theorem unmarked_nested {whole code : Code} {r : Int} (unmarked : Unmarked whole)
    (nested : Nested whole r code) : Unmarked code :=
  fun s i is inner => unmarked (r + s) i is (nested_trans nested inner)

/-- From where the body of a loop ends a stack comes back to the joint at `p`: it is there, or a
marker shows the item that the joint has hidden. -/
def Graph.TurnsBack (g : Graph) (j : Joint) (back p : Waypoint) : Prop :=
  if j = .iter then
    g.stop? back = some (.run (marker (-1))) ∧
      ∃ id next, g.stop? back.succ = some (.leave id next) ∧ p = .entry next
  else back = p

/-- `Lies g code p q`: the code lies between `p` and `q`. -/
inductive Lies (g : Graph) : Code → Waypoint → Waypoint → Prop where
  | nil {p : Waypoint} : Lies g [] p p
  | leave {code : Code} {p q : Waypoint} {id next : Int} :
      g.stop? p = some (.leave id next) → Lies g code (.entry next) q → Lies g code p q
  | group {i : Instruction} {is : Code} {p q r : Waypoint} :
      i.isGroup = true → Lies g i.body p r → Lies g is r q → Lies g (i :: is) p q
  | dip {i : Instruction} {is : Code} {a b q : Waypoint} :
      i.name = "DIP" → g.stop? a = some (.run (marker (dipLevel i))) →
      Lies g (dipBody i) a.succ b → g.stop? b = some (.run (marker (wrap (-dipLevel i)))) →
      Lies g is b.succ q → Lies g (i :: is) a q
  | run {i : Instruction} {is : Code} {p q : Waypoint} :
      i.isGroup = false → i.name ≠ "DIP" → Joint.ofName? i.name = none →
      g.stop? p = some (.run i) → Lies g is p.succ q → Lies g (i :: is) p q
  | fork {i : Instruction} {is : Code} {j : Joint} {a b : Int} {p q r : Waypoint} :
      Joint.ofName? i.name = some j → j.isLoop = false → g.stop? p = some (.fork i.name a b) →
      Lies g (arm i 0) (.entry a) r → Lies g (arm i 1) (.entry b) r → Lies g is r q →
      Lies g (i :: is) p q
  | loop {i : Instruction} {is : Code} {j : Joint} {a next : Int} {p q back : Waypoint} :
      Joint.ofName? i.name = some j → j.isLoop = true → g.stop? p = some (.fork i.name a next) →
      Lies g (arm i 0) (.entry a) back → g.TurnsBack j back p → Lies g is (.entry next) q →
      Lies g (i :: is) p q

/-- The block `d` lies between its markers at `a` and `b`. -/
structure Block (g : Graph) (d : Instruction) (a b : Waypoint) : Prop where
  opens : g.stop? a = some (.run (marker (dipLevel d)))
  body : Lies g (dipBody d) a.succ b
  closes : g.stop? b = some (.run (marker (wrap (-dipLevel d))))

section Lies

variable {g : Graph} {code before after : Code} {p q r : Waypoint}

theorem lies_append (first : Lies g before p r) (second : Lies g after r q) :
    Lies g (before ++ after) p q := by
  induction first with
  | nil => exact second
  | leave here _ ih => exact .leave here (ih second)
  | group group body _ _ ih => exact .group group body (ih second)
  | dip dip opens body closes _ _ ih => exact .dip dip opens body closes (ih second)
  | run group dip straight here _ ih => exact .run group dip straight here (ih second)
  | fork found branches here left right _ _ _ ih =>
    exact .fork found branches here left right (ih second)
  | loop found loops here body turns _ _ ih => exact .loop found loops here body turns (ih second)

theorem lies_extend (first : Lies g code p r) (ends : Lies g [] r q) : Lies g code p q := by
  simpa using lies_append first ends

end Lies

/-- Where the parts of code lie that begins with the instruction `i`. -/
structure Parts (g : Graph) (i : Instruction) (is : Code) : Prop where
  rest : ∃ p q, Lies g is p q
  body : i.isGroup = true → ∃ p q, Lies g i.body p q
  block : i.name = "DIP" → ∃ a b, Block g i a b
  arms : ∀ j, Joint.ofName? i.name = some j → j.isLoop = false →
    ∀ k < 2, ∃ p q, Lies g (arm i k) p q
  turn : ∀ j, Joint.ofName? i.name = some j → j.isLoop = true → ∃ p q, Lies g (arm i 0) p q

theorem dip_apart {i : Instruction} (dip : i.name = "DIP") :
    i.isGroup = false ∧ Joint.ofName? i.name = none := by
  rw [Instruction.isGroup, dip]
  decide

theorem group_apart {i : Instruction} (group : i.isGroup = true) :
    i.name ≠ "DIP" ∧ Joint.ofName? i.name = none := by
  rw [Instruction.isGroup, beq_iff_eq] at group
  rw [group]
  decide

theorem lies_parts {g : Graph} {i : Instruction} {is : Code} {p q : Waypoint}
    (lies : Lies g (i :: is) p q) : Parts g i is := by
  generalize all : i :: is = code at lies
  induction lies with
  | nil => cases all
  | leave _ _ ih => exact ih all
  | group group body rest =>
    cases all
    obtain ⟨dip, straight⟩ := group_apart group
    exact ⟨⟨_, _, rest⟩, fun _ => ⟨_, _, body⟩, fun h => absurd h dip, by simp [straight],
      by simp [straight]⟩
  | dip dip opens body closes rest =>
    cases all
    obtain ⟨group, straight⟩ := dip_apart dip
    exact ⟨⟨_, _, rest⟩, by simp [group], fun _ => ⟨_, _, opens, body, closes⟩, by simp [straight],
      by simp [straight]⟩
  | run group dip straight _ rest =>
    cases all
    exact ⟨⟨_, _, rest⟩, by simp [group], fun h => absurd h dip, by simp [straight],
      by simp [straight]⟩
  | fork found branches _ left right rest =>
    cases all
    obtain ⟨group, dip⟩ := joint_apart found
    refine ⟨⟨_, _, rest⟩, by simp [group], fun h => absurd h dip, ?_, by simp [found, branches]⟩
    intro j _ _ k small
    match k, small with
    | 0, _ => exact ⟨_, _, left⟩
    | 1, _ => exact ⟨_, _, right⟩
  | loop found loops _ body _ rest =>
    cases all
    obtain ⟨group, dip⟩ := joint_apart found
    exact ⟨⟨_, _, rest⟩, by simp [group], fun h => absurd h dip, by simp [found, loops],
      fun _ _ _ => ⟨_, _, body⟩⟩

theorem nested_lies {g : Graph} {whole code : Code} {r : Int} {p q : Waypoint}
    (lies : Lies g whole p q) (nested : Nested whole r code) : ∃ p q, Lies g code p q := by
  induction nested with
  | whole => exact ⟨p, q, lies⟩
  | rest _ ih =>
    obtain ⟨_, _, inner⟩ := ih
    exact (lies_parts inner).rest
  | group _ group ih =>
    obtain ⟨_, _, inner⟩ := ih
    exact (lies_parts inner).body group
  | dip _ dip ih =>
    obtain ⟨_, _, inner⟩ := ih
    obtain ⟨a, b, block⟩ := (lies_parts inner).block dip
    exact ⟨a.succ, b, block.body⟩
  | arm _ found branches small ih =>
    obtain ⟨_, _, inner⟩ := ih
    exact (lies_parts inner).arms _ found branches _ small
  | turn _ found loops ih =>
    obtain ⟨_, _, inner⟩ := ih
    exact (lies_parts inner).turn _ found loops

/-! ## Compiled code -/

/-- The code `pending` is left of a tube at `p`, and the node `next` is behind the tube. -/
def Graph.Pending (g : Graph) (p : Waypoint) (pending : Code) (next : Int) : Prop :=
  (p = .entry next ∧ pending = []) ∨
    ∃ n, g.node? p.node = some n ∧ n.kind = .tube ∧ n.code.drop p.index = pending ∧ n.next = next

section Compiled

variable {g : Graph} {flat pending is : Code} {last next : Int} {p : Waypoint} {i : Instruction}

theorem pending_nil (at_end : g.Pending p [] next) : Lies g [] p (.entry next) := by
  rcases at_end with ⟨rfl, _⟩ | ⟨n, found, tube, rest, rfl⟩
  · exact .nil
  · have none : n.code[p.index]? = none := by
      rw [List.getElem?_eq_none_iff]
      exact List.drop_eq_nil_iff.mp rest
    have leaves : g.stop? p = some (.leave n.id n.next) := by
      simp [Graph.stop?, found, Node.stop?, tube, none]
    exact .leave leaves .nil

theorem pending_cons (here : g.Pending p (i :: pending) next) :
    g.stop? p = some (.run i) ∧ g.Pending p.succ pending next := by
  rcases here with ⟨_, empty⟩ | ⟨n, found, tube, rest, behind⟩
  · cases empty
  · have code : n.code[p.index]? = some i := by
      rw [← List.head?_drop, rest, List.head?_cons]
    refine ⟨by simp [Graph.stop?, found, Node.stop?, tube, code], .inr ⟨n, found, tube, ?_, behind⟩⟩
    rw [Waypoint.succ, ← List.tail_drop, rest, List.tail_cons]

/-- In front of code that is laid out only ends of tubes are passed. -/
theorem laid_ready {g : Graph} {flat pending : Code} {last next : Int} {p : Waypoint}
    (here : g.Pending p pending next) : Laid g flat last pending next →
    ∃ q pending' next', Lies g [] p q ∧ g.Pending q pending' next' ∧
      Ready g flat last pending' next'
  | .ready ready => ⟨p, pending, next, .nil, here, ready⟩
  | @Laid.enter _ _ _ id n found tube inner => by
    have inside : g.Pending (.entry id) n.code n.next := .inr ⟨n, found, tube, rfl, rfl⟩
    obtain ⟨q, pending', next', leads, there, ready⟩ := laid_ready inside inner
    exact ⟨q, pending', next', lies_append (pending_nil here) leads, there, ready⟩

theorem laid_run (straight : Joint.ofName? i.name = none) (here : g.Pending p pending next)
    (laid : Laid g (i :: flat) last pending next) :
    ∃ a pending' next', Lies g [] p a ∧ g.stop? a = some (.run i) ∧
      g.Pending a.succ pending' next' ∧ Laid g flat last pending' next' := by
  obtain ⟨a, pending', next', leads, there, ready⟩ := laid_ready here laid
  cases ready with
  | run _ rest =>
    obtain ⟨stop, behind⟩ := pending_cons there
    exact ⟨a, _, next', leads, stop, behind, rest⟩
  | fork found => simp [straight] at found
  | loop found => simp [straight] at found

theorem laid_end (here : g.Pending p pending next) (laid : Laid g [] last pending next) :
    Lies g [] p (.entry last) := by
  obtain ⟨a, pending', next', leads, there, ready⟩ := laid_ready here laid
  cases ready with
  | done => exact lies_append leads (pending_nil there)

/-- Wherever the code is laid out it lies, and its layout goes on behind it. -/
def Located (g : Graph) (code : Code) : Prop :=
  ∀ flat last pending next p, g.Pending p pending next →
    Laid g (flatten code ++ flat) last pending next →
    ∃ q pending' next', Lies g code p q ∧ g.Pending q pending' next' ∧ Laid g flat last pending' next'

theorem lies_of_located {code : Code} (located : Located g code) (here : g.Pending p pending next)
    (laid : Laid g (flatten code) last pending next) : Lies g code p (.entry last) := by
  rw [← List.append_nil (flatten code)] at laid
  obtain ⟨q, pending', next', lies, there, ends⟩ := located [] last pending next p here laid
  exact lies_extend lies (laid_end there ends)

theorem pending_entry (g : Graph) (id : Int) : g.Pending (.entry id) [] id := .inl ⟨rfl, rfl⟩

theorem located_group (group : i.isGroup = true) (body : Located g i.body)
    (others : Located g is) : Located g (i :: is) := by
  intro flat last pending next p here laid
  rw [flatten_group group, List.append_assoc] at laid
  obtain ⟨r, pending₁, next₁, inner, there, laid⟩ := body _ last pending next p here laid
  obtain ⟨q, pending₂, next₂, rest, there, laid⟩ := others flat last pending₁ next₁ r there laid
  exact ⟨q, pending₂, next₂, .group group inner rest, there, laid⟩

theorem located_dip (dip : i.name = "DIP") (body : Located g (dipBody i))
    (others : Located g is) : Located g (i :: is) := by
  intro flat last pending next p here laid
  have group : i.isGroup = false := by simp [Instruction.isGroup, dip]
  rw [flatten_dip group dip, List.cons_append, List.append_assoc, List.cons_append] at laid
  obtain ⟨a, pending₁, next₁, leads, opens, there, laid⟩ := laid_run (marker_straight _) here laid
  obtain ⟨r, pending₂, next₂, inner, there, laid⟩ := body _ last pending₁ next₁ a.succ there laid
  obtain ⟨b, pending₃, next₃, ends, closes, there, laid⟩ :=
    laid_run (marker_straight _) there laid
  obtain ⟨q, pending₄, next₄, rest, there, laid⟩ :=
    others flat last pending₃ next₃ b.succ there laid
  have block := Lies.dip dip opens (lies_extend inner ends) closes rest
  exact ⟨q, pending₄, next₄, lies_append leads block, there, laid⟩

theorem located_run (group : i.isGroup = false) (dip : i.name ≠ "DIP")
    (straight : Joint.ofName? i.name = none) (others : Located g is) : Located g (i :: is) := by
  intro flat last pending next p here laid
  rw [flatten_other group dip, List.cons_append] at laid
  obtain ⟨a, pending₁, next₁, leads, runs, there, laid⟩ := laid_run straight here laid
  obtain ⟨q, pending₂, next₂, rest, there, laid⟩ :=
    others flat last pending₁ next₁ a.succ there laid
  exact ⟨q, pending₂, next₂, lies_append leads (.run group dip straight runs rest),
    there, laid⟩

theorem stop?_forked {id a b : Int} {name : String}
    (found : g.node? id = some (.fork id name [a, b])) :
    g.stop? (.entry id) = some (.fork name a b) := by
  rw [Waypoint.entry, stop?_of_node found]
  rfl

theorem turnsBack {j : Joint} {back id : Int} (comesBack : g.ComesBack j back id) :
    g.TurnsBack j (.entry back) (.entry id) := by
  unfold Graph.ComesBack at comesBack
  unfold Graph.TurnsBack
  split
  · rename_i iter
    rw [if_pos iter] at comesBack
    refine ⟨?_, back, id, ?_, rfl⟩
    · rw [Waypoint.entry, stop?_of_node comesBack]
      rfl
    · rw [Waypoint.succ, Waypoint.entry, stop?_of_node comesBack]
      rfl
  · rename_i other
    rw [if_neg other] at comesBack
    rw [comesBack]

theorem located_joint {j : Joint} (found : Joint.ofName? i.name = some j)
    (arms : ∀ k, Located g (arm i k)) (others : Located g is) : Located g (i :: is) := by
  intro flat last pending next p here laid
  obtain ⟨group, dip⟩ := joint_apart found
  rw [flatten_other group dip, List.cons_append] at laid
  obtain ⟨a, pending₁, next₁, leads, there, ready⟩ := laid_ready here laid
  cases ready with
  | run straight => simp [straight] at found
  | @fork _ j' _ _ _ x y remaining found' branches node left right rest =>
    obtain ⟨q, pending₂, next₂, behind, there', laid⟩ :=
      others flat last [] remaining _ (pending_entry g remaining) rest
    have first := lies_of_located (arms 0) (pending_entry g x) left
    have second := lies_of_located (arms 1) (pending_entry g y) right
    have joint := Lies.fork found' branches (stop?_forked node) first second behind
    exact ⟨q, pending₂, next₂, lies_append leads (lies_append (pending_nil there) joint), there',
      laid⟩
  | @loop _ j' _ _ _ x back remaining found' loops node comesBack left rest =>
    obtain ⟨q, pending₂, next₂, behind, there', laid⟩ :=
      others flat last [] remaining _ (pending_entry g remaining) rest
    have body := lies_of_located (arms 0) (pending_entry g x) left
    have joint := Lies.loop found' loops (stop?_forked node) body (turnsBack comesBack) behind
    exact ⟨q, pending₂, next₂, lies_append leads (lies_append (pending_nil there) joint), there',
      laid⟩

end Compiled

theorem sizeOf_arm (i : Instruction) (k : Nat) : sizeOf (arm i k) < sizeOf i := by
  unfold arm
  cases found : i.codeArgs[k]? with
  | none => simpa using sizeOf_instruction i
  | some code => exact sizeOf_codeArg (List.mem_of_getElem? found)

theorem located (g : Graph) (code : Code) : Located g code := by
  induction size : sizeOf code using Nat.strongRecOn generalizing code with
  | ind k smaller =>
    cases code with
    | nil =>
      intro flat last pending next p here laid
      rw [flatten_nil] at laid
      exact ⟨p, pending, next, .nil, here, laid⟩
    | cons i is =>
      rw [List.cons.sizeOf_spec] at size
      have part : ∀ c : Code, sizeOf c < k → Located g c := fun c small => smaller _ small c rfl
      have others := part is (by omega)
      by_cases group : i.isGroup = true
      · have inner := sizeOf_body i
        exact located_group group (part i.body (by omega)) others
      · have group : i.isGroup = false := by simpa using group
        by_cases dip : i.name = "DIP"
        · have inner := sizeOf_dipBody i
          exact located_dip dip (part (dipBody i) (by omega)) others
        · cases found : Joint.ofName? i.name with
          | none => exact located_run group dip found others
          | some j =>
            refine located_joint found (fun n => ?_) others
            have inner := sizeOf_arm i n
            exact part (arm i n) (by omega)

/-- Compiled code lies between the root of its graph and the end. -/
theorem build_lies (code : Code) :
    Lies (Graph.build code) code (.entry (Graph.build code).root) (.entry noNode) :=
  lies_of_located (located _ code) (pending_entry _ _) (build_laid code)

theorem compileArm_added (code : Option Code) (last : Int) (nodes : Array Node) :
    Added nodes (compileArm code last nodes).2 := by
  cases code with
  | none => exact added_refl
  | some code => exact (compileFlat_compiles (flatten code) last nodes).added

theorem compileFlat_entry {g : Graph} (flat : Code) (last : Int) (nodes : Array Node)
    (holds : g.Holds nodes (compileFlat flat last nodes).2)
    (terminal : g.node? terminalId = some (.tube terminalId [] noNode)) :
    ∃ id code next, g.node? (compileFlat flat last nodes).1 = some (.tube id code next) := by
  cases split : splitAtJoint? flat with
  | none =>
    rw [compileFlat_straight split] at holds ⊢
    split at holds
    · rename_i empty
      rw [if_pos empty]
      exact ⟨_, _, _, terminal⟩
    · rename_i other
      rw [if_neg other]
      exact ⟨_, _, _, holds_push holds⟩
  | some parts =>
    obtain ⟨before, j, i, after⟩ := parts
    rw [compileFlat_joint split] at holds ⊢
    have older := (compileFlat_compiles after last nodes).added
    refine ⟨_, before, _, (holds_forked (j := j) older ?_ holds).1⟩
    cases loops : j.isLoop with
    | false =>
      have other : j ≠ .iter := by
        rintro rfl
        cases loops
      simp only [if_neg other, Bool.false_eq_true, if_false]
      exact added_trans (compileArm_added _ _ _) (compileArm_added _ _ _)
    | true =>
      simp only [if_true]
      refine added_trans ?_ (compileArm_added _ _ _)
      split
      · exact added_push _
      · exact added_refl

theorem build_root (code : Code) :
    ∃ id rest next, (Graph.build code).node? (Graph.build code).root = some (.tube id rest next) := by
  have compiled := compileFlat_compiles (flatten code) noNode #[.tube terminalId [] noNode]
  refine compileFlat_entry (flatten code) noNode _ (fun k _ _ => rfl) ?_
  have old := compiled.added.old 0 (by simp)
  rw [terminalId, ← Int.natCast_zero, node?_natCast]
  exact old

/-! ## Depths -/

theorem wrap_back {d : Int} (lower : leastWord ≤ d) (upper : d ≤ greatestWord) (n : Int) :
    wrap (wrap (d + n) + wrap (-n)) = d := by
  have sum : wrap (wrap (d + n) + wrap (-n)) = wrap (d + n + -n) := by
    simp only [wrap, Int.bmod_add_bmod, Int.add_bmod_bmod]
  rw [sum, Int.add_neg_cancel_right, wrap_eq lower upper]

theorem isMarker_marker (n : Int) : isMarker (marker n) = true := rfl

theorem markerDelta_marker {n : Int} (lower : leastWord ≤ n) (upper : n ≤ greatestWord) :
    markerDelta (marker n) = n := intArg_marker lower upper

section Depths

variable {g : Graph} {known : String → Bool} {depth : Int → Option Int} {code whole : Code}
  {p q : Waypoint} {d n : Int}

theorem depthAt_marker (lower : leastWord ≤ n) (upper : n ≤ greatestWord)
    (here : g.stop? p = some (.run (marker n))) (level : g.DepthAt known depth p d) :
    g.DepthAt known depth p.succ (wrap (d + n)) := by
  have next := depthAt_run here level
  rwa [isMarker_marker, if_pos rfl, markerDelta_marker lower upper] at next

/-- Where code without markers of its own lies, the depth is the same at both ends. -/
theorem lies_depth (chart : g.Charted known depth) (unmarked : Unmarked code)
    (lies : Lies g code p q) (lower : leastWord ≤ d) (upper : d ≤ greatestWord)
    (level : p.node = noNode ∨ g.DepthAt known depth p d) :
    q.node = noNode ∨ g.DepthAt known depth q d := by
  induction lies generalizing d with
  | nil => exact level
  | leave here _ ih =>
    exact ih unmarked lower upper (depthAt_leave chart here (depthAt_of_stop here level))
  | group group _ _ first second =>
    have inner := unmarked_nested unmarked (.group .whole group)
    exact second (unmarked_nested unmarked (.rest .whole)) lower upper
      (first inner lower upper level)
  | @dip i is a b q dip opens _ closes _ first second =>
    obtain ⟨least, greatest⟩ := dipLevel_bounds i
    obtain ⟨least', greatest'⟩ := wrap_bounds (-dipLevel i)
    obtain ⟨least'', greatest''⟩ := wrap_bounds (d + dipLevel i)
    have entered := depthAt_marker least greatest opens (depthAt_of_stop opens level)
    have inner := unmarked_nested unmarked (.dip .whole dip)
    have left := first inner least'' greatest'' (.inr entered)
    have closed := depthAt_marker least' greatest' closes (depthAt_of_stop closes left)
    rw [wrap_back lower upper] at closed
    exact second (unmarked_nested unmarked (.rest .whole)) lower upper (.inr closed)
  | @run i is p q _ _ _ here _ ih =>
    have next := depthAt_run here (depthAt_of_stop here level)
    rw [unmarked 0 i is .whole, if_neg Bool.false_ne_true] at next
    exact ih (unmarked_nested unmarked (.rest .whole)) lower upper (.inr next)
  | @fork i is j a b p q r found branches here _ _ _ first _ third =>
    have inner := unmarked_nested unmarked (.arm .whole found branches (show 0 < 2 by decide))
    have other : j ≠ .iter := by
      rintro rfl
      cases branches
    have entered := (depthAt_fork chart here (depthAt_of_stop here level)).1
    rw [Joint.name_ne_iter found other, if_neg Bool.false_ne_true] at entered
    exact third (unmarked_nested unmarked (.rest .whole)) lower upper
      (first inner lower upper (.inr entered))
  | loop _ _ here _ _ _ _ second =>
    have left := (depthAt_fork chart here (depthAt_of_stop here level)).2
    exact second (unmarked_nested unmarked (.rest .whole)) lower upper (.inr left)

theorem block_depth {b : Instruction} (chart : g.Charted known depth)
    (unmarked : Unmarked (dipBody b)) (block : Block g b p q)
    (level : g.DepthAt known depth p d) :
    g.DepthAt known depth q (wrap (d + dipLevel b)) := by
  obtain ⟨least, greatest⟩ := dipLevel_bounds b
  obtain ⟨lower, upper⟩ := wrap_bounds (d + dipLevel b)
  have entered := depthAt_marker least greatest block.opens level
  exact depthAt_of_stop block.closes (lies_depth chart unmarked block.body lower upper (.inr entered))

end Depths

end StackFlow
