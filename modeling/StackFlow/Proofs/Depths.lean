import StackFlow.Proofs.Regions

/-!
The depths of a compiled graph. Code without markers of its own opens and closes its blocks in
turn, so that both arms of a joint and each turn of a loop come back to the depth from which they
set out; and what was compiled from such code has a chart.
-/

namespace StackFlow

open Micheline (Instruction Code)

/-- Code without markers of its own, whose blocks protect numbers of items that stay words when they
are added up along the nesting. -/
structure Tame (code : Code) : Prop where
  unmarked : Unmarked code
  levels : ∀ r i is, Nested code r (i :: is) → i.name = "DIP" →
    0 ≤ dipLevel i ∧ r + dipLevel i ≤ greatestWord
  sums : ∀ r i is, Nested code r (i :: is) → r ≤ greatestWord

/-- `Steady d flat e`: a stack that enters the flat code at depth `d` leaves it at depth `e`, no
marker asks for a negative depth, and what branches off comes back to the depth of its joint. -/
inductive Steady : Int → Code → Int → Prop where
  | nil {d : Int} : Steady d [] d
  | run {d e : Int} {i : Instruction} {is : Code} : Joint.ofName? i.name = none →
      isMarker i = false → Steady d is e → Steady d (i :: is) e
  | marker {d e : Int} {i : Instruction} {is : Code} : Joint.ofName? i.name = none →
      isMarker i = true → 0 ≤ wrap (d + markerDelta i) → Steady (wrap (d + markerDelta i)) is e →
      Steady d (i :: is) e
  | fork {d e : Int} {i : Instruction} {is : Code} {j : Joint} : Joint.ofName? i.name = some j →
      j.isLoop = false → Steady d (flatten (arm i 0)) d → Steady d (flatten (arm i 1)) d →
      Steady d is e → Steady d (i :: is) e
  | loop {d e : Int} {i : Instruction} {is : Code} {j : Joint} : Joint.ofName? i.name = some j →
      j.isLoop = true → j ≠ .iter → Steady d (flatten (arm i 0)) d → Steady d is e →
      Steady d (i :: is) e
  | iter {d e : Int} {i : Instruction} {is : Code} : Joint.ofName? i.name = some .iter → 0 ≤ d →
      d ≤ greatestWord → Steady (wrap (d + 1)) (flatten (arm i 0)) (wrap (d + 1)) →
      Steady d is e → Steady d (i :: is) e

section Steady

variable {d e m r : Int} {before after flat code whole : Code} {i : Instruction} {is : Code}

theorem steady_append (first : Steady d before m) (second : Steady m after e) :
    Steady d (before ++ after) e := by
  induction first with
  | nil => exact second
  | run straight unmarked _ ih => exact .run straight unmarked (ih second)
  | marker straight marks above _ ih => exact .marker straight marks above (ih second)
  | fork found branches left right _ _ _ ih => exact .fork found branches left right (ih second)
  | loop found loops other body _ _ ih => exact .loop found loops other body (ih second)
  | iter found above below body _ _ ih => exact .iter found above below body (ih second)

theorem steady_split (steady : Steady d (before ++ after) e) :
    ∃ m, Steady d before m ∧ Steady m after e := by
  induction before generalizing d with
  | nil => exact ⟨d, .nil, steady⟩
  | cons i is ih =>
    cases steady with
    | run straight unmarked rest =>
      obtain ⟨m, first, second⟩ := ih rest
      exact ⟨m, .run straight unmarked first, second⟩
    | marker straight marks above rest =>
      obtain ⟨m, first, second⟩ := ih rest
      exact ⟨m, .marker straight marks above first, second⟩
    | fork found branches left right rest =>
      obtain ⟨m, first, second⟩ := ih rest
      exact ⟨m, .fork found branches left right first, second⟩
    | loop found loops other body rest =>
      obtain ⟨m, first, second⟩ := ih rest
      exact ⟨m, .loop found loops other body first, second⟩
    | iter found above below body rest =>
      obtain ⟨m, first, second⟩ := ih rest
      exact ⟨m, .iter found above below body first, second⟩

theorem steady_branches {j : Joint} (found : Joint.ofName? i.name = some j)
    (branches : j.isLoop = false) (steady : Steady d (i :: is) e) :
    Steady d (flatten (arm i 0)) d ∧ Steady d (flatten (arm i 1)) d ∧ Steady d is e := by
  cases steady with
  | run straight => simp [found] at straight
  | marker straight => simp [found] at straight
  | fork _ _ left right rest => exact ⟨left, right, rest⟩
  | loop found' loops =>
    cases found.symm.trans found'
    cases branches.symm.trans loops
  | iter found' =>
    cases found.symm.trans found'
    cases branches

theorem steady_turn {j : Joint} (found : Joint.ofName? i.name = some j) (loops : j.isLoop = true)
    (other : j ≠ .iter) (steady : Steady d (i :: is) e) :
    Steady d (flatten (arm i 0)) d ∧ Steady d is e := by
  cases steady with
  | run straight => simp [found] at straight
  | marker straight => simp [found] at straight
  | fork found' branches =>
    cases found.symm.trans found'
    cases branches.symm.trans loops
  | loop _ _ _ body rest => exact ⟨body, rest⟩
  | iter found' => exact absurd (Option.some.inj (found.symm.trans found')) other

theorem steady_iteration (found : Joint.ofName? i.name = some .iter)
    (steady : Steady d (i :: is) e) : 0 ≤ d ∧ d ≤ greatestWord ∧
      Steady (wrap (d + 1)) (flatten (arm i 0)) (wrap (d + 1)) ∧ Steady d is e := by
  cases steady with
  | run straight => simp [found] at straight
  | marker straight => simp [found] at straight
  | fork found' branches =>
    cases found.symm.trans found'
    cases branches
  | loop found' _ other => exact absurd (Option.some.inj (found'.symm.trans found)) other
  | iter _ above below body rest => exact ⟨above, below, body, rest⟩

/-- The marker on the way back of an iteration shows the item that its joint has hidden. -/
theorem steady_back (above : 0 ≤ d) (below : d ≤ greatestWord) :
    Steady (wrap (d + 1)) [marker (-1)] d := by
  have delta : markerDelta (marker (-1)) = -1 := markerDelta_marker (by decide) (by decide)
  have one : wrap (-1) = -1 := by decide
  have back := wrap_back (d := d) (by unfold leastWord; omega) below 1
  rw [one] at back
  refine .marker (marker_straight _) (isMarker_marker _) ?_ ?_
  · rwa [delta, back]
  · rw [delta, back]
    exact .nil

/-- The checks of a tube find nothing wrong with steady code of known names. -/
theorem checkTube_steady {known : String → Bool} {id : Int} (steady : Steady d flat e)
    (straight : ∀ i ∈ flat, Joint.ofName? i.name = none) (named : ∀ i ∈ flat, known i.name = true) :
    Graph.checkTube known id flat d = (e, []) := by
  induction steady with
  | nil => rfl
  | run _ unmarked _ ih =>
    obtain ⟨_, straight⟩ := List.forall_mem_cons.mp straight
    obtain ⟨name, named⟩ := List.forall_mem_cons.mp named
    simp [Graph.checkTube, unmarked, name, ih straight named]
  | marker _ marks above _ ih =>
    obtain ⟨_, straight⟩ := List.forall_mem_cons.mp straight
    obtain ⟨name, named⟩ := List.forall_mem_cons.mp named
    simp [Graph.checkTube, marks, name, ih straight named, above]
  | fork found => simp [found] at straight
  | loop found => simp [found] at straight
  | iter found => simp [found] at straight

theorem nested_nonneg (tame : Tame whole) (nested : Nested whole r code) : 0 ≤ r := by
  induction nested with
  | whole => exact Int.le_refl 0
  | rest _ ih => exact ih
  | group _ _ ih => exact ih
  | @dip r i is inner dip ih =>
    have level := (tame.levels r i is inner dip).1
    omega
  | arm _ _ _ _ ih => exact ih
  | turn _ _ _ ih =>
    split
    · omega
    · exact ih

theorem steady_dip (group : i.isGroup = false) (dip : i.name = "DIP") (above : 0 ≤ r)
    (level : 0 ≤ dipLevel i) (sum : r + dipLevel i ≤ greatestWord)
    (body : Steady (r + dipLevel i) (flatten (dipBody i)) (r + dipLevel i))
    (rest : Steady r (flatten is) r) : Steady r (flatten (i :: is)) r := by
  obtain ⟨least, greatest⟩ := dipLevel_bounds i
  obtain ⟨least', greatest'⟩ := wrap_bounds (-dipLevel i)
  have opened : wrap (r + dipLevel i) = r + dipLevel i :=
    wrap_eq (by unfold leastWord; omega) sum
  have closed : wrap (r + dipLevel i + wrap (-dipLevel i)) = r := by
    have back := wrap_back (d := r) (by unfold leastWord; omega) (by omega) (dipLevel i)
    rwa [opened] at back
  rw [flatten_dip group dip]
  apply Steady.marker (marker_straight _) (isMarker_marker _)
  · rw [markerDelta_marker least greatest, opened]
    omega
  · rw [markerDelta_marker least greatest, opened]
    apply steady_append body
    apply Steady.marker (marker_straight _) (isMarker_marker _)
    · rwa [markerDelta_marker least' greatest', closed]
    · rwa [markerDelta_marker least' greatest', closed]

/-- In a loop that iterates, the body is one deeper; it may be too deep for a word only if it is
empty. -/
theorem steady_joint {j : Joint} (found : Joint.ofName? i.name = some j) (above : 0 ≤ r)
    (below : r ≤ greatestWord)
    (arms : j.isLoop = false → ∀ k < 2, Steady r (flatten (arm i k)) r)
    (turn : j.isLoop = true →
      Steady (wrap (if j = .iter then r + 1 else r)) (flatten (arm i 0))
        (wrap (if j = .iter then r + 1 else r)))
    (rest : Steady r (flatten is) r) : Steady r (flatten (i :: is)) r := by
  obtain ⟨group, dip⟩ := joint_apart found
  rw [flatten_other group dip]
  cases loops : j.isLoop with
  | false => exact .fork found loops (arms loops 0 (by decide)) (arms loops 1 (by decide)) rest
  | true =>
    have body := turn loops
    by_cases iter : j = .iter
    · rw [if_pos iter] at body
      exact .iter (iter ▸ found) above below body rest
    · rw [if_neg iter, wrap_eq (by unfold leastWord; omega) below] at body
      exact .loop found loops iter body rest

theorem steady_flatten (tame : Tame whole) (nested : Nested whole r code) :
    Steady (wrap r) (flatten code) (wrap r) := by
  induction size : sizeOf code using Nat.strongRecOn generalizing code r with
  | ind k smaller =>
    cases code with
    | nil =>
      rw [flatten_nil]
      exact .nil
    | cons i is =>
      rw [List.cons.sizeOf_spec] at size
      have part : ∀ s (c : Code), Nested whole s c → sizeOf c < k →
          Steady (wrap s) (flatten c) (wrap s) :=
        fun s c inner small => smaller _ small inner rfl
      have above := nested_nonneg tame nested
      have below := tame.sums r i is nested
      have word : wrap r = r := wrap_eq (by unfold leastWord; omega) below
      have rest := part r is nested.rest (by omega)
      by_cases group : i.isGroup = true
      · have inner := sizeOf_body i
        rw [flatten_group group]
        exact steady_append (part r i.body (nested.group group) (by omega)) rest
      · have group : i.isGroup = false := by simpa using group
        rw [word] at rest ⊢
        by_cases dip : i.name = "DIP"
        · have inner := sizeOf_dipBody i
          obtain ⟨level, sum⟩ := tame.levels r i is nested dip
          have body := part _ (dipBody i) (nested.dip dip) (by omega)
          rw [wrap_eq (by unfold leastWord; omega) sum] at body
          exact steady_dip group dip above level sum body rest
        · cases found : Joint.ofName? i.name with
          | none =>
            rw [flatten_other group dip]
            exact .run found (tame.unmarked r i is nested) rest
          | some j =>
            refine steady_joint found above below ?_ ?_ rest
            · intro branches k small
              have inner := sizeOf_arm i k
              have body := part r (arm i k) (nested.arm found branches small) (by omega)
              rwa [word] at body
            · intro loops
              have inner := sizeOf_arm i 0
              exact part _ (arm i 0) (nested.turn found loops) (by omega)

end Steady

/-! ## Charts -/

/-- A stack that goes on to the node at depth `e` finds it charted so, or has reached the end. -/
def GoesOn (depth : Int → Option Int) (next e : Int) : Prop :=
  if next = noNode then e = 0 else depth next = some e

namespace Graph

/-- The node passes its checks at its depth and sends stacks on as the depths say. -/
def Passes (g : Graph) (depth : Int → Option Int) (id : Int) : Prop :=
  ∀ d, depth id = some d → ∃ n, g.node? id = some n ∧ (checkNode supports id n d).2 = [] ∧
    ∀ target ∈ (checkNode supports id n d).1, depth target.1 = some target.2

def Named (g : Graph) : Prop :=
  ∀ id n, g.node? id = some n → n.kind = .tube → ∀ i ∈ n.code, supports i.name = true

section Passes

variable {g : Graph} {depth : Int → Option Int} {id next p q d e : Int} {code : Code} {j : Joint}

theorem passes_tube (named : g.Named) (found : g.node? id = some (.tube id code next))
    (straight : ∀ i ∈ code, Joint.ofName? i.name = none) (level : depth id = some d)
    (steady : Steady d code e) (goes : GoesOn depth next e) : g.Passes depth id := by
  intro d' level'
  cases Option.some.inj (level.symm.trans level')
  have checked : checkTube supports id code d = (e, []) :=
    checkTube_steady steady straight (named id _ found rfl)
  refine ⟨_, found, ?_⟩
  unfold GoesOn at goes
  split at goes
  · rename_i ends
    simp [checkNode, Node.tube, checked, ends, goes]
  · rename_i active
    simp [checkNode, Node.tube, checked, active, goes]

theorem supports_joint (j : Joint) : supports j.name = true := by
  cases j <;> decide

theorem passes_fork (found : g.node? id = some (.fork id j.name [p, q])) (level : depth id = some d)
    (first : depth p = some (if j = .iter then wrap (d + 1) else d))
    (second : depth q = some d) : g.Passes depth id := by
  intro d' level'
  cases Option.some.inj (level.symm.trans level')
  have same : (j.name == Joint.iter.name) = decide (j = .iter) := by
    cases j <;> decide
  refine ⟨_, found, ?_⟩
  simp [checkNode, Node.fork, supports_joint, edgeDepths, same, first, second]

end Passes

end Graph

/-- The nodes from `a` to `b` can be given depths such that a stack which enters them at depth `d`
leaves them at depth `e`. -/
def Graph.Levelled (g : Graph) (last : Int) (a b : Nat) (entry d e : Int) : Prop :=
  ∃ own : Nat → Int, ∀ depth : Int → Option Int,
    (∀ k : Nat, a ≤ k → k < b → depth k = some (own k)) → depth terminalId = some 0 →
    GoesOn depth last e → depth entry = some d ∧ ∀ k : Nat, a ≤ k → k < b → g.Passes depth k

section Levelled

variable {g : Graph} {a b c n : Nat} {j : Joint} {before flat : Code} {last entry d e m p q r cont : Int}

theorem goesOn_active {depth : Int → Option Int} {next e : Int} (active : next ≠ noNode) :
    GoesOn depth next e ↔ depth next = some e := by
  rw [GoesOn, if_neg active]

theorem goesOn_ended (depth : Int → Option Int) : GoesOn depth noNode 0 := by
  rw [GoesOn, if_pos rfl]

def forkDepths (b c : Nat) (d m : Int) (older first second : Nat → Int) (k : Nat) : Int :=
  if k < b then older k
  else if k = b then d
  else if k = b + 1 then m
  else if k < c then first k
  else second k

theorem levelled_fork (named : g.Named) (forks : g.Forks b before j p q)
    (run : Steady d before m) (behind : g.Levelled last a b r m e) (active : r ≠ noNode)
    (first : g.Levelled cont (b + 2) c p (if j = .iter then wrap (m + 1) else m) m)
    (second : g.Levelled r c n q m m) (comes : cont = r ∨ cont = b + 1) (le : a ≤ b)
    (le' : b + 2 ≤ c) (le'' : c ≤ n) : g.Levelled last a n b d e := by
  obtain ⟨own₀, older⟩ := behind
  obtain ⟨own₁, left⟩ := first
  obtain ⟨own₂, right⟩ := second
  refine ⟨forkDepths b c d m own₀ own₁ own₂, fun depth given terminal goes => ?_⟩
  have tube : depth b = some d := by
    rw [given b le (by omega), forkDepths, if_neg (by omega), if_pos rfl]
  have joint : depth ((b : Int) + 1) = some m := by
    rw [← Int.natCast_succ, given (b + 1) (by omega) (by omega), forkDepths, if_neg (by omega),
      if_neg (by omega), if_pos rfl]
  have old : ∀ k : Nat, a ≤ k → k < b → depth k = some (own₀ k) := by
    intro k lower upper
    rw [given k lower (by omega), forkDepths, if_pos upper]
  obtain ⟨entered, inner⟩ := older depth old terminal goes
  have turns : GoesOn depth cont m := by
    rcases comes with same | same
    · rwa [same, goesOn_active active]
    · rwa [same, goesOn_active (by unfold noNode; omega)]
  obtain ⟨entered₁, inner₁⟩ := left depth (by
    intro k lower upper
    rw [given k (by omega) (by omega), forkDepths, if_neg (by omega), if_neg (by omega),
      if_neg (by omega), if_pos upper]) terminal turns
  obtain ⟨entered₂, inner₂⟩ := right depth (by
    intro k lower upper
    rw [given k (by omega) upper, forkDepths, if_neg (by omega), if_neg (by omega),
      if_neg (by omega), if_neg (by omega)]) terminal ((goesOn_active active).mpr entered)
  refine ⟨tube, fun k lower upper => ?_⟩
  by_cases small : k < b
  · exact inner k lower small
  · by_cases here : k = b
    · rw [here]
      exact Graph.passes_tube named forks.tube forks.straight tube run
        ((goesOn_active (by unfold noNode; omega)).mpr joint)
    · by_cases turn : k = b + 1
      · rw [turn, Int.natCast_succ]
        exact Graph.passes_fork forks.joint joint entered₁ entered₂
      · by_cases early : k < c
        · exact inner₁ k (by omega) early
        · exact inner₂ k (by omega) upper

theorem levelled_empty (active : last ≠ noNode) : g.Levelled last a a last d d := by
  refine ⟨fun _ => 0, fun depth _ _ goes => ⟨(goesOn_active active).mp goes, ?_⟩⟩
  intro k lower upper
  omega

theorem levelled_tube (named : g.Named) (found : g.node? a = some (.tube a flat last))
    (straight : ∀ i ∈ flat, Joint.ofName? i.name = none) (steady : Steady d flat e) :
    g.Levelled last a (a + 1) a d e := by
  refine ⟨fun _ => d, fun depth given _ goes => ?_⟩
  have level := given a (Nat.le_refl a) (Nat.lt_succ_self a)
  refine ⟨level, fun k lower upper => ?_⟩
  have same : k = a := by omega
  rw [same]
  exact Graph.passes_tube named found straight level steady goes

theorem levelled_append (later : g.Levelled entry b c p d m) (active : entry ≠ noNode)
    (older : g.Levelled last a b entry m e) (le : a ≤ b) (le' : b ≤ c) :
    g.Levelled last a c p d e := by
  obtain ⟨own₀, old⟩ := older
  obtain ⟨own₁, new⟩ := later
  refine ⟨fun k => if k < b then own₀ k else own₁ k, fun depth given terminal goes => ?_⟩
  obtain ⟨entered, inner⟩ := old depth
    (fun k lower upper => by simpa [upper] using given k lower (by omega)) terminal goes
  obtain ⟨entered', outer⟩ := new depth
    (fun k lower upper => by simpa [Nat.not_lt.mpr lower] using given k (by omega) upper) terminal
    ((goesOn_active active).mpr entered)
  refine ⟨entered', fun k lower upper => ?_⟩
  by_cases small : k < b
  · exact inner k lower small
  · exact outer k (by omega) upper

/-- What was made for steady code can be given depths. -/
theorem made_levelled (named : g.Named) (made : Made g flat last a b entry)
    (steady : Steady d flat e) (ends : last = noNode → e = 0) : g.Levelled last a b entry d e := by
  induction made generalizing d e with
  | skip active =>
    cases steady
    exact levelled_empty active
  | terminal _ =>
    cases steady
    cases ends rfl
    exact ⟨fun _ => 0, fun depth _ terminal _ => ⟨terminal, fun k lower upper => by omega⟩⟩
  | tube straight found => exact levelled_tube named found straight steady
  | @fork i j before after last p q r a b c n found branches forks older first second ih ih₁ ih₂ =>
    obtain ⟨m, run, steady⟩ := steady_split steady
    obtain ⟨left, right, rest⟩ := steady_branches found branches steady
    have active := made_entry older
    have other : j ≠ .iter := by
      rintro rfl
      cases branches
    have one := ih₁ left fun ended => absurd ended active
    have two := ih₂ right fun ended => absurd ended active
    exact levelled_fork named forks run (ih rest ends) active (by rwa [if_neg other]) two (.inl rfl)
      (made_size older) (made_size first) (made_size second)
  | @loop i j before after last p r a b n found loops other forks older first ih ih₁ =>
    obtain ⟨m, run, steady⟩ := steady_split steady
    obtain ⟨body, rest⟩ := steady_turn found loops other steady
    have active := made_entry older
    have one := ih₁ body fun ended => absurd ended (by unfold noNode; omega)
    exact levelled_fork named forks run (ih rest ends) active (by rwa [if_neg other])
      (levelled_empty active) (.inr rfl) (made_size older) (made_size first) (Nat.le_refl n)
  | @iter i before after last p r a b n found forks older back first ih ih₁ =>
    obtain ⟨m, run, steady⟩ := steady_split steady
    obtain ⟨above, below, body, rest⟩ := steady_iteration found steady
    have active := made_entry older
    have cast : ((b + 2 : Nat) : Int) = b + 2 := by simp
    have one := ih₁ body fun ended => absurd ended (by unfold noNode; omega)
    rw [← cast] at back one
    have turn := levelled_tube named back (List.forall_mem_singleton.mpr (marker_straight (-1)))
      (steady_back above below)
    have whole := levelled_append one (by unfold noNode; omega) turn (by omega) (made_size first)
    have le := made_size first
    exact levelled_fork named forks run (ih rest ends) active (by rwa [if_pos rfl])
      (levelled_empty active) (.inr rfl) (made_size older) (by omega) (Nat.le_refl n)

end Levelled

/-- The terminal node at depth zero, and each other node at its own depth. -/
def Graph.depthsOf (g : Graph) (own : Nat → Int) (id : Int) : Option Int :=
  if id = terminalId then some 0
  else if 0 ≤ id ∧ id < g.size then some (own id.toNat)
  else none

theorem depthsOf_node (g : Graph) (own : Nat → Int) (k : Nat) (lower : 1 ≤ k) (upper : k < g.size) :
    g.depthsOf own k = some (own k) := by
  rw [Graph.depthsOf, if_neg (by unfold terminalId; omega), if_pos ⟨by omega, by omega⟩,
    Int.toNat_natCast]

/-- Compiled code of known instructions is valid if it is tame. -/
theorem build_valid {code : Code} (tame : Tame code) (named : (Graph.build code).Named) :
    (Graph.build code).validate supports = .ok () := by
  have steady : Steady 0 (flatten code) 0 := steady_flatten tame .whole
  obtain ⟨own, levels⟩ := made_levelled named (build_made code) steady fun _ => rfl
  have terminal : (Graph.build code).depthsOf own terminalId = some 0 := if_pos rfl
  obtain ⟨root, passes⟩ := levels _ (depthsOf_node _ own) terminal (goesOn_ended _)
  apply Graph.validate_of_charted
  refine ⟨root, fun id => ?_⟩
  by_cases ends : id = terminalId
  · rw [ends]
    exact Graph.passes_tube named (build_terminal code) (by simp) terminal .nil
      (goesOn_ended _)
  · intro d level
    have inside : 0 ≤ id ∧ id < (Graph.build code).size := by
      by_contra outside
      rw [Graph.depthsOf, if_neg ends, if_neg outside] at level
      cases level
    obtain ⟨k, rfl⟩ := Int.eq_ofNat_of_zero_le inside.1
    have active : k ≠ 0 := fun zero => ends (by rw [zero]; rfl)
    exact passes k (by omega) (by omega) d level

end StackFlow
