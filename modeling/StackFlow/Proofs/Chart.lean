import Mathlib.Data.List.Nodup
import StackFlow.Graph.Validate

/-!
A validated graph has a chart: it gives depths to nodes, among them the root, such that a charted
node passes its checks at its depth and sends stacks to charted nodes only, at their depths. The
depths that the crawl has given out when it ends are such a chart, and a graph with a chart is valid.
-/

namespace StackFlow.Graph

open Micheline (Code)

variable {known : String → Bool} {g : Graph}

structure Charted (known : String → Bool) (g : Graph) (depth : Int → Option Int) : Prop where
  root : depth g.root = some 0
  node : ∀ id d, depth id = some d → ∃ n, g.node? id = some n ∧ (checkNode known id n d).2 = [] ∧
    ∀ target ∈ (checkNode known id n d).1, depth target.1 = some target.2

theorem mem_of_node? {id : Int} {n : Node} (found : g.node? id = some n) : n ∈ g.nodes.toList := by
  unfold node? at found
  split at found
  · cases found
  · exact Array.mem_toList_iff.mpr (Array.mem_of_getElem? found)

theorem node?_positions {id : Int} (found : (g.node? id).isSome) : id ∈ g.positions := by
  unfold node? at found
  split at found
  · contradiction
  · obtain ⟨n, at_id⟩ := Option.isSome_iff_exists.mp found
    obtain ⟨bound, _⟩ := Array.getElem?_eq_some_iff.mp at_id
    exact List.mem_map.mpr ⟨id.toNat, List.mem_range.mpr bound, Int.toNat_of_nonneg (by omega)⟩

theorem positions_nodup : g.positions.Nodup :=
  List.Nodup.map (fun _ _ same => Int.ofNat.inj same) List.nodup_range

namespace Crawl

/-- What following edges to `targets` does to a crawl that runs into no problem. -/
structure Follows (g : Graph) (targets : List (Int × Int)) (c c' : Crawl) : Prop where
  fresh : c'.fresh = c.fresh
  clean : c.problems = []
  kept : ∀ id d, c.depths.lookup id = some d → c'.depths.lookup id = some d
  reached : ∀ target ∈ targets, c'.depths.lookup target.1 = some target.2
  present : ∀ id d, c'.depths.lookup id = some d → c.depths.lookup id = none → (g.node? id).isSome
  waiting : ∀ id d, c'.depths.lookup id = some d → c.depths.lookup id = none → id ∈ c.fresh →
    id ∈ c'.queue
  queue : ∀ id ∈ c.queue, id ∈ c'.queue
  queued : ∀ id ∈ c'.queue, id ∈ c.queue ∨ (c'.depths.lookup id).isSome

/-- An edge that is followed without a problem leads to a node, at the depth that the node has or
now gets. -/
theorem follow_clean {id next d : Int} {c : Crawl}
    (clean : (c.follow g id (next, d)).problems = []) :
    c.problems = [] ∧ (g.node? next).isSome ∧ ∃ depths,
      c.follow g id (next, d) =
        { c with depths, queue := if next ∈ c.fresh then c.queue ++ [next] else c.queue } ∧
      ((c.depths.lookup next = some d ∧ depths = c.depths) ∨
        (c.depths.lookup next = none ∧ depths = (next, d) :: c.depths)) := by
  simp only [follow] at clean ⊢
  by_cases missing : (g.node? next).isNone
  · simp [missing] at clean
  · have present : (g.node? next).isSome := by simpa [Option.isSome_iff_ne_none] using missing
    simp only [missing] at clean ⊢
    cases charted : c.depths.lookup next with
    | none =>
      simp only [charted] at clean
      exact ⟨clean, present, _, rfl, .inr ⟨rfl, rfl⟩⟩
    | some e =>
      simp only [charted] at clean ⊢
      by_cases same : e = d
      · subst same
        simp only [ne_eq, not_true_eq_false, if_false] at clean ⊢
        exact ⟨clean, present, c.depths, rfl, .inl ⟨trivial, rfl⟩⟩
      · simp [same] at clean

theorem follows_one {id : Int} {c : Crawl} {target : Int × Int}
    (clean : (c.follow g id target).problems = []) :
    Follows g [target] c (c.follow g id target) := by
  obtain ⟨next, d⟩ := target
  obtain ⟨before, present, depths, result, charted⟩ := follow_clean clean
  have enqueued : ∀ x, x ∈ (if next ∈ c.fresh then c.queue ++ [next] else c.queue) ↔
      x ∈ c.queue ∨ (next ∈ c.fresh ∧ x = next) := by
    intro x
    split <;> simp [*]
  rw [result]
  rcases charted with ⟨charted, rfl⟩ | ⟨charted, rfl⟩
  · refine ⟨rfl, before, fun _ _ h => h, by simpa using charted, ?_, ?_, ?_, ?_⟩
    · intro x e now never
      simp [never] at now
    · intro x e now never
      simp [never] at now
    · exact fun x member => (enqueued x).mpr (.inl member)
    · intro x member
      rcases (enqueued x).mp member with member | ⟨_, rfl⟩
      · exact .inl member
      · exact .inr (by simp [charted])
  · have only : ∀ x e, ((next, d) :: c.depths).lookup x = some e → c.depths.lookup x = none →
        x = next := by
      intro x e now never
      by_contra other
      simp [List.lookup_cons, beq_false_of_ne other, never] at now
    refine ⟨rfl, before, ?_, by simp [List.lookup_cons], ?_, ?_, ?_, ?_⟩
    · intro x e h
      have other : x ≠ next := by
        rintro rfl
        simp [charted] at h
      simpa [List.lookup_cons, beq_false_of_ne other] using h
    · intro x e now never
      rw [only x e now never]
      exact present
    · intro x e now never fresh
      have same := only x e now never
      exact (enqueued x).mpr (.inr ⟨same ▸ fresh, same⟩)
    · exact fun x member => (enqueued x).mpr (.inl member)
    · intro x member
      rcases (enqueued x).mp member with member | ⟨_, rfl⟩
      · exact .inl member
      · exact .inr (by simp)

theorem follows_nil {c : Crawl} (clean : c.problems = []) : Follows g [] c c where
  fresh := rfl
  clean := clean
  kept := fun _ _ h => h
  reached := by simp
  present := fun _ _ now never => by simp [never] at now
  waiting := fun _ _ now never => by simp [never] at now
  queue := fun _ member => member
  queued := fun _ member => .inl member

theorem follows_append {ts us : List (Int × Int)} {c c' c'' : Crawl} (first : Follows g ts c c')
    (second : Follows g us c' c'') : Follows g (ts ++ us) c c'' where
  fresh := second.fresh.trans first.fresh
  clean := first.clean
  kept := fun id d h => second.kept id d (first.kept id d h)
  reached := by
    intro target member
    rcases List.mem_append.mp member with member | member
    · exact second.kept _ _ (first.reached target member)
    · exact second.reached target member
  present := by
    intro id d now never
    cases between : c'.depths.lookup id with
    | none => exact second.present id d now between
    | some e => exact first.present id e between never
  waiting := by
    intro id d now never fresh
    cases between : c'.depths.lookup id with
    | none => exact second.waiting id d now between (first.fresh ▸ fresh)
    | some e => exact second.queue id (first.waiting id e between never fresh)
  queue := fun id member => second.queue id (first.queue id member)
  queued := by
    intro id member
    rcases second.queued id member with member | charted
    · rcases first.queued id member with member | charted
      · exact .inl member
      · obtain ⟨d, charted⟩ := Option.isSome_iff_exists.mp charted
        exact .inr (by simp [second.kept id d charted])
    · exact .inr charted

theorem follows_foldl {id : Int} {targets : List (Int × Int)} {c : Crawl}
    (clean : (targets.foldl (follow g id) c).problems = []) :
    Follows g targets c (targets.foldl (follow g id) c) := by
  induction targets generalizing c with
  | nil => exact follows_nil clean
  | cons target targets ih =>
    have rest := ih clean
    exact follows_append (follows_one rest.clean) rest

/-- What a crawl without problems has established. -/
structure Surveyed (known : String → Bool) (g : Graph) (c : Crawl) : Prop where
  distinct : c.fresh.Nodup
  root : c.depths.lookup g.root = some 0
  present : ∀ id d, c.depths.lookup id = some d → (g.node? id).isSome
  seen : ∀ id, (g.node? id).isSome → id ∉ c.fresh → (c.depths.lookup id).isSome
  waiting : ∀ id d, c.depths.lookup id = some d → id ∈ c.fresh → id ∈ c.queue
  queued : ∀ id ∈ c.queue, (c.depths.lookup id).isSome
  checked : ∀ id d, c.depths.lookup id = some d → id ∉ c.fresh → ∃ n, g.node? id = some n ∧
    (checkNode known id n d).2 = [] ∧
      ∀ target ∈ (checkNode known id n d).1, c.depths.lookup target.1 = some target.2

theorem surveyed_visit {id : Int} {queue : List Int} {c : Crawl} (sound : Surveyed known g c)
    (picked : c.queue.Perm (id :: queue))
    (clean : (visit known g id { c with queue, fresh := c.fresh.erase id }).problems = []) :
    Surveyed known g (visit known g id { c with queue, fresh := c.fresh.erase id }) := by
  obtain ⟨d, depth⟩ :=
    Option.isSome_iff_exists.mp (sound.queued id (picked.mem_iff.mpr List.mem_cons_self))
  obtain ⟨n, found⟩ := Option.isSome_iff_exists.mp (sound.present id d depth)
  simp only [visit, found, depth, Option.getD_some] at clean ⊢
  have follows := follows_foldl clean
  obtain ⟨before, problems⟩ := List.append_eq_nil_iff.mp follows.clean
  generalize (checkNode known id n d).1.foldl (follow g id) _ = c' at follows
  have fresh : c'.fresh = c.fresh.erase id := follows.fresh
  have mem_fresh : ∀ x, x ∈ c'.fresh ↔ x ≠ id ∧ x ∈ c.fresh := fun x => by
    rw [follows.fresh, sound.distinct.mem_erase_iff]
  -- a node that was looked at before has kept its depth
  have old : ∀ x e, c'.depths.lookup x = some e → (g.node? x).isSome → x ∉ c.fresh →
      c.depths.lookup x = some e := by
    intro x e now there looked
    obtain ⟨e', before⟩ := Option.isSome_iff_exists.mp (sound.seen x there looked)
    rw [follows.kept x e' before] at now
    rw [before, now]
  have present : ∀ x e, c'.depths.lookup x = some e → (g.node? x).isSome := by
    intro x e now
    cases before : c.depths.lookup x with
    | none => exact follows.present x e now before
    | some e' => exact sound.present x e' before
  have at_id : c'.depths.lookup id = some d := follows.kept id d depth
  refine ⟨?_, follows.kept _ _ sound.root, present, ?_, ?_, ?_, ?_⟩
  · rw [follows.fresh]
    exact sound.distinct.erase id
  · intro x there looked
    by_cases same : x = id
    · simp [same, at_id]
    · have before : x ∉ c.fresh := fun fresh => looked ((mem_fresh x).mpr ⟨same, fresh⟩)
      obtain ⟨e, charted⟩ := Option.isSome_iff_exists.mp (sound.seen x there before)
      simp [follows.kept x e charted]
  · intro x e now fresh
    obtain ⟨other, before⟩ := (mem_fresh x).mp fresh
    cases charted : c.depths.lookup x with
    | none => exact follows.waiting x e now charted (by rw [← follows.fresh]; exact fresh)
    | some e' =>
      have member := sound.waiting x e' charted before
      rw [picked.mem_iff, List.mem_cons] at member
      exact follows.queue x (member.resolve_left other)
  · intro x member
    rcases follows.queued x member with member | charted
    · have member : x ∈ c.queue := picked.mem_iff.mpr (List.mem_cons_of_mem id member)
      obtain ⟨e, charted⟩ := Option.isSome_iff_exists.mp (sound.queued x member)
      simp [follows.kept x e charted]
    · exact charted
  · intro x e now looked
    by_cases same : x = id
    · subst same
      rw [at_id] at now
      cases Option.some.inj now
      exact ⟨n, found, problems, follows.reached⟩
    · have before : x ∉ c.fresh := fun fresh => looked ((mem_fresh x).mpr ⟨same, fresh⟩)
      obtain ⟨m, there, passed, targets⟩ :=
        sound.checked x e (old x e now (present x e now) before) before
      exact ⟨m, there, passed, fun target member => follows.kept _ _ (targets target member)⟩

theorem surveyed_skip {id : Int} {queue : List Int} {c : Crawl} (sound : Surveyed known g c)
    (picked : c.queue.Perm (id :: queue)) (looked : id ∉ c.fresh) :
    Surveyed known g { c with queue } where
  distinct := sound.distinct
  root := sound.root
  present := sound.present
  seen := sound.seen
  waiting := by
    intro x e charted fresh
    have member := sound.waiting x e charted fresh
    rw [picked.mem_iff, List.mem_cons] at member
    refine member.resolve_left ?_
    rintro rfl
    exact looked fresh
  queued := fun x member => sound.queued x (picked.mem_iff.mpr (List.mem_cons_of_mem id member))
  checked := sound.checked

theorem visit_clean {id : Int} {c : Crawl} (clean : (visit known g id c).problems = []) :
    c.problems = [] := by
  unfold visit at clean
  split at clean
  · exact clean
  · exact (List.append_eq_nil_iff.mp (follows_foldl clean).clean).1

end Crawl

theorem crawl_clean {c : Crawl} (clean : (crawl known g c).problems = []) : c.problems = [] := by
  fun_induction crawl known g c with
  | case1 c empty => exact clean
  | case2 c id queue head fresh _ _ ih =>
    have before := Crawl.visit_clean (ih clean)
    exact before
  | case3 c id queue head looked ih => exact ih clean

theorem crawl_surveyed {c : Crawl} (sound : Crawl.Surveyed known g c)
    (clean : (crawl known g c).problems = []) :
    Crawl.Surveyed known g (crawl known g c) ∧ (crawl known g c).queue = [] := by
  fun_induction crawl known g c with
  | case1 c empty => exact ⟨sound, empty⟩
  | case2 c id queue head fresh _ _ ih =>
    exact ih (Crawl.surveyed_visit sound (.of_eq head) (crawl_clean clean)) clean
  | case3 c id queue head looked ih =>
    exact ih (Crawl.surveyed_skip sound (.of_eq head) looked) clean

/-- Where a crawl of the graph begins. -/
def outset (g : Graph) : Crawl :=
  { queue := [g.root], fresh := g.positions, depths := [(g.root, 0)], problems := [] }

theorem survey_start (root : (g.node? g.root).isSome) : Crawl.Surveyed known g g.outset where
  distinct := positions_nodup
  root := by simp [outset]
  present := by
    intro id d charted
    by_cases same : id = g.root
    · rw [same]
      exact root
    · simp [outset, List.lookup_cons, beq_false_of_ne same] at charted
  seen := fun id there looked => absurd (node?_positions there) looked
  waiting := by
    intro id d charted _
    by_cases same : id = g.root
    · simp [outset, same]
    · simp [outset, List.lookup_cons, beq_false_of_ne same] at charted
  queued := by simp [outset]
  checked := by
    intro id d charted looked
    by_cases same : id = g.root
    · exact absurd (node?_positions (same ▸ root)) looked
    · simp [outset, List.lookup_cons, beq_false_of_ne same] at charted

theorem charted_of_surveyed {c : Crawl} (sound : Crawl.Surveyed known g c) (empty : c.queue = []) :
    Charted known g fun id => c.depths.lookup id := by
  refine ⟨sound.root, fun id d charted => sound.checked id d charted fun fresh => ?_⟩
  have member := sound.waiting id d charted fresh
  rw [empty] at member
  contradiction

/-- The depths that the crawl of a valid graph gives out are a chart of it. -/
theorem charted_of_validate (valid : g.validate known = .ok ()) :
    Charted known g fun id => (g.survey known).depths.lookup id := by
  unfold validate at valid
  split at valid
  · cases valid
  · rename_i root
    have root : (g.node? g.root).isSome := by simpa [Option.isSome_iff_ne_none] using root
    split at valid
    · rename_i clean
      obtain ⟨sound, empty⟩ := crawl_surveyed (survey_start root) clean
      exact charted_of_surveyed sound empty
    · cases valid

/-! ## A chart is enough -/

/-- A crawl that has given out depths of a chart only, and has met no problem. -/
structure Crawl.Tracks (depth : Int → Option Int) (c : Crawl) : Prop where
  clean : c.problems = []
  agrees : ∀ id d, c.depths.lookup id = some d → depth id = some d
  queued : ∀ id ∈ c.queue, (c.depths.lookup id).isSome

section Tracks

variable {depth : Int → Option Int} {c : Crawl}

theorem tracks_follow {id next d : Int} (tracks : c.Tracks depth) (present : (g.node? next).isSome)
    (charted : depth next = some d) : (c.follow g id (next, d)).Tracks depth := by
  have there : (g.node? next).isNone = false := by simpa using present
  simp only [Crawl.follow, there, Bool.false_eq_true, if_false]
  have enqueued : ∀ x, x ∈ (if next ∈ c.fresh then c.queue ++ [next] else c.queue) →
      x ∈ c.queue ∨ x = next := by
    intro x
    split <;> simp +contextual
  cases known : c.depths.lookup next with
  | some e =>
    have same : e = d := Option.some.inj ((tracks.agrees next e known).symm.trans charted)
    simp only [same, ne_eq, not_true_eq_false, if_false]
    refine ⟨tracks.clean, tracks.agrees, fun x member => ?_⟩
    rcases enqueued x member with member | rfl
    · exact tracks.queued x member
    · simp [known]
  | none =>
    refine ⟨tracks.clean, ?_, ?_⟩
    · intro x e found
      by_cases here : x = next
      · subst here
        rw [List.lookup_cons_self, Option.some.injEq] at found
        rw [charted, found]
      · refine tracks.agrees x e ?_
        simpa [List.lookup_cons, beq_false_of_ne here] using found
    · intro x member
      by_cases here : x = next
      · simp [here]
      · have before := tracks.queued x ((enqueued x member).resolve_right here)
        simpa [List.lookup_cons, beq_false_of_ne here] using before

theorem tracks_foldl (chart : Charted known g depth) {id : Int} {targets : List (Int × Int)}
    (tracks : c.Tracks depth) (charted : ∀ target ∈ targets, depth target.1 = some target.2) :
    (targets.foldl (Crawl.follow g id) c).Tracks depth := by
  induction targets generalizing c with
  | nil => exact tracks
  | cons target targets ih =>
    obtain ⟨first, rest⟩ := List.forall_mem_cons.mp charted
    obtain ⟨n, found, _⟩ := chart.node target.1 target.2 first
    exact ih (tracks_follow tracks (by simp [found]) first) rest

theorem tracks_visit (chart : Charted known g depth) (tracks : c.Tracks depth) {id : Int}
    {queue : List Int} (picked : c.queue.Perm (id :: queue)) :
    (Crawl.visit known g id { c with queue, fresh := c.fresh.erase id }).Tracks depth := by
  obtain ⟨d, given⟩ :=
    Option.isSome_iff_exists.mp (tracks.queued id (picked.mem_iff.mpr List.mem_cons_self))
  obtain ⟨n, found, passed, targets⟩ := chart.node id d (tracks.agrees id d given)
  simp only [Crawl.visit, found, given, Option.getD_some, passed]
  refine tracks_foldl chart ⟨by simp [tracks.clean], tracks.agrees, ?_⟩ targets
  exact fun x member => tracks.queued x (picked.mem_iff.mpr (List.mem_cons_of_mem id member))

theorem tracks_skip (tracks : c.Tracks depth) {id : Int} {queue : List Int}
    (picked : c.queue.Perm (id :: queue)) : ({ c with queue } : Crawl).Tracks depth where
  clean := tracks.clean
  agrees := tracks.agrees
  queued := fun x member => tracks.queued x (picked.mem_iff.mpr (List.mem_cons_of_mem id member))

theorem tracks_crawl (chart : Charted known g depth) (tracks : c.Tracks depth) :
    (crawl known g c).problems = [] := by
  fun_induction crawl known g c with
  | case1 c empty => exact tracks.clean
  | case2 c id queue head fresh _ _ ih => exact ih (tracks_visit chart tracks (.of_eq head))
  | case3 c id queue head looked ih => exact ih (tracks_skip tracks (.of_eq head))

theorem tracks_start (chart : Charted known g depth) : g.outset.Tracks depth := by
  refine ⟨rfl, ?_, by simp [outset]⟩
  intro id d given
  by_cases same : id = g.root
  · subst same
    rw [outset, List.lookup_cons_self, Option.some.injEq] at given
    rw [chart.root, given]
  · simp [outset, List.lookup_cons, beq_false_of_ne same] at given

/-- A graph that has a chart is valid. -/
theorem validate_of_charted (chart : Charted known g depth) : g.validate known = .ok () := by
  obtain ⟨n, found, _⟩ := chart.node g.root 0 chart.root
  have clean : (g.survey known).problems = [] := tracks_crawl chart (tracks_start chart)
  simp only [validate, found, Option.isNone_some, Bool.false_eq_true, if_false, clean]
  rfl

end Tracks

/-! ## What a node that passes its checks is like -/

section Checks

variable {id d : Int} {n : Node}

theorem checkTube_known {code : Code} (passed : (checkTube known id code d).2 = []) :
    ∀ i ∈ code, known i.name := by
  induction code generalizing d with
  | nil => simp
  | cons k is ih =>
    simp only [checkTube, List.append_eq_nil_iff] at passed
    obtain ⟨⟨first, _⟩, rest⟩ := passed
    intro i member
    rcases List.mem_cons.mp member with rfl | member
    · by_contra unknown
      simp [unknown] at first
    · exact ih rest i member

theorem checkNode_tube (tube : n.kind = .tube) (passed : (checkNode known id n d).2 = []) :
    (checkTube known id n.code d).2 = [] := by
  simp only [checkNode, tube] at passed
  split at passed
  · exact (List.append_eq_nil_iff.mp passed).1
  · exact passed

theorem checkNode_joint (joint : n.kind = .joint) (passed : (checkNode known id n d).2 = []) :
    known n.joint ∧ n.edges.length = 2 := by
  simp only [checkNode, joint, List.append_eq_nil_iff] at passed
  refine ⟨?_, ?_⟩
  · by_contra unknown
    simp [unknown] at passed
  · by_contra count
    simp [count] at passed

theorem edgeDepths_fst (joint : String) (edges : List Int) :
    (edgeDepths joint d edges).map Prod.fst = edges := by
  cases edges with
  | nil => rfl
  | cons e es => simp [edgeDepths, Function.comp_def]

/-- A node that is a tube or a joint sends stacks to its successors. -/
theorem checkNode_targets (sort : n.kind ≠ .other) :
    (checkNode known id n d).1.map Prod.fst = n.successors := by
  cases kind : n.kind with
  | tube =>
    simp only [checkNode, Node.successors, kind]
    split <;> simp [*]
  | joint => simp [checkNode, Node.successors, kind, edgeDepths_fst]
  | other => contradiction

end Checks

end StackFlow.Graph
