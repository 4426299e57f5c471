import StackFlow.Graph.Mermaid
import StackFlow.Proofs.Reading
import StackFlow.Proofs.Search

/-!
What a flowchart shows of a graph. The lines of a node are its own one and one for each of its
edges. Main statement: each node that can be reached is declared on one line, the nearer ones first,
and the lines of its edges follow.
-/

namespace StackFlow

/-- An edge as it is drawn. -/
structure Stroke where
  source : Int
  target : Int
  label : Option String := none
  dotted : Bool := false

def Stroke.arrow (s : Stroke) : String :=
  match s.label with
  | some l => " -- \"" ++ l ++ "\" --> "
  | none => if s.dotted then " -.-> " else " --> "

def Stroke.line (s : Stroke) : String :=
  Graph.mermaidId s.source ++ s.arrow ++ Graph.mermaidId s.target

namespace Graph

/-- The edges of a node as they are drawn: those of a joint have labels, the one of a tube is dotted
if it goes back to a loop. -/
def strokes (g : Graph) (id : Int) : List Stroke :=
  match g.node? id with
  | none => []
  | some n =>
    if n.kind = .joint then
      n.edges.mapIdx fun i target => { source := id, target, label := some (edgeLabel n.joint i) }
    else if n.next = noNode then []
    else [{ source := id, target := n.next, dotted := g.isBackEdge id n.next }]

/-- The lines of a flowchart below its title. -/
def chartLines (g : Graph) : List String := g.reachable.flatMap g.nodeLines

def openings : List Char := ['(', '[', '\x7b']

/-- A line that declares the node: its name and an opening bracket. -/
def declares (id : Int) (line : String) : Bool :=
  openings.any fun c => ((mermaidId id).toList ++ [c]).isPrefixOf line.toList

section Lines

variable {g : Graph} {id id' : Int} {n : Node} {s : Stroke} {c c' : Char} {k k' : List Char}

theorem strokes_targets (g : Graph) (id : Int) :
    (g.strokes id).map Stroke.target = g.successorsOf id := by
  unfold strokes successorsOf
  cases g.node? id with
  | none => rfl
  | some n =>
    simp only [Option.map_some, Option.getD_some, Node.successors]
    split
    · exact List.ext_getElem? fun i => by simp [Function.comp_def]
    · split <;> rfl

theorem strokes_source (drawn : s ∈ g.strokes id) : s.source = id := by
  unfold strokes at drawn
  cases found : g.node? id with
  | none => simp [found] at drawn
  | some n =>
    simp only [found] at drawn
    split at drawn
    · obtain ⟨i, _, rfl⟩ := List.mem_mapIdx.mp drawn
      rfl
    · split at drawn
      · cases drawn
      · rw [List.mem_singleton.mp drawn]

/-- A node's own line, and one line for each edge. -/
theorem nodeLines_strokes (found : g.node? id = some n) :
    g.nodeLines id = shapeLine id n :: (g.strokes id).map Stroke.line := by
  simp only [nodeLines, edgeLines, strokes, found]
  split
  · rw [List.cons.injEq]
    refine ⟨rfl, List.ext_getElem? fun i => ?_⟩
    simp [Stroke.line, Stroke.arrow, Function.comp_def, String.append_assoc]
  · split <;> rfl

/-! ## Declarations -/

theorem toList_mermaidId (id : Int) : (mermaidId id).toList = 'n' :: (Decimal.text id).toList := by
  simp [mermaidId]

/-- The name of a node ends where no character of a number follows. -/
theorem mermaidId_inj (other : Json.isNumeric c = false) (other' : Json.isNumeric c' = false)
    (same : (mermaidId id).toList ++ c :: k = (mermaidId id').toList ++ c' :: k') :
    id = id' ∧ c = c' := by
  have stops {c : Char} {k : List Char} (other : Json.isNumeric c = false) :
      Json.Stops Json.isNumeric (c :: k) := by
    rintro _ ⟨⟩
    exact other
  rw [toList_mermaidId, toList_mermaidId] at same
  obtain ⟨texts, rest⟩ := Json.run_inj (Json.isNumber_text id).numeric
    (Json.isNumber_text id').numeric (stops other) (stops other') (List.cons.inj same).2
  refine ⟨?_, (List.cons.inj rest).1⟩
  have read := Decimal.readInteger?_text id
  rw [String.toList_inj.mp texts, Decimal.readInteger?_text] at read
  exact (Option.some.inj read).symm

theorem openings_other (member : c ∈ openings) : Json.isNumeric c = false := by
  simp only [openings, List.mem_cons, List.not_mem_nil, or_false] at member
  rcases member with rfl | rfl | rfl <;> rfl

theorem declares_iff {line : String} : declares id line = true ↔
    ∃ c ∈ openings, ∃ k, line.toList = (mermaidId id).toList ++ c :: k := by
  simp only [declares, List.any_eq_true, List.isPrefixOf_iff_prefix]
  constructor
  · rintro ⟨c, member, k, same⟩
    exact ⟨c, member, k, by simpa using same.symm⟩
  · rintro ⟨c, member, k, same⟩
    exact ⟨c, member, k, by simp [same]⟩

theorem shapeLine_opens (id : Int) (n : Node) :
    ∃ c ∈ openings, ∃ k, (shapeLine id n).toList = (mermaidId id).toList ++ c :: k := by
  unfold shapeLine
  split
  · exact ⟨'(', by decide, "(\"end\"))".toList, by simp⟩
  · split
    · exact ⟨'\x7b', by decide, ("\"" ++ Decimal.text id ++ ": " ++ n.joint ++ "\"\x7d").toList,
        by simp⟩
    · exact ⟨'[', by decide, ("\"" ++ tubeLabel n ++ "\"]").toList, by simp⟩

theorem declares_shapeLine : declares id (shapeLine id' n) = decide (id' = id) := by
  obtain ⟨c, opening, k, line⟩ := shapeLine_opens id' n
  by_cases same : id' = id
  · subst same
    rw [decide_eq_true rfl]
    exact declares_iff.mpr ⟨c, opening, k, line⟩
  · rw [decide_eq_false same, Bool.eq_false_iff]
    intro declared
    obtain ⟨c', opening', k', line'⟩ := declares_iff.mp declared
    exact same (mermaidId_inj (openings_other opening) (openings_other opening')
      (line.symm.trans line')).1

theorem arrow_blank (s : Stroke) : ∃ k, s.arrow.toList = ' ' :: k := by
  unfold Stroke.arrow
  split
  · rename_i l _
    exact ⟨("-- \"" ++ l ++ "\" --> ").toList, by simp⟩
  · split
    · exact ⟨"-.-> ".toList, rfl⟩
    · exact ⟨"--> ".toList, rfl⟩

theorem declares_stroke : declares id s.line = false := by
  obtain ⟨k, arrow⟩ := arrow_blank s
  rw [Bool.eq_false_iff]
  intro declared
  obtain ⟨c, opening, k', line⟩ := declares_iff.mp declared
  have blank : s.line.toList =
      (mermaidId s.source).toList ++ ' ' :: (k ++ (mermaidId s.target).toList) := by
    simp [Stroke.line, arrow]
  obtain ⟨_, rfl⟩ := mermaidId_inj (by decide) (openings_other opening) (blank.symm.trans line)
  exact absurd opening (by decide)

/-- The line that is drawn for an edge shows whether it is dotted. -/
theorem line_dotted (drawn : s ∈ g.strokes id) :
    s.line = mermaidId id ++ " -.-> " ++ mermaidId s.target ↔ s.dotted = true := by
  have arrows : s.line = mermaidId id ++ " -.-> " ++ mermaidId s.target ↔ s.arrow = " -.-> " := by
    rw [Stroke.line, strokes_source drawn, ← String.toList_inj, ← String.toList_inj]
    simp only [String.toList_append, List.append_cancel_right_eq, List.append_cancel_left_eq]
  rw [arrows]
  unfold strokes at drawn
  cases found : g.node? id with
  | none => simp [found] at drawn
  | some n =>
    simp only [found] at drawn
    split at drawn
    · obtain ⟨i, _, rfl⟩ := List.mem_mapIdx.mp drawn
      simp [Stroke.arrow, ← String.toList_inj]
    · split at drawn
      · cases drawn
      · obtain rfl := List.mem_singleton.mp drawn
        cases g.isBackEdge id n.next <;> simp [Stroke.arrow]

theorem nodeLines_declares (found : g.node? id' = some n) :
    (g.nodeLines id').countP (declares id) = if id' = id then 1 else 0 := by
  have edges : ((g.strokes id').map Stroke.line).countP (declares id) = 0 := by
    rw [List.countP_eq_zero]
    intro line member
    obtain ⟨s, _, rfl⟩ := List.mem_map.mp member
    simp [declares_stroke]
  rw [nodeLines_strokes found, List.countP_cons, edges, declares_shapeLine]
  simp

theorem countP_declares {ids : List Int} (present : ∀ id ∈ ids, (g.node? id).isSome) :
    (ids.flatMap g.nodeLines).countP (declares id) = ids.count id := by
  induction ids with
  | nil => rfl
  | cons id' ids ih =>
    obtain ⟨here, later⟩ := List.forall_mem_cons.mp present
    obtain ⟨n, found⟩ := Option.isSome_iff_exists.mp here
    rw [List.flatMap_cons, List.countP_append, nodeLines_declares found, ih later, List.count_cons,
      Nat.add_comm]
    simp

end Lines

/-! ## Whole charts -/

theorem positions_node? {g : Graph} {id : Int} (member : id ∈ g.positions) :
    (g.node? id).isSome := by
  obtain ⟨k, below, rfl⟩ := List.mem_map.mp member
  have small : k < g.nodes.size := List.mem_range.mp below
  simp [node?, small]

/-- What a flowchart shows: the nodes that can be reached, each declared on one line, the nearer
ones first, and behind each of them a line for each of its edges. -/
structure Pictured (g : Graph) : Prop where
  text : ∀ path, ∃ overlay, g.mermaid path = "graph TD\n" ++ indented g.chartLines ++ overlay ∧
    (path = none → overlay = "")
  distinct : g.reachable.Nodup
  reached : ∀ id, id ∈ g.reachable ↔ (g.node? id).isSome ∧ g.Reaches id
  nearest : g.reachable.Pairwise g.Nearer
  lines : ∀ id n, g.node? id = some n →
    g.nodeLines id = shapeLine id n :: (g.strokes id).map Stroke.line ∧
      (g.strokes id).map Stroke.target = n.successors
  declared : ∀ id, g.chartLines.countP (declares id) = if id ∈ g.reachable then 1 else 0
  dots : ∀ id, ∀ s ∈ g.strokes id,
    (s.line = mermaidId id ++ " -.-> " ++ mermaidId s.target ↔ s.dotted = true)

theorem mem_reachable_iff {g : Graph} {id : Int} :
    id ∈ g.reachable ↔ (g.node? id).isSome ∧ g.Reaches id := by
  rw [mem_reachable, reaches_iff_steps]
  exact and_congr_left' ⟨positions_node?, node?_positions⟩

theorem pictured (g : Graph) : g.Pictured where
  text := by
    intro path
    cases path with
    | none => exact ⟨"", rfl, fun _ => rfl⟩
    | some ids => exact ⟨"\n" ++ indented (overlayLines g.reachable ids), rfl, nofun⟩
  distinct := reachable_nodup
  reached := fun id => mem_reachable_iff
  nearest := reachable_nearest
  lines := by
    intro id n found
    refine ⟨nodeLines_strokes found, ?_⟩
    rw [strokes_targets, successorsOf, found]
    rfl
  declared := by
    intro id
    rw [chartLines, countP_declares fun id member => (mem_reachable_iff.mp member).1]
    exact reachable_nodup.count
  dots := fun id s drawn => line_dotted drawn

end Graph

end StackFlow
