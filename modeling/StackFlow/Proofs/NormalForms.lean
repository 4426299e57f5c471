import StackFlow.Proofs.Projections

/-!
Simplified items are normal forms. A projection over the structure that it takes apart can be
simplified to a component, and simplification goes on until none is left at any depth. Main statement:
it leaves nothing to simplify, leaves alone what has nothing to simplify, and keeps the value of an
item in every reading that gives a projection the value of its component.
-/

namespace StackFlow.Item

universe u

/-- `Projects x c`: the item `x` takes the component `c` out of a structure that is known. -/
inductive Projects : Item → Item → Prop where
  | car {t : Ty} {annots : List String} {literal : Option Literal} {src a b : Item} :
      src.isConcretePair = true → src.operands = [a, b] →
      Projects (.node t annots "CAR" literal [src]) a
  | cdr {t : Ty} {annots : List String} {literal : Option Literal} {src a b : Item} :
      src.isConcretePair = true → src.operands = [a, b] →
      Projects (.node t annots "CDR" literal [src]) b
  | payload {t : Ty} {annots : List String} {producer : String} {literal : Option Literal}
      {src c : Item} {rest : List Item} :
      unwrapped? producer = some src.tag → src.operands = c :: rest →
      Projects (.node t annots producer literal [src]) c

/-- Nowhere in the item is an operand absent. -/
def Whole (x : Item) : Prop := ∀ y : Item, y.Occurs x → .absent ∉ y.operands

/-- Nothing in the item can be simplified. -/
def Normal (x : Item) : Prop := ∀ y : Item, y.Occurs x → ∀ c, ¬ y.Projects c

/-- A reading gives items values: the value of a node follows from its own parts and the values of its
operands, and a projection has the value of the component that it takes. -/
structure Reading {V : Type u} (value : Item → V) : Prop where
  node : ∀ t annots producer literal (ops ops' : List Item), ops.map value = ops'.map value →
    value (.node t annots producer literal ops) = value (.node t annots producer literal ops')
  projection : ∀ x c : Item, x.Whole → x.Projects c → value x = value c

variable {x c : Item} {t : Ty} {annots : List String} {producer : String}
  {literal : Option Literal} {ops : List Item}

theorem whole_node : (node t annots producer literal ops).Whole ↔
    .absent ∉ ops ∧ ∀ z ∈ ops, z.Whole := forall_occurs

theorem normal_iff : x.Normal ↔ (∀ c, ¬ x.Projects c) ∧ ∀ z ∈ x.operands, z.Normal := forall_occurs

/-! ## Redexes -/

theorem projects_of_collapse (found : collapse? producer ops = some c) :
    (node t annots producer literal ops).Projects c := by
  unfold collapse? at found
  split at found
  · rename_i src
    have found := (Option.ite_none_left_eq_some.mp found).2
    unfold projected? at found
    split at found
    · obtain ⟨concrete, first⟩ := Option.ite_none_right_eq_some.mp found
      obtain ⟨_, _, a, b, rfl, _⟩ := concretePair_cases concrete
      cases first
      exact .car concrete rfl
    · obtain ⟨concrete, second⟩ := Option.ite_none_right_eq_some.mp found
      obtain ⟨_, _, a, b, rfl, _⟩ := concretePair_cases concrete
      cases second
      exact .cdr concrete rfl
    · split at found
      · rename_i tag _ _ _ _ _ _ unwraps first
        obtain ⟨same, component⟩ := Option.ite_none_right_eq_some.mp found
        cases component
        exact .payload (unwraps.trans (congrArg some (eq_of_beq same).symm)) first
      · cases found
  · cases found

theorem collapse_of_projects (projects : (node t annots producer literal ops).Projects c)
    (present : c ≠ .absent) : collapse? producer ops = some c := by
  cases projects with
  | car concrete parts => simp [collapse?, projected?, concrete, parts]
  | cdr concrete parts => simp [collapse?, projected?, concrete, parts]
  | @payload _ _ _ _ src _ rest unwraps parts =>
    cases c with
    | absent => exact absurd rfl present
    | node =>
      have named : producer ∉ ["", "CAR", "CDR"] := by
        intro member
        simp only [List.mem_cons, List.not_mem_nil, or_false] at member
        rcases member with rfl | rfl | rfl <;> cases unwraps
      simp only [List.mem_cons, List.not_mem_nil, or_false, not_or] at named
      simp [collapse?, projected?, named, unwraps, parts]

/-- A node over whole operands is left as it is exactly if it is no redex. -/
theorem collapse_none_iff (whole : ∀ z ∈ ops, z.Whole) :
    collapse? producer ops = none ↔ ∀ c, ¬ (node t annots producer literal ops).Projects c := by
  constructor
  · intro stays c projects
    have present : c ≠ .absent := by
      rintro rfl
      cases projects with
      | car _ parts | cdr _ parts | payload _ parts =>
        have inside := (forall_occurs.mp (whole _ (List.mem_singleton_self _))).1
        simp [parts] at inside
    cases stays.symm.trans (collapse_of_projects projects present)
  · intro none
    exact Option.eq_none_iff_forall_ne_some.mpr fun c found => none c (projects_of_collapse found)

/-! ## What simplification leaves -/

theorem whole_map (whole : (node t annots producer literal ops).Whole)
    (each : ∀ z ∈ ops, z.reduce.Whole ∧ (z ≠ .absent → z.reduce ≠ .absent)) :
    (node t annots producer literal (ops.map reduce)).Whole := by
  refine whole_node.mpr ⟨fun member => ?_, fun z member => ?_⟩
  · obtain ⟨o, among, gone⟩ := List.mem_map.mp member
    exact (each o among).2 (fun same => (whole_node.mp whole).1 (same ▸ among)) gone
  · obtain ⟨o, among, rfl⟩ := List.mem_map.mp member
    exact (each o among).1

theorem whole_reduce (whole : x.Whole) : x.reduce.Whole ∧ (x ≠ .absent → x.reduce ≠ .absent) := by
  induction x using operandInduction with
  | step x ih =>
    cases x with
    | absent => exact ⟨whole, fun present => absurd rfl present⟩
    | node t annots producer literal ops =>
      have each := fun z member => ih z member ((whole_node.mp whole).2 z member)
      rw [reduce_node]
      cases collapsed : collapse? producer (ops.map reduce) with
      | some w =>
        -- a component of an operand that was simplified, so whole already
        obtain ⟨src, single, member⟩ := collapse_operand collapsed
        obtain ⟨o, rfl, rfl⟩ := List.map_eq_singleton_iff.mp single
        have inside := forall_occurs.mp (each o (List.mem_singleton_self o)).1
        exact ⟨inside.2 w member, fun _ same => inside.1 (same ▸ member)⟩
      | none => exact ⟨whole_map whole each, fun _ => nofun⟩

theorem whole_operands (whole : (node t annots producer literal ops).Whole) :
    (node t annots producer literal (ops.map reduce)).Whole :=
  whole_map whole fun z member => whole_reduce ((whole_node.mp whole).2 z member)

theorem normal_reduce (whole : x.Whole) : x.reduce.Normal := by
  induction x using operandInduction with
  | step x ih =>
    cases x with
    | absent => exact normal_iff.mpr ⟨nofun, nofun⟩
    | node t annots producer literal ops =>
      have parts := (whole_node.mp whole).2
      rw [reduce_node]
      cases collapsed : collapse? producer (ops.map reduce) with
      | some w =>
        obtain ⟨src, single, member⟩ := collapse_operand collapsed
        obtain ⟨o, rfl, rfl⟩ := List.map_eq_singleton_iff.mp single
        have operand := List.mem_singleton_self o
        exact (normal_iff.mp (ih o operand (parts o operand))).2 w member
      | none =>
        have operands := whole_node.mp (whole_operands whole)
        refine normal_iff.mpr ⟨(collapse_none_iff operands.2).mp collapsed, fun z member => ?_⟩
        obtain ⟨o, among, rfl⟩ := List.mem_map.mp member
        exact ih o among (parts o among)

/-! ## What it leaves alone -/

theorem simplifyAll_changed (xs : List Item) : (simplifyAll xs).2 = xs.any isReducible := by
  induction xs with
  | nil => rfl
  | cons x xs ih =>
    rw [List.any_cons, ← ih]
    rfl

theorem isReducible_node : (node t annots producer literal ops).isReducible =
    ((collapse? producer (ops.map reduce)).isSome || ops.any isReducible) := by
  rw [← simplifyAll_eq, ← simplifyAll_changed, isReducible, simplify]
  dsimp only
  cases collapse? producer (simplifyAll ops).1 with
  | some w => rfl
  | none => cases (simplifyAll ops).2 <;> rfl

theorem isReducible_iff (whole : x.Whole) : x.isReducible = false ↔ x.Normal := by
  induction x using operandInduction with
  | step x ih =>
    cases x with
    | absent => exact iff_of_true rfl (normal_reduce whole)
    | node t annots producer literal ops =>
      have parts := (whole_node.mp whole).2
      have settled : ops.any isReducible = false ↔ ∀ z ∈ ops, z.Normal := by
        rw [List.any_eq_false]
        exact forall₂_congr fun z member => by rw [← ih z member (parts z member), Bool.not_eq_true]
      rw [isReducible_node, Bool.or_eq_false_iff, settled, normal_iff]
      refine and_congr_left fun normal => ?_
      -- where no operand changes, the node over simplified operands is the node itself
      have same : ops.map reduce = ops := by
        apply (List.map_congr_left fun z member => ?_).trans (List.map_id ops)
        exact simplify_unchanged z ((ih z member (parts z member)).mpr (normal z member))
      rw [same, Option.isSome_eq_false_iff, Option.isNone_iff_eq_none]
      exact collapse_none_iff parts

theorem reduce_eq_iff (whole : x.Whole) : x.reduce = x ↔ x.Normal := by
  constructor
  · intro same
    exact same ▸ normal_reduce whole
  · intro normal
    exact simplify_unchanged x ((isReducible_iff whole).mpr normal)

/-! ## Readings -/

theorem reduce_value {V : Type u} {value : Item → V} (reading : Reading value) (whole : x.Whole) :
    value x.reduce = value x := by
  induction x using operandInduction with
  | step x ih =>
    cases x with
    | absent => rfl
    | node t annots producer literal ops =>
      have parts := (whole_node.mp whole).2
      have same : (ops.map reduce).map value = ops.map value := by
        rw [List.map_map]
        exact List.map_congr_left fun z member => ih z member (parts z member)
      rw [← reading.node t annots producer literal _ _ same, reduce_node]
      cases collapsed : collapse? producer (ops.map reduce) with
      | some w =>
        exact (reading.projection _ w (whole_operands whole) (projects_of_collapse collapsed)).symm
      | none => rfl

theorem reduce_concrete : (node t annots "" literal ops).reduce =
    .node t annots "" literal (ops.map reduce) := by
  rw [reduce_node]
  unfold collapse?
  split <;> rfl

theorem unwrapped_named : unwrapped? producer ≠ some "" := by
  unfold unwrapped?
  simp only [List.lookup]
  repeat' split
  all_goals simp

/-- The simplified item is itself a value: simplification is a reading. -/
theorem reading_reduce : Reading reduce where
  node := by
    intro t annots producer literal ops ops' same
    rw [reduce_node, reduce_node, same]
  projection := by
    intro x c whole projects
    -- the operand keeps its head, so the component is found in it once it is simplified
    have kept : ∃ t annots producer literal src, x = .node t annots producer literal [src] ∧
        (node t annots producer literal [src.reduce]).Projects c.reduce ∧ c ∈ src.operands := by
      cases projects with
      | car concrete parts =>
        obtain ⟨_, _, a, b, rfl, pair⟩ := concretePair_cases concrete
        cases parts
        refine ⟨_, _, _, _, _, rfl, ?_, List.mem_cons_self⟩
        rw [reduce_concrete]
        exact .car (concretePair_node pair) rfl
      | cdr concrete parts =>
        obtain ⟨_, _, a, b, rfl, pair⟩ := concretePair_cases concrete
        cases parts
        refine ⟨_, _, _, _, _, rfl, ?_, List.mem_cons_of_mem _ List.mem_cons_self⟩
        rw [reduce_concrete]
        exact .cdr (concretePair_node pair) rfl
      | @payload _ _ _ _ src _ _ unwraps parts =>
        cases src with
        | absent => cases parts
        | node t annots producer literal ops =>
          cases parts
          by_cases concrete : producer = ""
          · subst concrete
            refine ⟨_, _, _, _, _, rfl, ?_, List.mem_cons_self⟩
            rw [reduce_concrete]
            exact .payload unwraps rfl
          · simp only [tag, Item.producer, bne_iff_ne, ne_eq, concrete, not_false_eq_true,
              if_true] at unwraps
            exact absurd unwraps unwrapped_named
    obtain ⟨t, annots, producer, literal, src, rfl, projects, component⟩ := kept
    obtain ⟨present, below⟩ := forall_occurs.mp
      ((whole_node.mp whole).2 src (List.mem_singleton_self src))
    have found := collapse_of_projects projects
      ((whole_reduce (below c component)).2 fun same => present (same ▸ component))
    rw [reduce_node, List.map_singleton, found]
    rfl

/-! ## Main statement -/

/-- Simplification leaves no redex at any depth and gives the item itself back exactly if there was
none, so a second one changes nothing; in every reading the item keeps its value. -/
theorem reduce_normalizes (whole : x.Whole) :
    x.reduce.Normal ∧
    (x.isReducible = false ↔ x.Normal) ∧
    (x.reduce = x ↔ x.Normal) ∧
    (x.reduce.isReducible = false ∧ x.reduce.reduce = x.reduce) ∧
    ∀ (V : Type u) (value : Item → V), Reading value → value x.reduce = value x := by
  have normal := normal_reduce whole
  have whole' := (whole_reduce whole).1
  exact ⟨normal, isReducible_iff whole, reduce_eq_iff whole,
    ⟨(isReducible_iff whole').mpr normal, (reduce_eq_iff whole').mpr normal⟩,
    fun _ _ reading => reduce_value reading whole⟩

/-- The second component of the pair that a known option holds, beside a component of an unknown
pair. -/
def nestedProjections : Item :=
  .derived Ty.int "ADD"
    [.derived Ty.int "CDR"
      [.derived (Ty.pair Ty.nat Ty.int) "IF_NONE.some"
        [.composite (Ty.option (Ty.pair Ty.nat Ty.int)) (some "Some")
          [.composite (Ty.pair Ty.nat Ty.int) none
            [.placeholder Ty.nat [], .ofLiteral Ty.int (.int 1)]]]],
      .derived Ty.int "CAR" [.placeholder (Ty.pair Ty.int Ty.int) ["storage"]]]

/-- The outer redex appears only once the inner one is gone. -/
theorem nested_projections_normalized : nestedProjections.Whole ∧
    nestedProjections.reduce = .derived Ty.int "ADD" [.ofLiteral Ty.int (.int 1),
      .derived Ty.int "CAR" [.placeholder (Ty.pair Ty.int Ty.int) ["storage"]]] ∧
    nestedProjections.reduce.Normal ∧ nestedProjections.isReducible = true ∧
    nestedProjections.reduce.reduce = nestedProjections.reduce := by
  have whole : nestedProjections.Whole := by
    simp [nestedProjections, whole_node, derived, composite, placeholder, ofLiteral]
  obtain ⟨normal, _, _, _, reads⟩ := reduce_normalizes whole
  exact ⟨whole, rfl, normal, rfl, reads Item reduce reading_reduce⟩

end StackFlow.Item
